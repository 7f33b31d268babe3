import DecentralBank.Lib.Checked
import Mathlib.Tactic.Linarith

/-!
# Operations that commute

Every party has rows of its own, and all parties move shared counters.
An operation of a party reads and writes its own rows, reads what nobody
writes and adds to counters, which it only checks to stay in range. Two
operations of different parties commute as long as no counter leaves its range
(`commute`).
-/

namespace DecentralBank.Sharing

variable {σ ι κ : Type}

/-- The state after an operation that changes nothing when it fails. -/
def outcome (op : σ → Checked σ) (s : σ) : σ :=
  match op s with
  | .ok s' => s'
  | .error _ => s

theorem outcome_ok {op : σ → Checked σ} {s s' : σ} (h : op s = .ok s') : outcome op s = s' := by
  simp only [outcome, h]

theorem outcome_error {op : σ → Checked σ} {s : σ} {message : String} (h : op s = .error message) :
    outcome op s = s := by
  simp only [outcome, h]

/-- States with counters. `agree i s t` says that `s` and `t` are the same to
party `i`, but for the counters; `clear` sets all counters to zero. -/
structure Shared (σ ι κ : Type) where
  agree : ι → σ → σ → Prop
  equiv : ∀ i, Equivalence (agree i)
  read : σ → κ → Int
  Fits : Int → Prop
  zero : Fits 0
  clear : σ → σ
  cleared : ∀ i s, agree i s (clear s)
  read_clear : ∀ s k, read (clear s) k = 0
  Sound : σ → Prop

variable (S : Shared σ ι κ)

/-- What an operation adds to a counter, where its other checks pass. -/
def added (op : σ → Checked σ) (s : σ) (k : κ) : Int := S.read (outcome op (S.clear s)) k

/-- An operation of party `i`. -/
structure Local (i : ι) (op : σ → Checked σ) : Prop where
  /-- It does the same to any state that `i` cannot tell apart, where the counters have room. -/
  transfer : ∀ {s t s'}, S.agree i s t → op s = .ok s' →
    (∀ k, S.Fits (S.read t k + (S.read s' k - S.read s k))) →
    ∃ t', op t = .ok t' ∧ S.agree i s' t' ∧
      ∀ k, S.read t' k = S.read t k + (S.read s' k - S.read s k)
  /-- No other party can tell but by the counters. -/
  frame : ∀ {s s' j}, j ≠ i → op s = .ok s' → S.agree j s s'
  /-- A counter that it moves stays in range. -/
  checked : ∀ {s s'} k, op s = .ok s' → S.Fits (S.read s' k) ∨ S.read s' k = S.read s k
  small : ∀ {s s'} k, S.Sound s → op s = .ok s' → S.Fits (S.read s' k - S.read s k)
  sound : ∀ {s s'}, S.Sound s → op s = .ok s' → S.Sound s'

variable {S}

section One

variable {i : ι} {op : σ → Checked σ} {s t : σ}

theorem Local.fits_added (h : Local S i op) (s : σ) (k : κ) : S.Fits (added S op s k) := by
  unfold added
  cases done : op (S.clear s) with
  | ok c =>
    rw [outcome_ok done]
    rcases h.checked k done with inside | same
    · exact inside
    · rw [same, S.read_clear]
      exact S.zero
  | error message =>
    rw [outcome_error done, S.read_clear]
    exact S.zero

/-- With room for what it adds, an operation passes when it does without the
counters, and adds just that. -/
theorem Local.passes_iff (h : Local S i op) (hs : S.Sound s)
    (room : ∀ k, S.Fits (S.read s k + added S op s k)) :
    ((op s).isOk = true ↔ (op (S.clear s)).isOk = true) ∧
      ∀ k, S.read (outcome op s) k = S.read s k + added S op s k := by
  cases bare : op (S.clear s) with
  | ok c =>
    have adds (k : κ) : added S op s k = S.read c k - S.read (S.clear s) k := by
      rw [added, outcome_ok bare, S.read_clear, sub_zero]
    obtain ⟨s', done, -, moved⟩ := h.transfer ((S.equiv i).symm (S.cleared i s)) bare
      fun k => by rw [← adds]; exact room k
    refine ⟨by simp only [done, Except.isOk, Except.toBool], fun k => ?_⟩
    rw [outcome_ok done, moved, adds]
  | error message =>
    have adds (k : κ) : added S op s k = 0 := by rw [added, outcome_error bare, S.read_clear]
    cases done : op s with
    | ok s' =>
      obtain ⟨c, passed, -⟩ := h.transfer (S.cleared i s) done
        fun k => by rw [S.read_clear, zero_add]; exact h.small k hs done
      cases bare.symm.trans passed
    | error _ =>
      refine ⟨Iff.rfl, fun k => ?_⟩
      rw [outcome_error done, adds, add_zero]

/-- Without the counters, an operation does the same to states its party cannot tell apart. -/
theorem Local.bare_of_agree (h : Local S i op) (view : S.agree i s t)
    (passed : (op (S.clear s)).isOk = true) :
    (op (S.clear t)).isOk = true ∧ ∀ k, added S op t k = added S op s k := by
  have bare : S.agree i (S.clear s) (S.clear t) :=
    (S.equiv i).trans ((S.equiv i).symm (S.cleared i s)) ((S.equiv i).trans view (S.cleared i t))
  have fits := h.fits_added s
  cases done : op (S.clear s) with
  | ok c =>
    obtain ⟨c', done', -, moved⟩ := h.transfer bare done fun k => by
      have inside := fits k
      rwa [added, outcome_ok done, ← sub_zero (S.read c k), ← S.read_clear s k, ← zero_add (_ - _),
        ← S.read_clear t k] at inside
    refine ⟨by simp only [done', Except.isOk, Except.toBool], fun k => ?_⟩
    rw [added, added, outcome_ok done, outcome_ok done', moved, S.read_clear, S.read_clear]
    omega
  | error message =>
    rw [done] at passed
    cases passed

theorem Local.bare_iff (h : Local S i op) (view : S.agree i s t) :
    ((op (S.clear s)).isOk = true ↔ (op (S.clear t)).isOk = true) ∧
      ∀ k, added S op t k = added S op s k := by
  by_cases passed : (op (S.clear s)).isOk = true
  · obtain ⟨passed', same⟩ := h.bare_of_agree view passed
    exact ⟨iff_of_true passed passed', same⟩
  · have refused : ¬ (op (S.clear t)).isOk = true := fun passed' =>
      passed (h.bare_of_agree ((S.equiv i).symm view) passed').1
    refine ⟨iff_of_false passed refused, fun k => ?_⟩
    have still (u : σ) (no : ¬ (op (S.clear u)).isOk = true) : added S op u k = 0 := by
      cases done : op (S.clear u) with
      | ok c => exact absurd (by simp only [done, Except.isOk, Except.toBool]) no
      | error _ => rw [added, outcome_error done, S.read_clear]
    rw [still s passed, still t refused]

/-- It leaves states that its party could not tell apart so. -/
theorem Local.agree_outcome (h : Local S i op) (hs : S.Sound s) (ht : S.Sound t)
    (view : S.agree i s t) (room : ∀ k, S.Fits (S.read s k + added S op s k))
    (room' : ∀ k, S.Fits (S.read t k + added S op t k)) :
    S.agree i (outcome op s) (outcome op t) := by
  obtain ⟨passes, moved⟩ := h.passes_iff hs room
  obtain ⟨passes', -⟩ := h.passes_iff ht room'
  obtain ⟨same, adds⟩ := h.bare_iff view
  cases done : op s with
  | ok s' =>
    obtain ⟨t', done', next, -⟩ := h.transfer view done fun k => by
      have shift : S.read s' k - S.read s k = added S op t k := by
        rw [adds, ← outcome_ok done, moved]
        omega
      rw [shift]
      exact room' k
    rw [outcome_ok done, outcome_ok done']
    exact next
  | error message =>
    cases done' : op t with
    | ok t' =>
      have passed := same.mpr (passes'.mp (by simp only [done', Except.isOk, Except.toBool]))
      have impossible := passes.mpr passed
      rw [done] at impossible
      cases impossible
    | error _ =>
      rw [outcome_error done, outcome_error done']
      exact view

theorem Local.frame_outcome (h : Local S i op) {j : ι} (other : j ≠ i) (s : σ) :
    S.agree j s (outcome op s) := by
  cases done : op s with
  | ok s' =>
    rw [outcome_ok done]
    exact h.frame other done
  | error _ =>
    rw [outcome_error done]
    exact (S.equiv j).refl s

theorem Local.sound_outcome (h : Local S i op) (hs : S.Sound s) : S.Sound (outcome op s) := by
  cases done : op s with
  | ok s' =>
    rw [outcome_ok done]
    exact h.sound hs done
  | error _ =>
    rw [outcome_error done]
    exact hs

end One

/-- No counter leaves its range, whichever operation comes first. -/
def Roomy (S : Shared σ ι κ) (op₁ op₂ : σ → Checked σ) (s : σ) : Prop :=
  ∀ k, S.Fits (S.read s k + added S op₁ s k) ∧ S.Fits (S.read s k + added S op₂ s k) ∧
    S.Fits (S.read s k + added S op₁ s k + added S op₂ s k)

/-- Operations of two parties pass or fail alike in either order, and end the same. -/
theorem commute {i j : ι} {op₁ op₂ : σ → Checked σ} {s : σ} (h₁ : Local S i op₁)
    (h₂ : Local S j op₂) (apart : i ≠ j) (hs : S.Sound s) (room : Roomy S op₁ op₂ s) :
    ((op₁ (outcome op₂ s)).isOk = true ↔ (op₁ s).isOk = true) ∧
      ((op₂ (outcome op₁ s)).isOk = true ↔ (op₂ s).isOk = true) ∧
      (∀ l, S.agree l (outcome op₂ (outcome op₁ s)) (outcome op₁ (outcome op₂ s))) ∧
      ∀ k, S.read (outcome op₂ (outcome op₁ s)) k = S.read (outcome op₁ (outcome op₂ s)) k := by
  have room₁ := fun k => (room k).1
  have room₂ := fun k => (room k).2.1
  have view₁ : S.agree i s (outcome op₂ s) := h₂.frame_outcome apart s
  have view₂ : S.agree j s (outcome op₁ s) := h₁.frame_outcome apart.symm s
  obtain ⟨passes₁, moved₁⟩ := h₁.passes_iff hs room₁
  obtain ⟨passes₂, moved₂⟩ := h₂.passes_iff hs room₂
  obtain ⟨same₁, adds₁⟩ := h₁.bare_iff view₁
  obtain ⟨same₂, adds₂⟩ := h₂.bare_iff view₂
  have room₁' : ∀ k, S.Fits (S.read (outcome op₂ s) k + added S op₁ (outcome op₂ s) k) := by
    intro k
    rw [moved₂, adds₁, add_right_comm]
    exact (room k).2.2
  have room₂' : ∀ k, S.Fits (S.read (outcome op₁ s) k + added S op₂ (outcome op₁ s) k) := by
    intro k
    rw [moved₁, adds₂]
    exact (room k).2.2
  obtain ⟨passes₁', moved₁'⟩ := h₁.passes_iff (h₂.sound_outcome hs) room₁'
  obtain ⟨passes₂', moved₂'⟩ := h₂.passes_iff (h₁.sound_outcome hs) room₂'
  refine ⟨passes₁'.trans (same₁.symm.trans passes₁.symm),
    passes₂'.trans (same₂.symm.trans passes₂.symm), fun l => ?_, fun k => ?_⟩
  · by_cases first : l = i
    · subst first
      have next := h₁.agree_outcome hs (h₂.sound_outcome hs) view₁ room₁ room₁'
      exact (S.equiv l).trans ((S.equiv l).symm (h₂.frame_outcome apart _)) next
    · have left : S.agree l (outcome op₂ s) (outcome op₁ (outcome op₂ s)) :=
        h₁.frame_outcome first _
      by_cases second : l = j
      · subst second
        have next := h₂.agree_outcome hs (h₁.sound_outcome hs) view₂ room₂ room₂'
        exact (S.equiv l).trans ((S.equiv l).symm next) left
      · have right : S.agree l s (outcome op₂ (outcome op₁ s)) :=
          (S.equiv l).trans (h₁.frame_outcome first s) (h₂.frame_outcome second _)
        have left' : S.agree l s (outcome op₁ (outcome op₂ s)) :=
          (S.equiv l).trans (h₂.frame_outcome second s) left
        exact (S.equiv l).trans ((S.equiv l).symm right) left'
  · rw [moved₁', moved₂', moved₁, moved₂, adds₁, adds₂]
    omega

end DecentralBank.Sharing
