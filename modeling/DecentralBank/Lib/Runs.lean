import Mathlib.Tactic.Linarith

/-!
# Runs of a transition function

A machine is a total step function on states and events. Conditions that each
step of a run meets (`Along`) and amounts that the steps of a run add up
(`tally`) are read at the state each event meets. `run_invariant` and
`run_tally_le` carry a fact about one step to every run.
-/

namespace DecentralBank.Runs

variable {σ ε : Type} (step : σ → ε → σ)

/-- The state after the events `es`, from `s`. -/
def run (s : σ) (es : List ε) : σ := es.foldl step s

/-- Every event of the run meets `P` in the state it finds. -/
def Along (P : σ → ε → Prop) : σ → List ε → Prop
  | _, [] => True
  | s, e :: es => P s e ∧ Along P (step s e) es

/-- The sum of `g` over the events of the run and the states they find. -/
def tally (g : σ → ε → Int) : σ → List ε → Int
  | _, [] => 0
  | s, e :: es => g s e + tally g (step s e) es

/-- How far an event that is not one of `p` moves `f`. -/
def apart (p : ε → Bool) (f : σ → Int) (s : σ) (e : ε) : Int :=
  if p e then 0 else f (step s e) - f s

instance {P : σ → ε → Prop} [∀ s e, Decidable (P s e)] :
    ∀ s es, Decidable (Along step P s es)
  | _, [] => isTrue trivial
  | s, e :: es =>
    have := instDecidableAlong (P := P) (step s e) es
    inferInstanceAs (Decidable (P s e ∧ Along step P (step s e) es))

variable {step}

@[simp] theorem run_nil (s : σ) : run step s [] = s := rfl

@[simp] theorem run_cons (s : σ) (e : ε) (es : List ε) :
    run step s (e :: es) = run step (step s e) es := rfl

theorem run_append (s : σ) (es fs : List ε) :
    run step s (es ++ fs) = run step (run step s es) fs := by
  simp [run]

theorem along_append {P : σ → ε → Prop} {s : σ} {es fs : List ε} :
    Along step P s (es ++ fs) ↔ Along step P s es ∧ Along step P (run step s es) fs := by
  induction es generalizing s with
  | nil => simp [Along]
  | cons e es ih => simp [Along, ih, and_assoc]

theorem along_mono {P Q : σ → ε → Prop} (hPQ : ∀ s e, P s e → Q s e) {s : σ} {es : List ε}
    (h : Along step P s es) : Along step Q s es := by
  induction es generalizing s with
  | nil => trivial
  | cons e es ih => exact ⟨hPQ s e h.1, ih h.2⟩

theorem along_and {P Q : σ → ε → Prop} {s : σ} {es : List ε} (h : Along step P s es)
    (g : Along step Q s es) : Along step (fun s e => P s e ∧ Q s e) s es := by
  induction es generalizing s with
  | nil => trivial
  | cons e es ih => exact ⟨⟨h.1, g.1⟩, ih h.2 g.2⟩

theorem along_of_forall {p : ε → Prop} {es : List ε} (h : ∀ e ∈ es, p e) (s : σ) :
    Along step (fun _ e => p e) s es := by
  induction es generalizing s with
  | nil => trivial
  | cons e es ih =>
    obtain ⟨first, rest⟩ := List.forall_mem_cons.mp h
    exact ⟨first, ih rest _⟩

/-- What holds after each event of a run is what holds in every state it reaches. -/
theorem along_iff_reached {I : σ → Prop} {s : σ} (h₀ : I s) (es : List ε) :
    Along step (fun s e => I (step s e)) s es ↔
      ∀ first rest, es = first ++ rest → I (run step s first) := by
  induction es generalizing s with
  | nil =>
    refine ⟨fun _ first rest split => ?_, fun _ => trivial⟩
    obtain ⟨rfl, -⟩ := List.nil_eq_append_iff.mp split
    exact h₀
  | cons e es ih =>
    constructor
    · rintro ⟨next, later⟩ first rest split
      cases first with
      | nil => exact h₀
      | cons e' first =>
        obtain ⟨rfl, rfl⟩ := List.cons.inj split
        exact (ih next).mp later first rest rfl
    · intro reached
      have next : I (step s e) := reached [e] es rfl
      refine ⟨next, (ih next).mpr fun first rest split => ?_⟩
      exact reached (e :: first) rest (by rw [split, List.cons_append])

theorem along_true (s : σ) (es : List ε) : Along step (fun _ _ => True) s es := by
  induction es generalizing s with
  | nil => trivial
  | cons e es ih => exact ⟨trivial, ih _⟩

theorem tally_add (g h : σ → ε → Int) (s : σ) (es : List ε) :
    tally step (fun s e => g s e + h s e) s es = tally step g s es + tally step h s es := by
  induction es generalizing s with
  | nil => rfl
  | cons e es ih => simp only [tally, ih]; omega

theorem tally_sub (g h : σ → ε → Int) (s : σ) (es : List ε) :
    tally step (fun s e => g s e - h s e) s es = tally step g s es - tally step h s es := by
  induction es generalizing s with
  | nil => rfl
  | cons e es ih => simp only [tally, ih]; omega

theorem tally_mul (k : Int) (g : σ → ε → Int) (s : σ) (es : List ε) :
    tally step (fun s e => k * g s e) s es = k * tally step g s es := by
  induction es generalizing s with
  | nil => simp [tally]
  | cons e es ih => simp only [tally, ih, mul_add]

/-- What every step meeting `P` preserves holds after every such run. -/
theorem run_invariant {P : σ → ε → Prop} {I : σ → Prop}
    (hstep : ∀ s e, I s → P s e → I (step s e))
    {s : σ} {es : List ε} (h₀ : I s) (h : Along step P s es) : I (run step s es) := by
  induction es generalizing s with
  | nil => exact h₀
  | cons e es ih => exact ih (hstep s e h₀ h.1) h.2

/-- A machine whose steps are, seen through `view`, the steps of another, runs as it does. -/
theorem run_simulates {τ : Type} {step' : τ → ε → τ} {view : σ → τ} {I : σ → Prop}
    (hstep : ∀ s e, I s → I (step s e)) (hview : ∀ s e, I s → view (step s e) = step' (view s) e)
    {s : σ} (h₀ : I s) (es : List ε) : view (run step s es) = run step' (view s) es := by
  induction es generalizing s with
  | nil => rfl
  | cons e es ih => rw [run_cons, run_cons, ih (hstep s e h₀), hview s e h₀]

/-- If from `I` a step meets `C` exactly when it meets `Q`, and then keeps `I`,
the runs along `C` are the runs along `Q`. -/
theorem along_iff_along {P Q C : σ → ε → Prop} {I : σ → Prop}
    (hstep : ∀ s e, I s → P s e → (C s e ∧ Q s e ∧ I (step s e)) ∨ (¬ C s e ∧ ¬ Q s e))
    {s : σ} {es : List ε} (h₀ : I s) (h : Along step P s es) :
    Along step Q s es ↔ Along step C s es := by
  induction es generalizing s with
  | nil => exact Iff.rfl
  | cons e es ih =>
    obtain ⟨hc, hq, next⟩ | ⟨hc, hq⟩ := hstep s e h₀ h.1
    · simp only [Along, hc, hq, true_and]
      exact ih next h.2
    · simp only [Along, hc, hq, false_and]

section Tallies

variable {P : σ → ε → Prop} {I : σ → Prop} {f : σ → Int} {g : σ → ε → Int}

/-- If each step raises `f` by at most `g`, a run raises it by at most the
run's tally of `g`. -/
theorem run_tally_le (hstep : ∀ s e, I s → P s e → I (step s e))
    (hf : ∀ s e, I s → P s e → f (step s e) ≤ f s + g s e)
    {s : σ} {es : List ε} (h₀ : I s) (h : Along step P s es) :
    f (run step s es) ≤ f s + tally step g s es := by
  induction es generalizing s with
  | nil => simp [tally]
  | cons e es ih =>
    have first := hf s e h₀ h.1
    have rest := ih (hstep s e h₀ h.1) h.2
    simp only [run_cons, tally] at rest ⊢
    linarith

/-- If each step raises `f` by `g`, a run raises it by the run's tally of `g`. -/
theorem run_tally_eq (hstep : ∀ s e, I s → P s e → I (step s e))
    (hf : ∀ s e, I s → P s e → f (step s e) = f s + g s e)
    {s : σ} {es : List ε} (h₀ : I s) (h : Along step P s es) :
    f (run step s es) = f s + tally step g s es := by
  apply le_antisymm
  · exact run_tally_le hstep (fun s e hi hp => (hf s e hi hp).le) h₀ h
  · induction es generalizing s with
    | nil => simp [tally]
    | cons e es ih =>
      have first := hf s e h₀ h.1
      have rest := ih (hstep s e h₀ h.1) h.2
      simp only [run_cons, tally] at rest ⊢
      linarith

/-- If the events of `p` keep the sum of `f` and `d`, and the others keep `d`, a run moves the sum
by what the others move `f`. -/
theorem run_apart {p : ε → Bool} {f d : σ → Int} (hstep : ∀ s e, I s → P s e → I (step s e))
    (inside : ∀ s e, I s → P s e → p e = true → f (step s e) + d (step s e) = f s + d s)
    (outside : ∀ s e, I s → P s e → p e = false → d (step s e) = d s)
    {s : σ} {es : List ε} (h₀ : I s) (h : Along step P s es) :
    f (run step s es) + d (run step s es) = f s + d s + tally step (apart step p f) s es := by
  refine run_tally_eq (f := fun s => f s + d s) hstep (fun s e hi hp => ?_) h₀ h
  cases one : p e with
  | true => simp only [apart, one, if_true, add_zero, inside s e hi hp one]
  | false =>
    have kept := outside s e hi hp one
    simp only [apart, one, Bool.false_eq_true, if_false, kept]
    omega

end Tallies

theorem tally_nonneg {g : σ → ε → Int} (hg : ∀ s e, 0 ≤ g s e) (s : σ) (es : List ε) :
    0 ≤ tally step g s es := by
  induction es generalizing s with
  | nil => exact le_refl 0
  | cons e es ih => exact add_nonneg (hg s e) (ih _)

theorem tally_eq_zero {g : σ → ε → Int} {s : σ} {es : List ε}
    (h : Along step (fun s e => g s e = 0) s es) : tally step g s es = 0 := by
  induction es generalizing s with
  | nil => rfl
  | cons e es ih => rw [tally, h.1, ih h.2, add_zero]

/-- A tally of amounts that are not negative is zero when each of them is. -/
theorem tally_eq_zero_iff {g : σ → ε → Int} (hg : ∀ s e, 0 ≤ g s e) (s : σ) (es : List ε) :
    tally step g s es = 0 ↔ Along step (fun s e => g s e = 0) s es := by
  induction es generalizing s with
  | nil => simp [tally, Along]
  | cons e es ih =>
    have first := hg s e
    have rest : 0 ≤ tally step g (step s e) es := tally_nonneg hg _ _
    simp only [tally, Along, ← ih]
    omega

end DecentralBank.Runs
