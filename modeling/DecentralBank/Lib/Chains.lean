import Mathlib.Logic.Relation
import Mathlib.Logic.Function.Basic
import Mathlib.Data.List.Perm.Subperm

/-!
# Chains without a cycle

A partial map links a point to the next. While no chain of links returns to
where it began, a walk along it visits no point twice, so it is over after as
many steps as there are points.
-/

namespace DecentralBank.Chains

variable {α : Type} {next : α → Option α}

def Links (next : α → Option α) (a b : α) : Prop := next a = some b

def Acyclic (next : α → Option α) : Prop := ∀ a, ¬ Relation.TransGen (Links next) a a

/-- Links may be dropped. -/
theorem Acyclic.mono {next' : α → Option α} (h : Acyclic next)
    (fewer : ∀ a b, Links next' a b → Links next a b) : Acyclic next' := by
  intro a cycle
  exact h a (cycle.lift id fewer)

theorem first_link {a b : α} (h : Relation.TransGen (Links next) a b) : ∃ d, next a = some d := by
  induction h with
  | single link => exact ⟨_, link⟩
  | tail _ _ ih => exact ih

/-- Induction along a chain, with as many steps as there are points. -/
theorem Acyclic.steps {P : Nat → α → Prop} (h : Acyclic next) {points : List α}
    (step : ∀ n a, (∀ b, next a = some b → b ∈ points → P n b) → P (n + 1) a) :
    ∀ a ∈ points, P points.length a := by
  have walk (n : Nat) : ∀ (seen : List α) (a : α), seen.Nodup → (∀ s ∈ seen, s ∈ points) →
      (∀ s ∈ seen, Relation.TransGen (Links next) s a) → a ∈ points →
      points.length ≤ n + seen.length → P n a := by
    induction n with
    | zero =>
      intro seen a distinct within before here long
      have fresh : a ∉ seen := fun again => h a (before a again)
      have inside : (a :: seen).Subset points := by
        intro s mem
        cases List.mem_cons.mp mem with
        | inl same => exact same ▸ here
        | inr later => exact within s later
      have short :=
        (List.subperm_of_subset (List.nodup_cons.mpr ⟨fresh, distinct⟩) inside).length_le
      rw [List.length_cons] at short
      omega
    | succ n ih =>
      intro seen a distinct within before here long
      refine step n a fun b link there => ih (a :: seen) b ?_ ?_ ?_ there ?_
      · exact List.nodup_cons.mpr ⟨fun again => h a (before a again), distinct⟩
      · intro s mem
        cases List.mem_cons.mp mem with
        | inl same => exact same ▸ here
        | inr later => exact within s later
      · intro s mem
        cases List.mem_cons.mp mem with
        | inl same => exact same ▸ .single link
        | inr later => exact (before s later).tail link
      · rw [List.length_cons]
        omega
  intro a here
  exact walk points.length [] a List.nodup_nil (by simp) (by simp) here (by simp)

variable [DecidableEq α]

/-- A chain that can take a new link to an end of chains is an old one, or ends there. -/
theorem redirected {a b x y : α} (last : next b = none)
    (h : Relation.TransGen (Links (Function.update next a (some b))) x y) :
    Relation.TransGen (Links next) x y ∨ y = b := by
  have old_or_new (y z : α) (link : Links (Function.update next a (some b)) y z) :
      Links next y z ∨ z = b := by
    unfold Links at link ⊢
    rw [Function.update_apply] at link
    split at link
    · exact Or.inr (Option.some.inj link).symm
    · exact Or.inl link
  induction h with
  | single link => exact (old_or_new _ _ link).imp_left .single
  | tail _ link ih =>
    cases old_or_new _ _ link with
    | inr ends => exact Or.inr ends
    | inl old =>
      cases ih with
      | inl chain => exact Or.inl (chain.tail old)
      | inr ends =>
        subst ends
        cases last.symm.trans old

/-- A link to an end of chains closes no cycle. -/
theorem Acyclic.redirect (h : Acyclic next) {a b : α} (apart : a ≠ b) (last : next b = none) :
    Acyclic (Function.update next a (some b)) := by
  intro x cycle
  cases redirected last cycle with
  | inl old => exact h x old
  | inr ends =>
    subst ends
    obtain ⟨d, link⟩ := first_link cycle
    rw [Function.update_of_ne apart.symm, last] at link
    cases link

end DecentralBank.Chains
