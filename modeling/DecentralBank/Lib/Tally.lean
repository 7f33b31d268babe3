import Mathlib.Algebra.BigOperators.Group.Finset.Piecewise
import Mathlib.Algebra.Order.BigOperators.Group.Finset
import Mathlib.Data.Finset.Dedup
import Mathlib.Tactic.Abel
import DecentralBank.Lib.Table

/-!
# Tallies

Voters weigh as much as they do together. When one of them weighs more, those
who choose as it does weigh more, and one that weighs nothing may choose
another.
-/

namespace DecentralBank.Tally

variable {K R : Type} [DecidableEq K] [AddCommGroup R] {voters : Finset K}
  {chooses chooses' : K → Bool} {weight weight' : K → R} {k : K}

/-- What those of `voters` weigh who choose so. -/
def weigh (voters : Finset K) (chooses : K → Bool) (weight : K → R) : R :=
  ∑ k ∈ voters with chooses k = true, weight k

omit [DecidableEq K] in
theorem weigh_congr (choice : ∀ j ∈ voters, chooses' j = chooses j)
    (same : ∀ j ∈ voters, weight' j = weight j) :
    weigh voters chooses' weight' = weigh voters chooses weight := by
  unfold weigh
  refine Finset.sum_congr (Finset.filter_congr fun j mem => ?_) fun j mem => ?_
  · rw [choice j mem]
  · exact same j (Finset.mem_filter.mp mem).1

theorem weigh_update (k : K) (w : R) : weigh voters chooses (Function.update weight k w) =
    weigh voters chooses weight + if k ∈ voters ∧ chooses k = true then w - weight k else 0 := by
  unfold weigh
  split
  · rename_i among
    have mem : k ∈ voters.filter fun j => chooses j = true := Finset.mem_filter.mpr among
    rw [Finset.sum_update_of_mem mem, Finset.sdiff_singleton_eq_erase,
      ← Finset.add_sum_erase _ weight mem]
    abel
  · rename_i apart
    rw [add_zero]
    refine Finset.sum_congr rfl fun j mem => Function.update_of_ne (fun here => apart ?_) _ _
    exact here ▸ Finset.mem_filter.mp mem

/-- One that weighs nothing may choose another. -/
theorem weigh_choice (others : ∀ j, j ≠ k → chooses' j = chooses j) (nothing : weight k = 0) :
    weigh voters chooses' weight = weigh voters chooses weight := by
  unfold weigh
  rw [Finset.sum_filter, Finset.sum_filter]
  refine Finset.sum_congr rfl fun j _ => ?_
  by_cases here : j = k
  · rw [here, nothing, ite_self, ite_self]
  · rw [others j here]

omit [DecidableEq K] in
theorem weigh_none (none : ∀ j ∈ voters, chooses j = false) : weigh voters chooses weight = 0 := by
  refine Finset.sum_eq_zero fun j mem => ?_
  obtain ⟨there, chosen⟩ := Finset.mem_filter.mp mem
  rw [none j there] at chosen
  cases chosen

/-- A new voter that chooses otherwise. -/
theorem weigh_insert (other : chooses k = false) :
    weigh (insert k voters) chooses weight = weigh voters chooses weight := by
  unfold weigh
  rw [Finset.filter_insert, if_neg (by rw [other]; exact Bool.false_ne_true)]

omit [DecidableEq K] in
theorem weigh_nonneg [LinearOrder R] [IsOrderedAddMonoid R] (nonneg : ∀ j, 0 ≤ weight j) :
    0 ≤ weigh voters chooses weight :=
  Finset.sum_nonneg fun j _ => nonneg j

/-! ## Rows -/

variable {V : Type} {f : V → R} {t : Table K V} {v : V}

/-- The rows of a table added up. -/
def sum (f : V → R) (t : Table K V) : R := ∑ k ∈ t.keys.toFinset, (t.lookup k).elim 0 f

theorem keys_insert (t : Table K V) (k : K) (v : V) :
    (t.insert k v).keys.toFinset = insert k t.keys.toFinset := by
  ext j
  simp only [AList.keys_insert, List.toFinset_cons, Finset.mem_insert, List.mem_toFinset]
  by_cases here : j = k
  · simp only [here, true_or]
  · simp only [here, false_or, List.mem_erase_of_ne here]

/-- One summand changes, or is new. -/
theorem sum_change {g g' : K → R} (outside : k ∉ voters → g k = 0)
    (others : ∀ j, j ≠ k → g' j = g j) :
    ∑ j ∈ insert k voters, g' j = ∑ j ∈ voters, g j + (g' k - g k) := by
  have rest : ∑ j ∈ voters.erase k, g' j = ∑ j ∈ voters, g j - g k := by
    rw [Finset.sum_congr rfl fun j mem => others j (Finset.ne_of_mem_erase mem)]
    by_cases mem : k ∈ voters
    · rw [← Finset.add_sum_erase _ _ mem]
      abel
    · rw [Finset.erase_eq_of_notMem mem, outside mem, sub_zero]
  rw [← Finset.add_sum_erase _ _ (Finset.mem_insert_self k voters), Finset.erase_insert_eq_erase,
    rest]
  abel

theorem sum_insert (f : V → R) (t : Table K V) (k : K) (v : V) :
    sum f (t.insert k v) = sum f t - (t.lookup k).elim 0 f + f v := by
  have others (j : K) (apart : j ≠ k) :
      ((t.insert k v).lookup j).elim 0 f = (t.lookup j).elim 0 f := by
    rw [Table.lookup_insert, if_neg apart]
  have own : ((t.insert k v).lookup k).elim 0 f = f v := by
    rw [Table.lookup_insert, if_pos rfl, Option.elim_some]
  have outside (out : k ∉ t.keys.toFinset) : (t.lookup k).elim 0 f = 0 := by
    rw [AList.lookup_eq_none.mpr fun mem => out (List.mem_toFinset.mpr mem), Option.elim_none]
  rw [sum, keys_insert, sum_change outside others, own, ← sum]
  abel

end DecentralBank.Tally
