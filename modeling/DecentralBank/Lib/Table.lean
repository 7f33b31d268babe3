import Mathlib.Data.List.AList
import Mathlib.Algebra.BigOperators.Ring.List
import Mathlib.Algebra.Order.BigOperators.Group.List
import Mathlib.Tactic.Ring

/-!
# Keyed tables and their totals

A table is Mathlib's association list with distinct keys. A total adds a
weight over the rows, so a write at one key moves it by the new row's weight
less the replaced row's (`total_insert`, `total_erase`).
-/

namespace DecentralBank

/-- Rows of type `V`, at most one for each key. -/
abbrev Table (K V : Type) := AList (fun _ : K => V)

namespace Table

variable {K V : Type}

/-- The weights of all rows added up. -/
def total (f : K → V → Int) (t : Table K V) : Int :=
  (t.entries.map fun e => f e.1 e.2).sum

@[simp] theorem total_empty (f : K → V → Int) : total f (∅ : Table K V) = 0 := rfl

theorem total_add (f g : K → V → Int) (t : Table K V) :
    total (fun k v => f k v + g k v) t = total f t + total g t := by
  simp [total, List.sum_map_add]

theorem total_mul (a : Int) (f : K → V → Int) (t : Table K V) :
    total (fun k v => a * f k v) t = a * total f t := by
  unfold total
  exact List.sum_map_mul_left ..

/-- A total over some of the keys is the sum over the rows filtered by them. -/
theorem total_filter (f : K → V → Int) (p : K → Bool) (t : Table K V) :
    total (fun k v => if p k then f k v else 0) t =
      ((t.entries.filter fun e => p e.1).map fun e => f e.1 e.2).sum := by
  unfold total
  induction t.entries with
  | nil => rfl
  | cons e l ih =>
    rw [List.map_cons, List.sum_cons, ih, List.filter_cons]
    by_cases hp : p e.1 = true
    · simp [hp]
    · simp [hp]

variable [DecidableEq K]

theorem lookup_insert (t : Table K V) (k j : K) (v : V) :
    (t.insert k v).lookup j = if j = k then some v else t.lookup j := by
  by_cases h : j = k
  · subst h; simp
  · rw [AList.lookup_insert_ne h, if_neg h]

theorem lookup_erase (t : Table K V) (k j : K) :
    (t.erase k).lookup j = if j = k then none else t.lookup j := by
  by_cases h : j = k
  · subst h; simp
  · rw [AList.lookup_erase_ne h, if_neg h]

/-- A row of a table that has been written to is the one written or an earlier one. -/
theorem of_lookup_insert {t : Table K V} {k j : K} {v u : V}
    (h : (t.insert k v).lookup j = some u) :
    (j = k ∧ u = v) ∨ (j ≠ k ∧ t.lookup j = some u) := by
  rw [lookup_insert] at h
  split at h
  · rename_i here
    exact Or.inl ⟨here, (Option.some.inj h).symm⟩
  · rename_i other
    exact Or.inr ⟨other, h⟩

/-- A row that is left after an erasure was there before, at another key. -/
theorem of_lookup_erase {t : Table K V} {k j : K} {u : V} (h : (t.erase k).lookup j = some u) :
    j ≠ k ∧ t.lookup j = some u := by
  rw [lookup_erase] at h
  split at h
  · cases h
  · rename_i other
    exact ⟨other, h⟩

/-- A row written as it stands changes nothing. -/
theorem lookup_rewritten {t : Table K V} {k : K} {v : V} (h : t.lookup k = some v) (j : K) :
    (t.insert k v).lookup j = t.lookup j := by
  rw [lookup_insert]
  split
  · rename_i here
    rw [here, h]
  · rfl

theorem lookup_iff_mem (t : Table K V) (k : K) (v : V) :
    t.lookup k = some v ↔ (⟨k, v⟩ : (_ : K) × V) ∈ t.entries :=
  AList.mem_lookup_iff

/-- The table with every row changed by `f`. -/
def mapRows {W : Type} (f : V → W) (t : Table K V) : Table K W :=
  ⟨t.entries.map (.map id fun _ => f), t.nodupKeys.map₂ fun _ => f⟩

@[simp] theorem lookup_mapRows {W : Type} (f : V → W) (t : Table K V) (k : K) :
    (t.mapRows f).lookup k = (t.lookup k).map f :=
  List.dlookup_map₂ (f := fun _ => f) k

/-- The table with the row at `k`, if there is one, changed by `f`. -/
def modify (t : Table K V) (k : K) (f : V → V) : Table K V :=
  match t.lookup k with
  | some v => t.insert k (f v)
  | none => t

theorem lookup_modify (t : Table K V) (k j : K) (f : V → V) :
    (t.modify k f).lookup j = if j = k then (t.lookup j).map f else t.lookup j := by
  unfold modify
  by_cases here : j = k
  · subst here
    cases found : t.lookup j with
    | none => simp [found]
    | some v => simp
  · rw [if_neg here]
    split
    · rw [lookup_insert, if_neg here]
    · rfl

/-- What every row keeps is kept by a change of one row that keeps it. -/
theorem map_modify {W : Type} (t : Table K V) (k j : K) (f : V → V) {g : V → W}
    (kept : ∀ v, g (f v) = g v) : ((t.modify k f).lookup j).map g = (t.lookup j).map g := by
  rw [lookup_modify]
  split
  · rw [Option.map_map]
    exact congrArg (fun h => (t.lookup j).map h) (funext kept)
  · rfl

/-- Every row of the table satisfies `P`. -/
def All (t : Table K V) (P : K → V → Prop) : Prop := ∀ k v, t.lookup k = some v → P k v

theorem All.empty (P : K → V → Prop) : All (∅ : Table K V) P := by
  intro k v h
  rw [AList.lookup_empty] at h
  cases h

theorem All.insert {P : K → V → Prop} {t : Table K V} (h : All t P) {k : K} {v : V} (hv : P k v) :
    All (t.insert k v) P := by
  intro j u hu
  obtain ⟨rfl, rfl⟩ | ⟨-, old⟩ := of_lookup_insert hu
  · exact hv
  · exact h j u old

theorem All.erase {P : K → V → Prop} {t : Table K V} (h : All t P) (k : K) : All (t.erase k) P := by
  intro j u hu
  exact h j u (of_lookup_erase hu).2

/-- The weight of the row at `k`, zero when there is none. -/
def weightAt (f : K → V → Int) (t : Table K V) (k : K) : Int :=
  (t.lookup k).elim 0 (f k)

theorem weightAt_some {f : K → V → Int} {t : Table K V} {k : K} {v : V}
    (h : t.lookup k = some v) : weightAt f t k = f k v := by
  simp [weightAt, h]

theorem weightAt_none {f : K → V → Int} {t : Table K V} {k : K}
    (h : t.lookup k = none) : weightAt f t k = 0 := by
  simp [weightAt, h]

theorem total_erase (f : K → V → Int) (t : Table K V) (k : K) :
    total f (t.erase k) = total f t - weightAt f t k := by
  obtain ⟨l, nd⟩ := t
  show ((l.kerase k).map fun e => f e.1 e.2).sum =
    (l.map fun e => f e.1 e.2).sum - (l.dlookup k).elim 0 (f k)
  clear nd
  induction l with
  | nil => simp
  | cons e l ih =>
    obtain ⟨j, v⟩ := e
    by_cases h : k = j
    · subst h; simp
    · rw [List.kerase_cons_ne h, List.dlookup_cons_ne _ _ h]
      simp only [List.map_cons, List.sum_cons, ih]
      ring

theorem total_insert (f : K → V → Int) (t : Table K V) (k : K) (v : V) :
    total f (t.insert k v) = total f t - weightAt f t k + f k v := by
  have rows : (t.insert k v).entries = ⟨k, v⟩ :: (t.erase k).entries := AList.entries_insert
  have rest : ((t.erase k).entries.map fun e => f e.1 e.2).sum = total f t - weightAt f t k :=
    total_erase f t k
  rw [total, rows, List.map_cons, List.sum_cons, rest]
  ring

/-- Tables with the same rows have the same totals. -/
theorem total_eq_of_lookup (f : K → V → Int) {t t' : Table K V}
    (h : ∀ k, t'.lookup k = t.lookup k) : total f t' = total f t := by
  have perm : t'.entries.Perm t.entries := by
    refine List.lookup_ext t'.nodupKeys t.nodupKeys fun k v => ?_
    have := h k
    simp only [AList.lookup] at this
    rw [this]
  exact (perm.map _).sum_eq

/-- A total over some of the keys sees only the rows there. -/
theorem total_agree (f : K → V → Int) (p : K → Prop) [DecidablePred p] {t t' : Table K V}
    (h : ∀ k, p k → t'.lookup k = t.lookup k) :
    total (fun k v => if p k then f k v else 0) t' =
      total (fun k v => if p k then f k v else 0) t := by
  have rows (t : Table K V) : total (fun k v => if p k then f k v else 0) t =
      ((t.entries.filter fun e => decide (p e.1)).map fun e => f e.1 e.2).sum := by
    rw [← total_filter f fun k => decide (p k)]
    simp only [decide_eq_true_eq]
  rw [rows, rows]
  have nodup (t : Table K V) : (t.entries.filter fun e => decide (p e.1)).Nodup :=
    t.nodupKeys.nodup.filter _
  refine (((List.perm_ext_iff_of_nodup (nodup t') (nodup t)).mpr fun e => ?_).map _).sum_eq
  simp only [List.mem_filter, decide_eq_true_eq]
  refine and_congr_left fun hp => ?_
  obtain ⟨k, v⟩ := e
  rw [← lookup_iff_mem, ← lookup_iff_mem, h k hp]

/-- Changing one key moves a total by the rows at that key. -/
theorem total_move (f : K → V → Int) {t t' : Table K V} {k : K}
    (h : ∀ j, j ≠ k → t'.lookup j = t.lookup j) :
    total f t' = total f t - weightAt f t k + weightAt f t' k := by
  cases new : t'.lookup k with
  | none =>
    have same : ∀ j, t'.lookup j = (t.erase k).lookup j := by
      intro j
      rw [lookup_erase]
      split
      · rename_i hj
        rw [hj, new]
      · rename_i hj
        exact h j hj
    rw [total_eq_of_lookup f same, total_erase, weightAt_none new]
    ring
  | some v =>
    have same : ∀ j, t'.lookup j = (t.insert k v).lookup j := by
      intro j
      rw [lookup_insert]
      split
      · rename_i hj
        rw [hj, new]
      · rename_i hj
        exact h j hj
    rw [total_eq_of_lookup f same, total_insert, weightAt_some new]

theorem total_congr {f g : K → V → Int} {t : Table K V}
    (h : ∀ k v, t.lookup k = some v → f k v = g k v) : total f t = total g t := by
  refine congrArg List.sum (List.map_congr_left fun e he => ?_)
  exact h e.1 e.2 ((lookup_iff_mem t e.1 e.2).mpr he)

theorem total_le {f g : K → V → Int} {t : Table K V}
    (h : ∀ k v, t.lookup k = some v → f k v ≤ g k v) : total f t ≤ total g t := by
  apply List.sum_le_sum
  intro e he
  exact h e.1 e.2 ((lookup_iff_mem t e.1 e.2).mpr he)

theorem total_zero {f : K → V → Int} {t : Table K V}
    (h : ∀ k v, t.lookup k = some v → f k v = 0) : total f t = 0 := by
  rw [total_congr h]
  simp [total]

theorem total_nonneg {f : K → V → Int} {t : Table K V}
    (h : ∀ k v, t.lookup k = some v → 0 ≤ f k v) : 0 ≤ total f t := by
  have bound := total_le h
  rwa [total_zero fun _ _ _ => rfl] at bound

/-- One weight of a table is no more than all of them. -/
theorem weightAt_le_total {f : K → V → Int} {t : Table K V}
    (h : ∀ k v, t.lookup k = some v → 0 ≤ f k v) (k : K) : weightAt f t k ≤ total f t := by
  have rest : 0 ≤ total f (t.erase k) := total_nonneg fun j v hj => h j v (of_lookup_erase hj).2
  rw [total_erase] at rest
  omega

/-- A total over one key is the weight there. -/
theorem total_single (f : K → V → Int) (t : Table K V) (k : K) :
    total (fun j v => if j = k then f j v else 0) t = weightAt f t k := by
  have erased := total_erase (fun j v => if j = k then f j v else 0) t k
  have zero : total (fun j v => if j = k then f j v else 0) (t.erase k) = 0 := by
    refine total_zero fun j v hj => ?_
    rw [lookup_erase] at hj
    split at hj
    · cases hj
    · rename_i other
      exact if_neg other
  have here : weightAt (fun j v => if j = k then f j v else 0) t k = weightAt f t k := by
    unfold weightAt
    cases t.lookup k <;> simp
  omega

end Table

end DecentralBank
