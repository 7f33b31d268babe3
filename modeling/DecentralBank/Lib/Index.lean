import Mathlib.Order.Lattice

/-!
# Secondary indices

An index orders rows by a key, and `lower_bound` finds the first row whose key
is a bound or more. A loop over the rows finds it too, if each turn takes in
its row as one of `pass`, `take` and `keep` does.
-/

namespace DecentralBank

variable {T κ : Type} [LinearOrder κ]

/-- What is found among the rows: none that is at the bound or above, or the least. -/
def First (key : T → κ) (bound : κ) (rows : List T) (found : Option T) : Prop :=
  found.elim (∀ row ∈ rows, key row < bound) fun best =>
    best ∈ rows ∧ bound ≤ key best ∧ ∀ row ∈ rows, bound ≤ key row → key best ≤ key row

variable {key : T → κ} {bound : κ} {rows : List T} {best : Option T} {row b : T}

namespace First

theorem start : First key bound [] none := nofun

theorem pass (h : First key bound rows best) (below : key row < bound) :
    First key bound (rows ++ [row]) best := by
  cases best with
  | none => exact List.forall_mem_append.mpr ⟨h, List.forall_mem_singleton.mpr below⟩
  | some b =>
    obtain ⟨among, above, least⟩ := h
    refine ⟨List.mem_append_left _ among, above, List.forall_mem_append.mpr ⟨least, ?_⟩⟩
    exact List.forall_mem_singleton.mpr fun high => absurd below (not_lt.mpr high)

theorem take (h : First key bound rows best) (above : bound ≤ key row)
    (less : ∀ b, best = some b → key row ≤ key b) : First key bound (rows ++ [row]) (some row) := by
  refine ⟨List.mem_append_right _ (List.mem_singleton_self row), above,
    List.forall_mem_append.mpr ⟨fun r among high => ?_,
      List.forall_mem_singleton.mpr fun _ => le_rfl⟩⟩
  cases best with
  | none => exact absurd (h r among) (not_lt.mpr high)
  | some b => exact (less b rfl).trans (h.2.2 r among high)

theorem keep (h : First key bound rows (some b)) (less : key b ≤ key row) :
    First key bound (rows ++ [row]) (some b) := by
  obtain ⟨among, above, least⟩ := h
  refine ⟨List.mem_append_left _ among, above, List.forall_mem_append.mpr ⟨least, ?_⟩⟩
  exact List.forall_mem_singleton.mpr fun _ => less

end First

/-- The loop finds the first of the rows that its entries stand for. -/
theorem foldl_first {S : Type} {take : S → T} {turn : Option T → S → Option T}
    (turns : ∀ rows best e, First key bound rows best →
        First key bound (rows ++ [take e]) (turn best e))
    (entries : List S) : First key bound (entries.map take) (entries.foldl turn none) := by
  have later : ∀ seen best, First key bound seen best →
      First key bound (seen ++ entries.map take) (entries.foldl turn best) := by
    induction entries with
    | nil =>
      intro seen best h
      rwa [List.map_nil, List.append_nil]
    | cons e entries ih =>
      intro seen best h
      rw [List.map_cons, List.append_cons, List.foldl_cons]
      exact ih _ _ (turns seen best e h)
  exact later [] none First.start

end DecentralBank
