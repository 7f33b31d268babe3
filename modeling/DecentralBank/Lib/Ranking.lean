import Mathlib.Data.List.Sort
import Mathlib.Data.List.TakeWhile

/-!
# The first of a ranking

A list is ranked by a comparison, and its first rows are taken while they
qualify, up to a number. The comparison need be total and transitive on the
rows of the list only (`Ranks`). A row that qualifies is left out for one of
two reasons (`of_not_mem_leading`): there is no more room, or a row that does
not qualify comes before it.
-/

namespace DecentralBank.Ranking

variable {α : Type}

/-- What `before` has to be on the rows of `l`. -/
structure Ranks (before : α → α → Prop) (l : List α) : Prop where
  total : ∀ a ∈ l, ∀ b ∈ l, before a b ∨ before b a
  trans : ∀ a ∈ l, ∀ b ∈ l, ∀ c ∈ l, before a b → before b c → before a c

variable {before : α → α → Prop} {l : List α} {a x : α}

theorem Ranks.mono {l' : List α} (h : Ranks before l) (fewer : ∀ a ∈ l', a ∈ l) :
    Ranks before l' :=
  ⟨fun a ha b hb => h.total a (fewer a ha) b (fewer b hb),
    fun a ha b hb c hc => h.trans a (fewer a ha) b (fewer b hb) c (fewer c hc)⟩

/-- Each row comes before those that are dropped. -/
theorem before_of_take {m : Nat} {b : α} (sorted : l.Pairwise before) (taken : a ∈ l.take m)
    (dropped : b ∈ l.drop m) : before a b := by
  rw [← List.take_append_drop m l] at sorted
  exact (List.pairwise_append.mp sorted).2.2 a taken b dropped

variable [DecidableRel before]

theorem Ranks.pairwise_orderedInsert (h : Ranks before (a :: l)) (sorted : l.Pairwise before) :
    (l.orderedInsert before a).Pairwise before := by
  induction l with
  | nil => simp
  | cons b l ih =>
    have inA : a ∈ a :: b :: l := List.mem_cons_self
    have inB : b ∈ a :: b :: l := List.mem_cons_of_mem _ List.mem_cons_self
    have inL : ∀ c ∈ l, c ∈ a :: b :: l := fun c hc =>
      List.mem_cons_of_mem _ (List.mem_cons_of_mem _ hc)
    obtain ⟨first, rest⟩ := List.pairwise_cons.mp sorted
    rw [List.orderedInsert_cons]
    split
    · rename_i less
      refine List.pairwise_cons.mpr ⟨fun c hc => ?_, sorted⟩
      rcases List.mem_cons.mp hc with rfl | later
      · exact less
      · exact h.trans a inA b inB c (inL c later) less (first c later)
    · rename_i more
      have under : before b a := (h.total a inA b inB).resolve_left more
      refine List.pairwise_cons.mpr ⟨fun c hc => ?_, ih (h.mono fun c hc => ?_) rest⟩
      · rcases (List.mem_orderedInsert before).mp hc with rfl | later
        · exact under
        · exact first c later
      · rcases List.mem_cons.mp hc with rfl | later
        · exact inA
        · exact inL c later

/-- The list in the order of the ranking. -/
theorem Ranks.pairwise_insertionSort (h : Ranks before l) :
    (l.insertionSort before).Pairwise before := by
  induction l with
  | nil => simp
  | cons a l ih =>
    rw [List.insertionSort_cons]
    refine Ranks.pairwise_orderedInsert (h.mono fun c hc => ?_)
      (ih (h.mono fun c hc => List.mem_cons_of_mem _ hc))
    rcases List.mem_cons.mp hc with rfl | later
    · exact List.mem_cons_self
    · exact List.mem_cons_of_mem _ ((List.mem_insertionSort before).mp later)

/-- The first rows of the ranking, up to `n`, as long as they qualify. -/
def leading (before : α → α → Prop) [DecidableRel before] (ok : α → Bool) (n : Nat)
    (l : List α) : List α :=
  ((l.insertionSort before).takeWhile ok).take n

variable {ok : α → Bool} {n : Nat}

theorem length_leading_le : (leading before ok n l).length ≤ n := List.length_take_le _ _

theorem leading_sublist : (leading before ok n l).Sublist (l.insertionSort before) :=
  (List.take_sublist _ _).trans (List.takeWhile_sublist _)

theorem of_mem_leading (h : x ∈ leading before ok n l) : x ∈ l ∧ ok x = true := by
  refine ⟨(List.mem_insertionSort before).mp (leading_sublist.subset h), ?_⟩
  exact List.mem_takeWhile_imp (List.mem_of_mem_take h)

theorem of_not_mem_leading (h : Ranks before l) (among : x ∈ l) (qualifies : ok x = true)
    (out : x ∉ leading before ok n l) :
    ((leading before ok n l).length = n ∧ ∀ a ∈ leading before ok n l, before a x) ∨
      ∃ a ∈ l, ok a = false ∧ before a x := by
  have sorted := h.pairwise_insertionSort
  have ranked : x ∈ l.insertionSort before := (List.mem_insertionSort before).mpr among
  rw [← List.takeWhile_append_dropWhile (p := ok) (l := l.insertionSort before)] at ranked sorted
  obtain ⟨kept, rest, ahead⟩ := List.pairwise_append.mp sorted
  rcases List.mem_append.mp ranked with within | beyond
  · left
    rw [← List.take_append_drop n ((l.insertionSort before).takeWhile ok)] at within
    have dropped := (List.mem_append.mp within).resolve_left out
    have long : n < ((l.insertionSort before).takeWhile ok).length := by
      have some := List.length_pos_of_mem dropped
      rw [List.length_drop] at some
      omega
    refine ⟨by rw [leading, List.length_take]; omega, fun a taken => ?_⟩
    exact before_of_take kept taken dropped
  · right
    cases stopped : (l.insertionSort before).dropWhile ok with
    | nil =>
      rw [stopped] at beyond
      cases beyond
    | cons a later =>
      rw [stopped] at beyond rest
      have fails : ok a = false := by
        have some : (l.insertionSort before).dropWhile ok ≠ [] := by
          rw [stopped]
          exact List.cons_ne_nil _ _
        have first := List.head_dropWhile_not ok some
        simp only [stopped, List.head_cons] at first
        exact first
      have row : a ∈ l := by
        have kept : a ∈ (l.insertionSort before).dropWhile ok := by
          rw [stopped]
          exact List.mem_cons_self
        exact (List.mem_insertionSort before).mp ((List.dropWhile_sublist ok).subset kept)
      refine ⟨a, row, fails, ?_⟩
      rcases List.mem_cons.mp beyond with rfl | after
      · cases fails.symm.trans qualifies
      · exact (List.pairwise_cons.mp rest).1 x after

end DecentralBank.Ranking
