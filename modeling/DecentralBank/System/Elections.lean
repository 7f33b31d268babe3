import DecentralBank.Lib.Ranking
import DecentralBank.System.Pay

/-!
# The schedule of producers

`update_elected_producers` of `voting.cpp`. The index of the producers is
ordered by doubles; of these it is asked that numbers be ordered, and the index
holds no other keys.
-/

namespace DecentralBank.System

open Ranking

variable {D : Type}

/-- `eosio::producer_key`. -/
structure ProducerKey where
  producerName : Name
  blockSigningKey : PublicKey
  deriving DecidableEq

/-- The key of a row in the index `prototalvote`. -/
def ProducerInfo.byVotes (fp : Doubles D) (p : ProducerInfo D) : D :=
  if p.isActive then fp.neg p.totalVotes else p.totalVotes

/-- The order of the index. Rows with the same key stand in the order of their names. -/
def Precedes (fp : Doubles D) (a b : Name × ProducerInfo D) : Prop :=
  fp.lt (a.2.byVotes fp) (b.2.byVotes fp) = true ∨
    (fp.lt (b.2.byVotes fp) (a.2.byVotes fp) = false ∧ a.1.value ≤ b.1.value)

instance (fp : Doubles D) : DecidableRel (Precedes fp) := fun a b =>
  inferInstanceAs (Decidable (fp.lt (a.2.byVotes fp) (b.2.byVotes fp) = true ∨
    (fp.lt (b.2.byVotes fp) (a.2.byVotes fp) = false ∧ a.1.value ≤ b.1.value)))

/-- The condition of the loop over the index. -/
def electable (fp : Doubles D) (row : Name × ProducerInfo D) : Bool :=
  fp.lt fp.zero row.2.totalVotes && row.2.isActive

def producerRows (producers : Table Name (ProducerInfo D)) : List (Name × ProducerInfo D) :=
  producers.entries.map fun e => (e.1, e.2)

def topProducers (fp : Doubles D) (producers : Table Name (ProducerInfo D)) :
    List (Name × ProducerInfo D) :=
  leading (Precedes fp) (electable fp) 21 (producerRows producers)

/-- The producers sorted by their names. -/
def packSchedule (top : List (Name × ProducerInfo D)) : List ProducerKey :=
  (top.insertionSort fun a b => a.1.value ≤ b.1.value).map fun row => ⟨row.1, row.2.producerKey⟩

/-- The schedule is proposed to the chain, which takes it if `accepts` says so. -/
def updateElectedProducers (fp : Doubles D) (accepts : List ProducerKey → Bool) (e : Election D)
    (slot : Nat) : Election D × Option (List ProducerKey) :=
  let e := { e with gstate := { e.gstate with lastProducerScheduleUpdate := slot } }
  let top := topProducers fp e.producers
  if top.length < e.gstate.lastProducerScheduleSize then (e, none)
  else
    let schedule := packSchedule top
    if accepts schedule then
      ({ e with gstate := { e.gstate with lastProducerScheduleSize := top.length % 2 ^ 16 } },
        some schedule)
    else (e, none)

/-! ## Numbers -/

/-- Only what is no number is not at most itself. -/
def Doubles.isNumber (fp : Doubles D) (x : D) : Bool := fp.le x x

/-- Numbers are ordered, and `-` turns their order round. -/
structure Doubles.Ordered (fp : Doubles D) : Prop where
  zero : fp.isNumber fp.zero = true
  neg : ∀ x, fp.isNumber x = true → fp.isNumber (fp.neg x) = true
  asymm : ∀ x y, fp.isNumber x = true → fp.isNumber y = true → fp.lt x y = true → fp.lt y x = false
  cotrans : ∀ x y z, fp.isNumber x = true → fp.isNumber y = true → fp.isNumber z = true →
    fp.lt x y = true → fp.lt x z = true ∨ fp.lt z y = true
  neg_lt_neg : ∀ x y, fp.isNumber x = true → fp.isNumber y = true →
    fp.lt (fp.neg x) (fp.neg y) = fp.lt y x
  neg_of_pos : ∀ x, fp.isNumber x = true → fp.lt fp.zero x = true → fp.lt (fp.neg x) fp.zero = true

/-- The votes of all producers are numbers. -/
def Numbered (fp : Doubles D) (producers : Table Name (ProducerInfo D)) : Prop :=
  producers.All fun _ p => fp.isNumber p.totalVotes = true

variable {fp : Doubles D} {producers : Table Name (ProducerInfo D)}

theorem mem_producerRows {name : Name} {p : ProducerInfo D} :
    (name, p) ∈ producerRows producers ↔ producers.lookup name = some p := by
  simp [producerRows, Table.lookup_iff_mem]

theorem Numbered.byVotes (ordered : fp.Ordered) (numbered : Numbered fp producers)
    {row : Name × ProducerInfo D} (among : row ∈ producerRows producers) :
    fp.isNumber (row.2.byVotes fp) = true := by
  have number := numbered row.1 row.2 (mem_producerRows.mp among)
  unfold ProducerInfo.byVotes
  split
  · exact ordered.neg _ number
  · exact number

theorem Numbered.ranks (ordered : fp.Ordered) (numbered : Numbered fp producers) :
    Ranks (Precedes fp) (producerRows producers) where
  total a ha b hb := by
    have numA := numbered.byVotes ordered ha
    have numB := numbered.byVotes ordered hb
    unfold Precedes
    cases less : fp.lt (a.2.byVotes fp) (b.2.byVotes fp) with
    | true => exact Or.inl (Or.inl rfl)
    | false =>
      cases more : fp.lt (b.2.byVotes fp) (a.2.byVotes fp) with
      | true => exact Or.inr (Or.inl rfl)
      | false =>
        exact (Nat.le_total a.1.value b.1.value).imp (fun h => Or.inr ⟨rfl, h⟩)
          fun h => Or.inr ⟨rfl, h⟩
  trans a ha b hb c hc ab bc := by
    have numA := numbered.byVotes ordered ha
    have numB := numbered.byVotes ordered hb
    have numC := numbered.byVotes ordered hc
    unfold Precedes at *
    rcases ab with less | ⟨same, first⟩
    · left
      refine (ordered.cotrans _ _ _ numA numB numC less).resolve_right fun back => ?_
      rcases bc with next | ⟨notBack, -⟩
      · cases (ordered.asymm _ _ numB numC next).symm.trans back
      · cases notBack.symm.trans back
    · rcases bc with less | ⟨same', next⟩
      · left
        refine (ordered.cotrans _ _ _ numB numC numA less).resolve_left fun back => ?_
        cases same.symm.trans back
      · right
        refine ⟨Bool.eq_false_iff.mpr fun back => ?_, first.trans next⟩
        rcases ordered.cotrans _ _ _ numC numA numB back with h | h
        · cases same'.symm.trans h
        · cases same.symm.trans h

/-! ## What is elected -/

/-- A schedule of the registered producers with the most votes. Of those that have as many the one
with the lesser name is scheduled. The last case is a defect of the index: the votes of a producer
that is no longer registered count with their sign. -/
structure Elected (fp : Doubles D) (producers : Table Name (ProducerInfo D))
    (schedule : List ProducerKey) : Prop where
  sorted : schedule.Pairwise fun a b => a.producerName.value < b.producerName.value
  atMost : schedule.length ≤ 21
  registered : ∀ k ∈ schedule, ∃ p, producers.lookup k.producerName = some p ∧
    p.isActive = true ∧ fp.lt fp.zero p.totalVotes = true ∧ k.blockSigningKey = p.producerKey
  best : Numbered fp producers → ∀ name p, producers.lookup name = some p → p.isActive = true →
    fp.lt fp.zero p.totalVotes = true → (∀ k ∈ schedule, k.producerName ≠ name) →
      (schedule.length = 21 ∧ ∀ k ∈ schedule, ∀ q, producers.lookup k.producerName = some q →
        fp.lt p.totalVotes q.totalVotes = true ∨ (fp.lt q.totalVotes p.totalVotes = false ∧
          k.producerName.value ≤ name.value)) ∨
      ∃ other q, producers.lookup other = some q ∧ q.isActive = false ∧
        fp.lt q.totalVotes fp.zero = true

theorem mem_packSchedule {top : List (Name × ProducerInfo D)} {k : ProducerKey} :
    k ∈ packSchedule top ↔ ∃ p, (k.producerName, p) ∈ top ∧ k.blockSigningKey = p.producerKey := by
  simp only [packSchedule, List.mem_map, List.mem_insertionSort, Prod.exists]
  constructor
  · rintro ⟨name, p, among, rfl⟩
    exact ⟨p, among, rfl⟩
  · rintro ⟨p, among, same⟩
    exact ⟨_, p, among, by rw [← same]⟩

theorem length_packSchedule (top : List (Name × ProducerInfo D)) :
    (packSchedule top).length = top.length := by
  rw [packSchedule, List.length_map, List.length_insertionSort]

/-- Names that differ are sorted strictly. -/
theorem packSchedule_sorted {top : List (Name × ProducerInfo D)}
    (distinct : (top.map Prod.fst).Nodup) :
    (packSchedule top).Pairwise fun a b => a.producerName.value < b.producerName.value := by
  have ranks : Ranks (fun a b : Name × ProducerInfo D => a.1.value ≤ b.1.value) top :=
    ⟨fun a _ b _ => Nat.le_total _ _, fun a _ b _ c _ => Nat.le_trans⟩
  have sorted := ranks.pairwise_insertionSort
  have apart : (top.insertionSort fun a b => a.1.value ≤ b.1.value).Pairwise
      fun a b => a.1 ≠ b.1 := by
    have perm := List.perm_insertionSort
      (fun a b : Name × ProducerInfo D => a.1.value ≤ b.1.value) top
    exact List.pairwise_map.mp ((perm.map Prod.fst).nodup_iff.mpr distinct)
  rw [packSchedule, List.pairwise_map]
  refine (sorted.and apart).imp fun {a b} h => lt_of_le_of_ne h.1 fun same => h.2 ?_
  exact congrArg Name.mk same

theorem producerRows_distinct (producers : Table Name (ProducerInfo D)) :
    ((producerRows producers).map Prod.fst).Nodup := by
  simp only [producerRows, List.map_map]
  exact producers.nodupKeys

theorem topProducers_distinct (fp : Doubles D) (producers : Table Name (ProducerInfo D)) :
    ((topProducers fp producers).map Prod.fst).Nodup := by
  have perm := List.perm_insertionSort (Precedes fp) (producerRows producers)
  have all := (perm.map Prod.fst).nodup_iff.mpr (producerRows_distinct producers)
  exact all.sublist (leading_sublist.map Prod.fst)

theorem mem_topProducers {name : Name} {p : ProducerInfo D}
    (h : (name, p) ∈ topProducers fp producers) :
    producers.lookup name = some p ∧ p.isActive = true ∧ fp.lt fp.zero p.totalVotes = true := by
  obtain ⟨among, ok⟩ := of_mem_leading h
  simp only [electable, Bool.and_eq_true] at ok
  exact ⟨mem_producerRows.mp among, ok.2, ok.1⟩

/-- What comes before a registered producer with votes, and is not electable, is not registered and
has votes below zero. -/
theorem Precedes.stopped (ordered : fp.Ordered) (numbered : Numbered fp producers)
    {name other : Name} {p q : ProducerInfo D} (found : producers.lookup name = some p)
    (active : p.isActive = true) (voted : fp.lt fp.zero p.totalVotes = true)
    (there : producers.lookup other = some q) (fails : electable fp (other, q) = false)
    (before : Precedes fp (other, q) (name, p)) :
    q.isActive = false ∧ fp.lt q.totalVotes fp.zero = true := by
  have numP := numbered _ _ found
  have numQ := numbered _ _ there
  have negative := ordered.neg_of_pos _ numP voted
  simp only [electable, Bool.and_eq_false_iff] at fails
  unfold Precedes ProducerInfo.byVotes at before
  simp only [active, if_true] at before
  cases on : q.isActive with
  | true =>
    have none : fp.lt fp.zero q.totalVotes = false := fails.resolve_right (by simp [on])
    have less : fp.lt q.totalVotes p.totalVotes = true := by
      refine (ordered.cotrans _ _ _ ordered.zero numP numQ voted).resolve_left fun some => ?_
      cases none.symm.trans some
    simp only [on, if_true, ordered.neg_lt_neg _ _ numP numQ,
      ordered.neg_lt_neg _ _ numQ numP] at before
    rcases before with more | ⟨notLess, -⟩
    · cases (ordered.asymm _ _ numQ numP less).symm.trans more
    · cases notLess.symm.trans less
  | false =>
    refine ⟨rfl, ?_⟩
    have numNeg := ordered.neg _ numP
    simp only [on, Bool.false_eq_true, if_false] at before
    have between := ordered.cotrans _ _ _ numNeg ordered.zero numQ negative
    rcases before with less | ⟨notLess, -⟩
    · exact between.resolve_left fun back => by
        cases (ordered.asymm _ _ numQ numNeg less).symm.trans back
    · exact between.resolve_left fun back => by
        cases notLess.symm.trans back

theorem packSchedule_elected (ordered : fp.Ordered) (producers : Table Name (ProducerInfo D)) :
    Elected fp producers (packSchedule (topProducers fp producers)) where
  sorted := packSchedule_sorted (topProducers_distinct fp producers)
  atMost := by
    rw [length_packSchedule]
    exact length_leading_le
  registered k hk := by
    obtain ⟨p, among, key⟩ := mem_packSchedule.mp hk
    obtain ⟨found, active, voted⟩ := mem_topProducers among
    exact ⟨p, found, active, voted, key⟩
  best numbered name p found active voted out := by
    have ranks := numbered.ranks ordered
    have unranked : (name, p) ∉ topProducers fp producers := fun among =>
      out ⟨name, p.producerKey⟩ (mem_packSchedule.mpr ⟨p, among, rfl⟩) rfl
    have ok : electable fp (name, p) = true := by
      simp only [electable, voted, active, Bool.and_self]
    rw [length_packSchedule]
    rcases of_not_mem_leading ranks (mem_producerRows.mpr found) ok unranked with
      ⟨full, ahead⟩ | ⟨⟨other, q⟩, among, fails, before⟩
    · refine Or.inl ⟨full, fun k hk q there => ?_⟩
      obtain ⟨q', taken, -⟩ := mem_packSchedule.mp hk
      obtain ⟨found', active', -⟩ := mem_topProducers taken
      cases there.symm.trans found'
      have numP := numbered _ _ found
      have numQ := numbered _ _ there
      have before := ahead _ taken
      unfold Precedes ProducerInfo.byVotes at before
      simp only [active, active', if_true, ordered.neg_lt_neg _ _ numP numQ,
        ordered.neg_lt_neg _ _ numQ numP] at before
      exact before
    · obtain ⟨inactive, below⟩ := before.stopped ordered numbered found active voted
        (mem_producerRows.mp among) fails
      exact Or.inr ⟨other, q, mem_producerRows.mp among, inactive, below⟩

end DecentralBank.System
