import DecentralBank.Lib.Table

/-!
# Ledgers

A ledger is a table whose rows carry an amount under a label that a row keeps
for life. Every change to it is a list of postings, each of which opens a row
or moves the amount of a row with its own label. Sums over a ledger, and facts
about the labels in it, are read off the postings.
-/

namespace DecentralBank

/-- An amount, of either sign, put to the row at `key` under `label`. -/
structure Posting (K L : Type) where
  key : K
  label : L
  amount : Int

namespace Ledger

variable {K L V : Type} [DecidableEq K] (label : V → L) (amount : V → Int)

/-- The amount at a key, zero when it has no row. -/
def held (t : Table K V) (k : K) : Int := t.weightAt (fun _ v => amount v) k

/-- The amounts of a ledger, each weighted by its key and label. -/
def weigh (W : K → L → Int) (t : Table K V) : Int :=
  t.total fun k v => W k (label v) * amount v

/-- `Posted t ps t'`: the postings `ps`, in order, turn `t` into `t'`. -/
inductive Posted : Table K V → List (Posting K L) → Table K V → Prop
  | nil (t : Table K V) : Posted t [] t
  | post {t t' : Table K V} {p : Posting K L} {ps : List (Posting K L)} {v : V}
      (same : ∀ u, t.lookup p.key = some u → label u = p.label)
      (labelled : label v = p.label) (sum : amount v = held amount t p.key + p.amount)
      (rest : Posted (t.insert p.key v) ps t') : Posted t (p :: ps) t'

variable {label amount}

theorem held_some {t : Table K V} {k : K} {v : V} (h : t.lookup k = some v) :
    held amount t k = amount v := Table.weightAt_some h

theorem held_none {t : Table K V} {k : K} (h : t.lookup k = none) :
    held amount t k = 0 := Table.weightAt_none h

theorem held_insert (t : Table K V) (k j : K) (v : V) :
    held amount (t.insert k v) j = if j = k then amount v else held amount t j := by
  simp only [held, Table.weightAt, Table.lookup_insert]
  split <;> rfl

theorem held_erase (t : Table K V) (k j : K) :
    held amount (t.erase k) j = if j = k then 0 else held amount t j := by
  simp only [held, Table.weightAt, Table.lookup_erase]
  split <;> rfl

theorem weigh_insert (W : K → L → Int) (t : Table K V) (k : K) (v : V)
    (same : ∀ u, t.lookup k = some u → label u = label v) :
    weigh label amount W (t.insert k v) =
      weigh label amount W t + W k (label v) * (amount v - held amount t k) := by
  rw [weigh, Table.total_insert, ← weigh]
  cases h : t.lookup k with
  | none => rw [Table.weightAt_none h, held_none h]; ring
  | some u => rw [Table.weightAt_some h, held_some h, same u h]; ring

/-- A change by `d` of the amount at one key moves the sum over every set of keys
with that key in it. -/
theorem total_shift {t t' : Table K V} {k : K} {d : Int}
    (elsewhere : ∀ j, j ≠ k → t'.lookup j = t.lookup j)
    (here : held amount t' k = held amount t k + d) (p : K → Prop) [DecidablePred p] :
    t'.total (fun j v => if p j then amount v else 0) =
      t.total (fun j v => if p j then amount v else 0) + if p k then d else 0 := by
  have weight (t : Table K V) : t.weightAt (fun j v => if p j then amount v else 0) k =
      if p k then held amount t k else 0 := by
    unfold held Table.weightAt
    cases t.lookup k <;> simp
  rw [Table.total_move _ elsewhere, weight, weight, here]
  split
  · ring
  · ring

namespace Posted

theorem single {t : Table K V} {p : Posting K L} {v : V}
    (same : ∀ u, t.lookup p.key = some u → label u = p.label)
    (labelled : label v = p.label) (sum : amount v = held amount t p.key + p.amount) :
    Posted label amount t [p] (t.insert p.key v) :=
  post same labelled sum (nil _)

theorem append {a b c : Table K V} {ps qs : List (Posting K L)}
    (h : Posted label amount a ps b) (g : Posted label amount b qs c) :
    Posted label amount a (ps ++ qs) c := by
  induction h with
  | nil => exact g
  | post same labelled sum _ ih => exact post same labelled sum (ih g)

theorem of_single {t t' : Table K V} {p : Posting K L} (h : Posted label amount t [p] t') :
    ∃ v, t' = t.insert p.key v ∧ label v = p.label ∧ amount v = held amount t p.key + p.amount ∧
      ∀ u, t.lookup p.key = some u → label u = p.label := by
  cases h with
  | post same labelled sum rest =>
    cases rest
    exact ⟨_, rfl, labelled, sum, same⟩

/-- A weighted sum moves by the weighted postings. -/
theorem weigh_eq (W : K → L → Int) {t t' : Table K V} {ps : List (Posting K L)}
    (h : Posted label amount t ps t') :
    weigh label amount W t' =
      weigh label amount W t + (ps.map fun p => W p.key p.label * p.amount).sum := by
  induction h with
  | nil => simp
  | @post t _ p _ v same labelled sum _ ih =>
    have kept : ∀ u, t.lookup p.key = some u → label u = label v := fun u hu => by
      rw [same u hu, labelled]
    rw [ih, weigh_insert W t p.key v kept, labelled, sum, List.map_cons, List.sum_cons]
    ring

/-- A total of amounts, weighted by keys and labels, moves by the weighted postings. -/
theorem total_eq (W : K → L → Int) {f : K → V → Int}
    (weighted : ∀ k v, f k v = W k (label v) * amount v) {t t' : Table K V}
    {ps : List (Posting K L)} (h : Posted label amount t ps t') :
    t'.total f = t.total f + (ps.map fun p => W p.key p.label * p.amount).sum := by
  have sums (t : Table K V) : t.total f = weigh label amount W t :=
    Table.total_congr fun k v _ => weighted k v
  rw [sums, sums, h.weigh_eq]

/-- The amount at a key moves by the postings to that key. -/
theorem held_eq {t t' : Table K V} {ps : List (Posting K L)}
    (h : Posted label amount t ps t') (k : K) :
    held amount t' k =
      held amount t k + (ps.map fun p => if k = p.key then p.amount else 0).sum := by
  induction h with
  | nil => simp
  | @post t _ p _ v same labelled sum _ ih =>
    rw [ih, held_insert, List.map_cons, List.sum_cons]
    by_cases hk : k = p.key
    · rw [if_pos hk, if_pos hk, sum, hk]; ring
    · rw [if_neg hk, if_neg hk]; ring

/-- Every row of the new ledger stood in the old one under the same label or
has a posting with its label. -/
theorem origin {t t' : Table K V} {ps : List (Posting K L)}
    (h : Posted label amount t ps t') {k : K} {v : V} (hv : t'.lookup k = some v) :
    (∃ u, t.lookup k = some u ∧ label u = label v) ∨
      ∃ p ∈ ps, p.key = k ∧ p.label = label v := by
  induction h with
  | nil => exact Or.inl ⟨v, hv, rfl⟩
  | @post t _ p _ w same labelled sum _ ih =>
    rcases ih hv with ⟨u, hu, hl⟩ | ⟨q, hq, hk, hl⟩
    · rw [Table.lookup_insert] at hu
      split at hu
      · cases hu
        exact Or.inr ⟨p, List.mem_cons_self, by rename_i hk; exact hk.symm, by rw [← labelled, hl]⟩
      · exact Or.inl ⟨u, hu, hl⟩
    · exact Or.inr ⟨q, List.mem_cons_of_mem p hq, hk, hl⟩

/-- A row stays, under its label. -/
theorem keeps {t t' : Table K V} {ps : List (Posting K L)}
    (h : Posted label amount t ps t') {k : K} {u : V} (hu : t.lookup k = some u) :
    ∃ v, t'.lookup k = some v ∧ label v = label u := by
  induction h generalizing u with
  | nil => exact ⟨u, hu, rfl⟩
  | @post t _ p _ w same labelled sum _ ih =>
    by_cases hk : k = p.key
    · have hw : (t.insert p.key w).lookup k = some w := by rw [Table.lookup_insert, if_pos hk]
      obtain ⟨v, hv, hl⟩ := ih hw
      exact ⟨v, hv, by rw [hl, labelled, same u (hk ▸ hu)]⟩
    · exact ih (by rw [Table.lookup_insert, if_neg hk]; exact hu)

/-- Keys without a posting keep their rows. -/
theorem elsewhere {t t' : Table K V} {ps : List (Posting K L)}
    (h : Posted label amount t ps t') {k : K} (hk : ∀ p ∈ ps, p.key ≠ k) :
    t'.lookup k = t.lookup k := by
  induction h with
  | nil => rfl
  | @post t _ p _ w same labelled sum _ ih =>
    rw [ih fun q hq => hk q (List.mem_cons_of_mem p hq), Table.lookup_insert,
      if_neg fun e => hk p List.mem_cons_self e.symm]

end Posted

/-- The labels of the postings agree with the rows and with each other. -/
def Fits (label : V → L) (t : Table K V) (ps : List (Posting K L)) : Prop :=
  ∀ p ∈ ps, (∀ v, t.lookup p.key = some v → label v = p.label) ∧
    ∀ q ∈ ps, q.key = p.key → q.label = p.label

theorem Fits.nil (t : Table K V) : Fits label t [] := nofun

theorem Fits.mono {t : Table K V} {ps qs : List (Posting K L)} (h : Fits label t qs)
    (sub : ∀ p ∈ ps, p ∈ qs) : Fits label t ps := fun p mem =>
  ⟨(h p (sub p mem)).1, fun q other => (h p (sub p mem)).2 q (sub q other)⟩

/-- A posting to a row under its own label fits in. -/
theorem Fits.cons {t : Table K V} {p : Posting K L} {ps : List (Posting K L)} {v : V}
    (h : Fits label t ps) (found : t.lookup p.key = some v) (same : label v = p.label) :
    Fits label t (p :: ps) := by
  intro q mem
  rcases List.mem_cons.mp mem with rfl | later
  · refine ⟨fun u found' => ?_, fun r other key => ?_⟩
    · cases found.symm.trans found'
      exact same
    · rcases List.mem_cons.mp other with rfl | other
      · rfl
      · rw [← same]
        exact ((h r other).1 v (key ▸ found)).symm
  · refine ⟨(h q later).1, fun r other key => ?_⟩
    rcases List.mem_cons.mp other with rfl | other
    · rw [← same]
      exact (h q later).1 v (key ▸ found)
    · exact (h q later).2 r other key

/-- Whatever is posted fits. -/
theorem Posted.fits {t t' : Table K V} {ps : List (Posting K L)} (h : Posted label amount t ps t') :
    Fits label t ps := by
  induction h with
  | nil t => exact Fits.nil t
  | @post t _ p ps v same labelled _ _ ih =>
    have here {q : Posting K L} (mem : q ∈ ps) (key : q.key = p.key) : q.label = p.label := by
      rw [← labelled]
      exact ((ih q mem).1 v (by rw [key, AList.lookup_insert])).symm
    intro q mem
    rcases List.mem_cons.mp mem with rfl | later
    · refine ⟨same, fun r other key => ?_⟩
      rcases List.mem_cons.mp other with rfl | other
      · rfl
      · exact here other key
    · refine ⟨fun u found => ?_, fun r other key => ?_⟩
      · by_cases key : q.key = p.key
        · rw [here later key]
          exact same u (key ▸ found)
        · exact (ih q later).1 u (by rw [Table.lookup_insert, if_neg key, found])
      · rcases List.mem_cons.mp other with rfl | other
        · exact (here later key.symm).symm
        · exact (ih q later).2 r other key

/-- After postings that fit together with `p`, the row at the key of `p` has the label of `p`. -/
theorem Posted.fit {t t' : Table K V} {ps qs : List (Posting K L)} {p : Posting K L} {v : V}
    (h : Posted label amount t ps t') (fits : Fits label t qs) (sub : ∀ q ∈ ps, q ∈ qs)
    (mem : p ∈ qs) (found : t'.lookup p.key = some v) : label v = p.label := by
  rcases h.origin found with ⟨u, stood, same⟩ | ⟨q, posted, key, same⟩
  · rw [← same]
    exact (fits p mem).1 u stood
  · rw [← same]
    exact (fits p mem).2 q (sub q posted) key

end Ledger

end DecentralBank
