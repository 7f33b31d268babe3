import DecentralBank.Lib.Tally
import DecentralBank.System.Ballots

/-!
# Weights are passed on

The votes of a producer are the weights of those who vote for it, and the
proxied weight of a proxy the weights of those who name it. A change of weight
is passed on along a chain of proxies and keeps this, unless it is dropped for
being too small.
-/

namespace DecentralBank.System

open Checked Chains Tally

section

variable {D : Type}

/-- The accounts that have a row as voters. -/
def Election.electorate (e : Election D) : Finset Name := e.voters.keys.toFinset

/-- `k` votes for `p` itself. -/
def backs (st : Standings) (p k : Name) : Bool :=
  (st k).any fun v => decide (v.proxy = NOBODY ∧ p ∈ v.producers)

/-- `k` names `q` as its proxy. -/
def follows (st : Standings) (q k : Name) : Bool := decide (proxyOf st k = some q)

def votesOf (e : Election D) (p : Name) : Option D :=
  (e.producers.lookup p).map ProducerInfo.totalVotes

variable {st : Standings} {k p q : Name} {v : Standing} {e : Election D}

theorem votesOf_some {prod : ProducerInfo D} (found : e.producers.lookup p = some prod) :
    votesOf e p = some prod.totalVotes := by
  rw [votesOf, found]
  rfl

theorem backs_some (found : st k = some v) :
    backs st p k = decide (v.proxy = NOBODY ∧ p ∈ v.producers) := by
  rw [backs, found, Option.any_some]

theorem follows_some (found : st k = some v) :
    follows st q k = decide (v.proxy = q ∧ q ≠ NOBODY) := by
  unfold follows
  refine decide_eq_decide.mpr (proxyOf_some.trans ⟨?_, fun h => ⟨v, found, h⟩⟩)
  rintro ⟨u, there, h⟩
  cases found.symm.trans there
  exact h

theorem backs_update {u : Option Standing} {j : Name} (apart : j ≠ k) :
    backs (Function.update st k u) p j = backs st p j := by
  rw [backs, Function.update_of_ne apart, backs]

theorem follows_update {u : Option Standing} {j : Name} (apart : j ≠ k) :
    follows (Function.update st k u) q j = follows st q j := by
  rw [follows, proxyOf, Function.update_of_ne apart, follows, proxyOf]

theorem mem_electorate {row : VoterInfo D} (found : e.voters.lookup k = some row) :
    k ∈ e.electorate :=
  List.mem_toFinset.mpr (mem_keys found)

theorem electorate_insert {row row' : VoterInfo D} (found : e.voters.lookup k = some row) :
    Election.electorate { e with voters := e.voters.insert k row' } = e.electorate := by
  unfold Election.electorate
  rw [keys_insert]
  exact Finset.insert_eq_self.mpr (mem_electorate found)

theorem electorate_modify (f : VoterInfo D → VoterInfo D) :
    Election.electorate { e with voters := e.voters.modify k f } = e.electorate := by
  unfold Table.modify
  cases found : e.voters.lookup k with
  | none => rfl
  | some row => exact electorate_insert found

end

variable {R : Type} [AddCommGroup R] {c : Ctx R}
  {e e' : Election R} {st : Standings} {pending shift shift' weight : Name → R} {k p q : Name}
  {v : Standing} {row voter : VoterInfo R} {w delta : R}

/-! ## Votes change -/

/-- The votes of every producer change by `shift`, and all votes by as much. -/
structure Revoted (shift : Name → R) (e e' : Election R) : Prop where
  voters : e'.voters = e.voters
  votes : ∀ p, votesOf e' p = (votesOf e p).map (· + shift p)
  total : e.gstate.totalProducerVoteWeight = sum ProducerInfo.totalVotes e.producers →
    e'.gstate.totalProducerVoteWeight = sum ProducerInfo.totalVotes e'.producers

namespace Revoted

theorem refl (e : Election R) : Revoted (fun _ => 0) e e :=
  ⟨rfl, fun p => by simp only [add_zero, Option.map_id'], id⟩

theorem trans {e'' : Election R} (h : Revoted shift e e') (g : Revoted shift' e' e'') :
    Revoted (fun p => shift p + shift' p) e e'' := by
  refine ⟨g.voters.trans h.voters, fun p => ?_, g.total ∘ h.total⟩
  rw [g.votes, h.votes, Option.map_map]
  exact congrArg (fun f => (votesOf e p).map f) (funext fun x => add_assoc x (shift p) (shift' p))

theorem congr (h : Revoted shift e e') (same : ∀ p, shift' p = shift p) : Revoted shift' e e' :=
  (funext same : shift' = shift) ▸ h

end Revoted

variable {a b : Accrued R}

theorem accrue_rows {D : Type} {c : Ctx D} {a : Accrued D} (owner : Name) (prod : ProducerInfo D)
    (delta : D) : ∃ rows, (a.accrue c owner prod delta).election =
      { a.election with producers2 := rows } := by
  unfold Accrued.accrue
  cases a.election.producers2.lookup owner with
  | none => exact ⟨_, rfl⟩
  | some prod2 =>
    simp only [updateProducerVotepayShare]
    split
    · exact ⟨_, rfl⟩
    · split
      · exact ⟨_, rfl⟩
      · exact ⟨_, rfl⟩

theorem settle_revoted (a : Accrued R) : Revoted (fun _ => 0) a.election (a.settle c) :=
  ⟨rfl, fun p => by
    simp only [add_zero, Option.map_id']
    rfl, id⟩

variable [LinearOrder R]

/-! ## Tallies -/

/-- Sums and comparisons are exact, and stake weighs something. -/
structure Doubles.Additive (fp : Doubles R) : Prop where
  zero : fp.zero = 0
  add : ∀ x y, fp.add x y = x + y
  sub : ∀ x y, fp.sub x y = x - y
  lt : ∀ x y, fp.lt x y = decide (x < y)
  le : ∀ x y, fp.le x y = decide (x ≤ y)
  weighs : ∀ staked y, 0 ≤ staked → 0 ≤ fp.mul (fp.ofInt staked) (fp.pow (fp.ofInt 2) y)

/-- Whoever chooses as `st` says has `weight`, and `pending` is still to be added to the votes. -/
structure Tallied (st : Standings) (pending weight : Name → R) (e : Election R) : Prop where
  votes : ∀ p votes, votesOf e p = some votes →
    votes + pending p = weigh e.electorate (backs st p) weight
  proxied : ∀ q row, e.voters.lookup q = some row →
    row.proxiedVoteWeight = weigh e.electorate (follows st q) weight
  total : e.gstate.totalProducerVoteWeight = sum ProducerInfo.totalVotes e.producers
  nonneg : ∀ k, 0 ≤ weight k
  staked : ∀ k row, e.voters.lookup k = some row → 0 ≤ row.staked

namespace Tallied

/-- A weight is not negative. -/
theorem weighs [IsOrderedAddMonoid R] (tallied : Tallied st pending weight e)
    (exact : c.fp.Additive) (found : e.voters.lookup k = some row) : 0 ≤ voteWeight c row := by
  have own : 0 ≤ stake2vote c row.staked := exact.weighs _ _ (tallied.staked k row found)
  unfold voteWeight
  simp only
  split
  · rw [exact.add, tallied.proxied k row found]
    exact add_nonneg own (weigh_nonneg tallied.nonneg)
  · exact own

theorem update_nonneg (tallied : Tallied st pending weight e) (least : 0 ≤ w) (j : Name) :
    0 ≤ Function.update weight k w j := by
  rw [Function.update_apply]
  split
  · exact least
  · exact tallied.nonneg j

/-- The proxy of `k` is given the change of its weight. -/
theorem toProxy (tallied : Tallied st pending weight e) (mem : k ∈ e.electorate)
    (chosen : st k = some v) (least : 0 ≤ w) (named : v.proxy ≠ NOBODY)
    (found : e.voters.lookup v.proxy = some row) {proxied : R}
    (given : proxied = row.proxiedVoteWeight + (w - weight k)) :
    Tallied st pending (Function.update weight k w)
      { e with voters := e.voters.insert v.proxy { row with proxiedVoteWeight := proxied } } := by
  have same : Election.electorate { e with
      voters := e.voters.insert v.proxy { row with proxiedVoteWeight := proxied } } =
        e.electorate := electorate_insert found
  refine ⟨fun p votes there => ?_, fun q row' there => ?_, tallied.total,
    tallied.update_nonneg least, fun j row' there => ?_⟩
  · rw [same, weigh_update, if_neg, add_zero]
    · exact tallied.votes p votes there
    · rw [backs_some chosen, decide_eq_true_eq]
      exact fun direct => named direct.2.1
  · rw [same, weigh_update, follows_some chosen]
    rw [Table.lookup_insert] at there
    split at there
    · rename_i here
      cases there
      rw [if_pos ⟨mem, decide_eq_true ⟨here.symm, here ▸ named⟩⟩, here, given]
      exact congrArg (· + _) (tallied.proxied _ _ found)
    · rename_i apart
      rw [if_neg, add_zero]
      · exact tallied.proxied q row' there
      · rw [decide_eq_true_eq]
        exact fun follows => apart follows.2.1.symm
  · rw [Table.lookup_insert] at there
    split at there
    · cases there
      have nonneg : 0 ≤ row.staked := tallied.staked _ _ found
      exact nonneg
    · exact tallied.staked j row' there

/-- The producers of `k` are to be given the change of its weight. -/
theorem toProducers (tallied : Tallied st pending weight e) (mem : k ∈ e.electorate)
    (chosen : st k = some v) (least : 0 ≤ w) (none : v.proxy = NOBODY) :
    Tallied st (fun p => pending p + if p ∈ v.producers then w - weight k else 0)
      (Function.update weight k w) e := by
  refine ⟨fun p votes there => ?_, fun q row' there => ?_, tallied.total,
    tallied.update_nonneg least, tallied.staked⟩
  · rw [weigh_update, backs_some chosen, ← tallied.votes p votes there, ← add_assoc]
    simp only [mem, none, true_and, decide_eq_true_eq]
  · rw [weigh_update, if_neg, add_zero]
    · exact tallied.proxied q row' there
    · rw [follows_some chosen, decide_eq_true_eq]
      exact fun follows => follows.2.2 (follows.2.1.symm.trans none)

/-- One whose weight counts for nothing may choose anew. -/
theorem choose (tallied : Tallied st pending weight e) (nothing : weight k = 0) (v : Standing) :
    Tallied (Function.update st k (some v)) pending weight e := by
  refine ⟨fun p votes there => ?_, fun q row there => ?_, tallied.total, tallied.nonneg,
    tallied.staked⟩
  · rw [weigh_choice (fun _ => backs_update) nothing]
    exact tallied.votes p votes there
  · rw [weigh_choice (fun _ => follows_update) nothing]
    exact tallied.proxied q row there

/-- What a voter's row says of its last vote is no part of the tallies. -/
theorem modify (tallied : Tallied st pending weight e) {f : VoterInfo R → VoterInfo R}
    (proxied : ∀ v, (f v).proxiedVoteWeight = v.proxiedVoteWeight)
    (staked : ∀ v, (f v).staked = v.staked) :
    Tallied st pending weight { e with voters := e.voters.modify k f } := by
  have row (j : Name) (u : VoterInfo R) (there : (e.voters.modify k f).lookup j = some u) :
      ∃ old, e.voters.lookup j = some old ∧ u.proxiedVoteWeight = old.proxiedVoteWeight ∧
        u.staked = old.staked := by
    rw [Table.lookup_modify] at there
    split at there
    · obtain ⟨old, found, rfl⟩ := Option.map_eq_some_iff.mp there
      exact ⟨old, found, proxied old, staked old⟩
    · exact ⟨u, there, rfl, rfl⟩
  refine ⟨fun p votes there => ?_, fun q u there => ?_, tallied.total, tallied.nonneg,
    fun j u there => ?_⟩
  · rw [electorate_modify]
    exact tallied.votes p votes there
  · obtain ⟨old, found, same, -⟩ := row q u there
    rw [electorate_modify, same]
    exact tallied.proxied q old found
  · obtain ⟨old, found, -, same⟩ := row j u there
    rw [same]
    exact tallied.staked j old found

end Tallied

/-- What was pending has been added. -/
theorem Tallied.revoted (tallied : Tallied st (fun p => pending p + shift p) weight e)
    (revoted : Revoted shift e e') : Tallied st pending weight e' := by
  have same : e'.electorate = e.electorate := by
    rw [Election.electorate, revoted.voters, Election.electorate]
  refine ⟨fun p votes there => ?_, fun q row there => ?_, revoted.total tallied.total,
    tallied.nonneg, fun k row there => ?_⟩
  · rw [revoted.votes] at there
    obtain ⟨old, found, rfl⟩ := Option.map_eq_some_iff.mp there
    rw [same, ← tallied.votes p old found]
    abel
  · rw [same]
    exact tallied.proxied q row (revoted.voters ▸ there)
  · exact tallied.staked k row (revoted.voters ▸ there)

/-- One producer has more votes, or fewer. -/
theorem revote_revoted (exact : c.fp.Additive) {prod : ProducerInfo R} {votes : R}
    (found : a.election.producers.lookup p = some prod) (sum : votes = prod.totalVotes + delta) :
    Revoted (fun q => if q = p then delta else 0) a.election
      (a.revote c p prod votes delta).election := by
  subst sum
  unfold Accrued.revote
  simp only
  obtain ⟨rows, same⟩ := accrue_rows (c := c) (a := { a with election := { a.election with
    producers := a.election.producers.insert p
      { prod with totalVotes := prod.totalVotes + delta }
    gstate := { a.election.gstate with
      totalProducerVoteWeight :=
        c.fp.add a.election.gstate.totalProducerVoteWeight delta } } }) p prod delta
  rw [same]
  refine ⟨rfl, fun q => ?_, fun total => ?_⟩
  · simp only [votesOf, Table.lookup_insert]
    split
    · rename_i here
      rw [here, found]
      rfl
    · simp only [add_zero, Option.map_id']
  · simp only [exact.add, total, sum_insert, found, Option.elim_some]
    abel

/-! ## Loops over producers -/

/-- The producers of a voter have more votes, or fewer. -/
theorem shiftVotes_revoted (exact : c.fp.Additive) {producers : List Name}
    (distinct : producers.Nodup) (h : producers.foldlM (shiftVotes c delta) a = .ok b) :
    Revoted (fun p => if p ∈ producers then delta else 0) a.election b.election := by
  induction producers generalizing a with
  | nil =>
    cases pure_eq_ok.mp h
    exact .refl _
  | cons q rest ih =>
    obtain ⟨apart, distinct⟩ := List.nodup_cons.mp distinct
    simp only [List.foldlM_cons, shiftVotes, bind_eq_ok, find_eq_ok, pure_eq_ok] at h
    obtain ⟨_, ⟨prod, found, rfl⟩, h⟩ := h
    refine ((revote_revoted exact found (exact.add _ _)).trans (ih distinct h)).congr fun p => ?_
    by_cases here : p = q
    · rw [here, if_pos List.mem_cons_self, if_pos rfl, if_neg apart, add_zero]
    · simp only [List.mem_cons, here, false_or, if_false, zero_add]

/-- What the changes of votes are for `p`. -/
def shiftOf : Deltas R → Name → R
  | [], _ => 0
  | (name, d, _) :: rest, p => (if p = name then d else 0) + shiftOf rest p

/-- The changes are in the order of names. -/
def Ordered (deltas : Deltas R) : Prop := deltas.Pairwise fun a b => a.1.value < b.1.value

omit [LinearOrder R] in
theorem shiftOf_none {deltas : Deltas R} (none : ∀ d ∈ deltas, d.1 ≠ p) : shiftOf deltas p = 0 := by
  induction deltas with
  | nil => rfl
  | cons d rest ih =>
    obtain ⟨name, change⟩ := d
    rw [shiftOf, if_neg fun here => none _ List.mem_cons_self here.symm,
      ih fun d mem => none d (List.mem_cons_of_mem _ mem), add_zero]

/-- A change of votes that does not take more than there are is added, if there is a row for it. -/
theorem applyDelta_ok (exact : c.fp.Additive) {voting : Bool} {d : R} {isNew : Bool}
    (least : ∀ votes, votesOf a.election p = some votes → 0 ≤ votes + d)
    (h : applyDelta c voting a (p, d, isNew) = .ok b) :
    (votesOf a.election p = none ∧ b = a) ∨ ∃ prod, a.election.producers.lookup p = some prod ∧
      0 ≤ prod.totalVotes + d ∧ b = a.revote c p prod (prod.totalVotes + d) d := by
  unfold applyDelta at h
  cases found : a.election.producers.lookup p with
  | none =>
    simp only [found, bind_eq_ok, require_eq_ok, pure_eq_ok, exists_const] at h
    obtain ⟨-, rfl⟩ := h
    exact Or.inl ⟨by rw [votesOf, found]; rfl, rfl⟩
  | some prod =>
    simp only [found, bind_eq_ok, require_eq_ok, pure_eq_ok, exists_const] at h
    obtain ⟨-, rfl⟩ := h
    have nonneg := least prod.totalVotes (votesOf_some found)
    refine Or.inr ⟨prod, rfl, nonneg, ?_⟩
    rw [exact.lt, exact.add, exact.zero, if_neg]
    rw [decide_eq_true_eq, not_lt]
    exact nonneg

omit [LinearOrder R] in
/-- Every change of votes is made once. -/
theorem Ordered.once {d : R} {isNew : Bool} {rest : Deltas R}
    (ordered : Ordered ((p, d, isNew) :: rest)) : shiftOf rest p = 0 := by
  refine shiftOf_none fun other mem here => ?_
  have less := (List.pairwise_cons.mp ordered).1 other mem
  rw [here] at less
  exact lt_irrefl _ less

omit [LinearOrder R] in
theorem Ordered.own {d : R} {isNew : Bool} {rest : Deltas R}
    (ordered : Ordered ((p, d, isNew) :: rest)) : shiftOf ((p, d, isNew) :: rest) p = d := by
  rw [shiftOf, if_pos rfl, ordered.once, add_zero]

/-- No votes are cut off at zero. -/
theorem applyDelta_revoted (exact : c.fp.Additive) {voting : Bool} {deltas : Deltas R}
    (ordered : Ordered deltas)
    (least : ∀ p votes, votesOf a.election p = some votes → 0 ≤ votes + shiftOf deltas p)
    (h : deltas.foldlM (applyDelta c voting) a = .ok b) :
    Revoted (shiftOf deltas) a.election b.election := by
  induction deltas generalizing a with
  | nil =>
    cases pure_eq_ok.mp h
    exact .refl _
  | cons d rest ih =>
    obtain ⟨name, change, isNew⟩ := d
    simp only [List.foldlM_cons, bind_eq_ok] at h
    obtain ⟨turned, turn, h⟩ := h
    have first : Revoted (fun p => if p = name then change else 0) a.election turned.election := by
      rcases applyDelta_ok exact (ordered.own ▸ least name) turn with ⟨none, rfl⟩ |
        ⟨prod, found, -, rfl⟩
      · refine ⟨rfl, fun p => ?_, id⟩
        by_cases here : p = name
        · rw [here, none]
          rfl
        · simp only [here, if_false, add_zero, Option.map_id']
      · exact revote_revoted exact found rfl
    refine first.trans (ih (List.pairwise_cons.mp ordered).2 (fun p votes there => ?_) h)
    rw [first.votes] at there
    obtain ⟨old, found, rfl⟩ := Option.map_eq_some_iff.mp there
    rw [add_assoc]
    exact least p old found

/-! ## Propagation -/

/-- No change that `propagateWeightChange` goes through is dropped for being too small, unless it
counts for nothing. -/
def heeds {D : Type} (c : Ctx D) : Nat → Election D → VoterInfo D → Bool
  | 0, _, _ => true
  | fuel + 1, e, voter =>
    let delta := c.fp.sub (voteWeight c voter) voter.lastVoteWeight
    if c.fp.lt (c.fp.ofInt 1) (c.fp.fabs delta) then
      if voter.proxy ≠ NOBODY then
        (e.voters.lookup voter.proxy).all fun proxy =>
          let proxy := { proxy with proxiedVoteWeight := c.fp.add proxy.proxiedVoteWeight delta }
          heeds c fuel { e with voters := e.voters.insert voter.proxy proxy } proxy
      else true
    else
      decide (voter.proxy = NOBODY ∧ voter.producers = []) ||
        (c.fp.le delta c.fp.zero && c.fp.le c.fp.zero delta)

/-- The accounts along the chain of proxies that begins with `owner`. -/
def Reaches (st : Standings) (owner k : Name) : Prop :=
  Relation.ReflTransGen (Links (proxyOf st)) owner k

/-- A voter's row says what its votes weigh. -/
def Agrees (weight : Name → R) (e : Election R) (k : Name) : Prop :=
  ∀ v, e.voters.lookup k = some v → weight k = v.lastVoteWeight

/-- The tallies after a change of weight was passed on from `owner`. -/
structure Passed (st : Standings) (pending : Name → R) (reached : Name → Prop) (weight : Name → R)
    (e : Election R) (weight' : Name → R) (e' : Election R) : Prop where
  tallied : Tallied st pending weight' e'
  others : ∀ j, ¬ reached j → weight' j = weight j
  agrees : ∀ j, Agrees weight e j → Agrees weight' e' j

/-- The row of a voter gets its new weight last. -/
theorem Passed.write {reached : Name → Prop} {weight₁ : Name → R}
    (tallied : Tallied st pending weight₁ e') (own : weight₁ k = w)
    (others : ∀ j, ¬ reached j → weight₁ j = weight j)
    (agrees : ∀ j, j ≠ k → Agrees weight e j → Agrees weight₁ e' j) :
    Passed st pending reached weight e weight₁
      { e' with voters := e'.voters.modify k fun v => { v with lastVoteWeight := w } } := by
  refine ⟨tallied.modify (fun _ => rfl) fun _ => rfl, others, fun j before u there => ?_⟩
  simp only [Table.lookup_modify] at there
  split at there
  · rename_i here
    obtain ⟨old, -, rfl⟩ := Option.map_eq_some_iff.mp there
    rw [here, own]
  · rename_i apart
    exact agrees j apart before u there

variable [IsOrderedAddMonoid R] {owner : Name} {st₀ : Standings}

theorem propagate_passed (exact : c.fp.Additive) (acyclic : Acyclic (proxyOf st₀))
    (distinct : ∀ k v, st₀ k = some v → v.producers.Nodup) {fuel : Nat}
    (stands : e.standing = st₀) (found : e.voters.lookup owner = some voter)
    (chosen : ∀ j, Reaches st₀ owner j → st j = st₀ j)
    (known : ∀ j, Reaches st₀ owner j → Agrees weight e j)
    (tallied : Tallied st pending weight e) (heeded : heeds c fuel e voter = true)
    (h : propagateWeightChange c fuel e owner voter = .ok e') :
    ∃ weight', Passed st pending (Reaches st₀ owner) weight e weight' e' := by
  induction fuel generalizing e e' owner voter weight with
  | zero => cases h
  | succ fuel ih =>
    have mem := mem_electorate found
    have stood : st₀ owner = some voter.standing := stands ▸ Election.standing_some found
    have choice : st owner = some voter.standing := (chosen owner .refl).trans stood
    have last : weight owner = voter.lastVoteWeight := known owner .refl voter found
    have least := tallied.weighs exact found
    simp only [propagateWeightChange, bind_eq_ok, require_eq_ok, ite_eq_ok, find_eq_ok, pure_eq_ok,
      exists_const] at h
    obtain ⟨-, passed, step, rfl⟩ := h
    -- The row of `owner` is as it was before the change is passed on.
    have apart (j : Name) (other : ¬ Reaches st₀ owner j) : j ≠ owner :=
      fun here => other (here ▸ .refl)
    have others (j : Name) (other : ¬ Reaches st₀ owner j) :
        Function.update weight owner (voteWeight c voter) j = weight j :=
      Function.update_of_ne (apart j other) _ _
    have agrees (j : Name) (apart : j ≠ owner) {e₁ : Election R} (same : e₁.voters = e.voters)
        (before : Agrees weight e j) :
        Agrees (Function.update weight owner (voteWeight c voter)) e₁ j := by
      intro u there
      rw [Function.update_of_ne apart]
      exact before u (same ▸ there)
    rcases step with ⟨large, ⟨named, proxy, there, done⟩ | ⟨none, shifted, looped, rfl⟩⟩ |
      ⟨small, rfl⟩
    · rw [heeds] at heeded
      simp only [large, if_true, named, ne_eq, not_false_eq_true, there, Option.all_some] at heeded
      have link : Links (proxyOf st₀) owner voter.proxy :=
        proxyOf_some.mpr ⟨_, stood, rfl, named⟩
      have past (j : Name) (later : Reaches st₀ voter.proxy j) : j ≠ owner := fun here =>
        acyclic owner ((Relation.TransGen.single link).trans_left (here ▸ later))
      have moved : c.fp.add proxy.proxiedVoteWeight
          (c.fp.sub (voteWeight c voter) voter.lastVoteWeight) =
            proxy.proxiedVoteWeight + (voteWeight c voter - weight owner) := by
        rw [exact.add, exact.sub, last]
      have given := tallied.toProxy mem choice least named there moved
      have before (j : Name) (apart : j ≠ owner) (agreed : Agrees weight e j) :
          Agrees (Function.update weight owner (voteWeight c voter)) { e with
            voters := e.voters.insert voter.proxy { proxy with
              proxiedVoteWeight := c.fp.add proxy.proxiedVoteWeight
                (c.fp.sub (voteWeight c voter) voter.lastVoteWeight) } } j := by
        intro u row
        rw [Function.update_of_ne apart]
        simp only [Table.lookup_insert] at row
        split at row
        · rename_i here
          cases row
          exact agreed proxy (here ▸ there)
        · exact agreed u row
      obtain ⟨weight', reached⟩ := ih
        ((Reweighed.voter there (by rfl)).standing.trans stands)
        (by rw [Table.lookup_insert, if_pos rfl])
        (fun j later => chosen j (later.head link))
        (fun j later => before j (past j later) (known j (later.head link))) given heeded done
      refine ⟨weight', .write reached.tallied ?_ (fun j other => ?_) fun j apart agreed => ?_⟩
      · rw [reached.others owner fun later => past owner later rfl, Function.update_self]
      · rw [reached.others j fun later => other (later.head link), others j other]
      · exact reached.agrees j (before j apart agreed)
    · have nobody : voter.proxy = NOBODY := not_not.mp none
      have given := tallied.toProducers mem choice least nobody
      have revoted := (shiftVotes_revoted exact (distinct _ _ stood) looped).trans
        (settle_revoted (c := c) shifted)
      have same : ∀ p, (if p ∈ voter.standing.producers then
          voteWeight c voter - weight owner else 0) =
          (if p ∈ voter.producers then c.fp.sub (voteWeight c voter) voter.lastVoteWeight
            else 0) + 0 := by
        intro p
        rw [last, exact.sub, add_zero]
        rfl
      refine ⟨_, .write (given.revoted (revoted.congr same)) (Function.update_self _ _ _) others
        fun j apart agreed => agrees j apart revoted.voters agreed⟩
    · have idle : Tallied st pending (Function.update weight owner (voteWeight c voter)) e := by
        rw [heeds, if_neg small, Bool.or_eq_true, Bool.and_eq_true, decide_eq_true_eq] at heeded
        simp only [exact.le, exact.zero, exact.sub, sub_nonpos, sub_nonneg, decide_eq_true_eq]
          at heeded
        rcases heeded with ⟨nobody, none⟩ | ⟨atMost, atLeast⟩
        · have given := tallied.toProducers mem choice least nobody
          have empty : voter.standing.producers = [] := none
          simp only [empty, List.not_mem_nil, if_false, add_zero] at given
          exact given
        · rw [le_antisymm atMost atLeast, ← last, Function.update_eq_self]
          exact tallied
      exact ⟨_, .write idle (Function.update_self _ _ _) others
        fun j apart agreed => agrees j apart rfl agreed⟩

end DecentralBank.System
