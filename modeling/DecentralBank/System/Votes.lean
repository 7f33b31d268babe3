import DecentralBank.System.Weights

/-!
# A vote is counted

A vote is taken from what its voter chose and given to what it chooses, with
the weight it has now, so that the votes of producers stay the weights of those
who vote for them.
-/

namespace DecentralBank.System

open Checked Runs Chains Tally

/-! ## Ballots -/

section

variable {D : Type} {c : Ctx D} {e : Election D} {k : Name} {v : Standing}

theorem sorted_pairwise {names : List Name} (ordered : sorted names = true) :
    names.Pairwise fun a b => a.value < b.value := by
  induction names with
  | nil => exact .nil
  | cons a rest ih =>
    cases rest with
    | nil => exact List.pairwise_singleton _ _
    | cons b rest =>
      rw [sorted, Bool.and_eq_true, decide_eq_true_eq] at ordered
      have later := ih ordered.2
      refine List.pairwise_cons.mpr ⟨fun p mem => ?_, later⟩
      rcases List.mem_cons.mp mem with rfl | mem
      · exact ordered.1
      · exact ordered.1.trans ((List.pairwise_cons.mp later).1 p mem)

theorem sorted_nodup {names : List Name} (ordered : sorted names = true) : names.Nodup :=
  (sorted_pairwise ordered).imp fun less same => by
    rw [same] at less
    exact lt_irrefl _ less

theorem Ballots.distinct (h : Ballots e) :
    ∀ k v, e.standing k = some v → v.producers.Nodup := fun k v stands =>
  sorted_nodup (h.castable k v stands).sorted

/-- Nobody reaches itself through its proxy. -/
theorem Ballots.past (ballots : Ballots e) (stands : e.standing k = some v)
    (named : v.proxy ≠ NOBODY) : ¬ Reaches e.standing v.proxy k := by
  intro back
  have link : Links (proxyOf e.standing) k v.proxy := proxyOf_some.mpr ⟨v, stands, rfl, named⟩
  exact ballots.proxied.acyclic k ((Relation.TransGen.single link).trans_left back)

/-- Nothing is passed on beyond an account that may be named as a proxy. -/
theorem reaches_proxy {proxy : Name} {new : Standing} (ballots : Ballots e)
    (stands : e.standing proxy = some new) (registered : new.isProxy = true)
    (reached : Reaches e.standing proxy k) : k = proxy := by
  rcases reached.cases_head with here | ⟨next, link, -⟩
  · exact here.symm
  · obtain ⟨_, stood, same, some⟩ := proxyOf_some.mp link
    cases stands.symm.trans stood
    exact absurd (same.symm.trans (ballots.proxied.sinks proxy new stands registered)) some

/-- No change is dropped when the proxied weight of `proxy` becomes `weight`. -/
def heedsProxied (c : Ctx D) (e : Election D) (proxy : Name) (row : VoterInfo D) (weight : D) :
    Bool :=
  let row := { row with proxiedVoteWeight := weight }
  heeds c e.depth { e with voters := e.voters.insert proxy row } row

/-- No change is dropped when `voter` leaves its proxy, or names another. -/
def heedsBallot (c : Ctx D) (e : Election D) (voter : VoterInfo D) (proxy : Name) : Bool :=
  (decide (voter.proxy = NOBODY) || !c.fp.lt c.fp.zero voter.lastVoteWeight ||
    (e.voters.lookup voter.proxy).all fun old =>
      heedsProxied c e voter.proxy old (c.fp.sub old.proxiedVoteWeight voter.lastVoteWeight)) &&
  (decide (proxy = NOBODY) || match withdrawVote c e voter with
    | .ok (withdrawn, _) => (withdrawn.voters.lookup proxy).all fun new =>
      heedsProxied c withdrawn proxy new (c.fp.add new.proxiedVoteWeight (voteWeight c voter))
    | .error _ => true)

/-! ## Changes of votes -/

variable {deltas : Deltas D} {p : Name}

theorem mem_adjust_value {producer : Name} {f : D → D} {isNew : Bool} {value : Nat}
    (before : ∀ d ∈ deltas, value < d.1.value) (less : value < producer.value) :
    ∀ d ∈ adjust c producer f isNew deltas, value < d.1.value := by
  intro d mem
  rcases mem_adjust mem with here | rest
  · exact here ▸ less
  · exact before d rest

theorem adjust_ordered {f : D → D} {isNew : Bool} (ordered : Ordered deltas) :
    Ordered (adjust c p f isNew deltas) := by
  induction deltas with
  | nil => exact List.pairwise_singleton _ _
  | cons first rest ih =>
    obtain ⟨name, d⟩ := first
    obtain ⟨later, ordered'⟩ := List.pairwise_cons.mp ordered
    unfold adjust
    split
    · exact List.pairwise_cons.mpr ⟨later, ordered'⟩
    · rename_i apart
      split
      · rename_i less
        refine List.pairwise_cons.mpr ⟨fun d mem => ?_, ordered⟩
        rcases List.mem_cons.mp mem with rfl | mem
        · exact less
        · exact less.trans (later d mem)
      · rename_i notLess
        have more : name.value < p.value := by
          have other : name.value ≠ p.value := fun same => apart (congrArg Name.mk same.symm)
          omega
        exact List.pairwise_cons.mpr ⟨mem_adjust_value later more, ih ordered'⟩

theorem adjusted_ordered {f : D → D} {isNew : Bool} (producers : List Name)
    (ordered : Ordered deltas) :
    Ordered (producers.foldl (fun deltas p => adjust c p f isNew deltas) deltas) := by
  induction producers generalizing deltas with
  | nil => exact ordered
  | cons p rest ih => exact ih (adjust_ordered ordered)

end

variable {R : Type} [AddCommGroup R] {c : Ctx R}
  {e e' : Election R} {st : Standings} {pending weight : Name → R} {k p q : Name} {v : Standing}
  {row voter : VoterInfo R} {w x : R} {deltas deltas' : Deltas R}

theorem shiftOf_adjust {f : R → R} (zero : c.fp.zero = 0) (change : ∀ d, f d = d + x) (isNew : Bool) :
    shiftOf (adjust c p f isNew deltas) q = shiftOf deltas q + if q = p then x else 0 := by
  induction deltas with
  | nil =>
    simp only [adjust, shiftOf, change, zero, zero_add, add_zero]
  | cons first rest ih =>
    obtain ⟨name, d, old⟩ := first
    unfold adjust
    split
    · rename_i here
      subst here
      simp only [shiftOf, change]
      split
      · abel
      · abel
    · split
      · simp only [shiftOf, change, zero, zero_add]
        abel
      · rw [shiftOf, ih, shiftOf, add_assoc]

theorem shiftOf_adjusted {f : R → R} {isNew : Bool} {producers : List Name} (zero : c.fp.zero = 0)
    (change : ∀ d, f d = d + x) (distinct : producers.Nodup) :
    shiftOf (producers.foldl (fun deltas p => adjust c p f isNew deltas) deltas) q =
      shiftOf deltas q + if q ∈ producers then x else 0 := by
  induction producers generalizing deltas with
  | nil => simp only [List.foldl_nil, List.not_mem_nil, if_false, add_zero]
  | cons p rest ih =>
    obtain ⟨apart, distinct⟩ := List.nodup_cons.mp distinct
    rw [List.foldl_cons, ih distinct, shiftOf_adjust zero change, add_assoc]
    by_cases here : q = p
    · rw [here, if_pos rfl, if_neg apart, if_pos List.mem_cons_self, add_zero]
    · simp only [List.mem_cons, here, if_false, false_or, zero_add]

variable [LinearOrder R]

/-! ## Rows of voters -/

/-- What a voter's row says its last vote weighs. -/
def weightOf (e : Election R) (k : Name) : R :=
  ((e.voters.lookup k).map VoterInfo.lastVoteWeight).getD 0

omit [LinearOrder R] in
theorem weightOf_agrees (e : Election R) (k : Name) : Agrees (weightOf e) e k := by
  intro v found
  rw [weightOf, found]
  rfl

/-- The tallies are of the weights that the rows say. -/
theorem Tallied.own (tallied : Tallied st pending weight e) (known : ∀ j, Agrees weight e j) :
    Tallied st pending (weightOf e) e := by
  have row (j : Name) (mem : j ∈ e.electorate) : weightOf e j = weight j := by
    obtain ⟨v, found⟩ := Option.isSome_iff_exists.mp
      (AList.lookup_isSome.mpr (List.mem_toFinset.mp mem))
    rw [known j v found, weightOf_agrees e j v found]
  refine ⟨fun p votes there => ?_, fun q u there => ?_, tallied.total, fun k => ?_, tallied.staked⟩
  · rw [weigh_congr (fun _ _ => rfl) row]
    exact tallied.votes p votes there
  · rw [weigh_congr (fun _ _ => rfl) row]
    exact tallied.proxied q u there
  · cases found : e.voters.lookup k with
    | none =>
      rw [weightOf, found]
      exact le_refl 0
    | some v =>
      rw [row k (mem_electorate found)]
      exact tallied.nonneg k

/-- Ballots can be cast, and the votes are those of the ballots. -/
structure Balanced (e : Election R) : Prop where
  ballots : Ballots e
  tallied : Tallied e.standing (fun _ => 0) (weightOf e) e

/-- A voter's row may change in what is no part of the tallies. -/
theorem Balanced.rewrite (h : Balanced e) (found : e.voters.lookup k = some voter)
    (ballots : Ballots { e with voters := e.voters.insert k row }) (proxy : row.proxy = voter.proxy)
    (producers : row.producers = voter.producers) (last : row.lastVoteWeight = voter.lastVoteWeight)
    (proxied : row.proxiedVoteWeight = voter.proxiedVoteWeight) (staked : 0 ≤ row.staked) :
    Balanced { e with voters := e.voters.insert k row } := by
  have stands := Election.standing_some found
  have backed (p j : Name) :
      backs (Function.update e.standing k (some row.standing)) p j = backs e.standing p j := by
    by_cases here : j = k
    · rw [here, backs_some (Function.update_self _ _ _), backs_some stands]
      exact decide_eq_decide.mpr (by simp only [VoterInfo.standing, proxy, producers])
    · exact backs_update here
  have followed (q j : Name) :
      follows (Function.update e.standing k (some row.standing)) q j = follows e.standing q j := by
    by_cases here : j = k
    · rw [here, follows_some (Function.update_self _ _ _), follows_some stands]
      exact decide_eq_decide.mpr (by simp only [VoterInfo.standing, proxy])
    · exact follows_update here
  have weights : weightOf { e with voters := e.voters.insert k row } = weightOf e := by
    funext j
    simp only [weightOf, Table.lookup_insert]
    split
    · rename_i here
      rw [here, found, Option.map_some, Option.map_some, last]
    · rfl
  refine ⟨ballots, ?_⟩
  rw [standing_insert, weights]
  refine ⟨fun p votes there => ?_, fun q u there => ?_, h.tallied.total, h.tallied.nonneg,
    fun j u there => ?_⟩
  · rw [electorate_insert found, weigh_congr (fun j _ => backed p j) fun _ _ => rfl]
    exact h.tallied.votes p votes there
  · rw [electorate_insert found, weigh_congr (fun j _ => followed q j) fun _ _ => rfl]
    rw [Table.lookup_insert] at there
    split at there
    · rename_i here
      cases there
      rw [proxied, here]
      exact h.tallied.proxied k voter found
    · exact h.tallied.proxied q u there
  · rw [Table.lookup_insert] at there
    split at there
    · cases there
      exact staked
    · exact h.tallied.staked j u there

/-- A new voter has not voted, and nobody names it. -/
theorem Balanced.enroll (h : Balanced e) (fresh : e.voters.lookup k = none)
    (ballots : Ballots { e with voters := e.voters.insert k row }) (proxy : row.proxy = NOBODY)
    (producers : row.producers = []) (last : row.lastVoteWeight = 0)
    (proxied : row.proxiedVoteWeight = 0) (staked : 0 ≤ row.staked) :
    Balanced { e with voters := e.voters.insert k row } := by
  have apart (j : Name) (mem : j ∈ e.electorate) : j ≠ k := by
    rintro rfl
    have there := AList.lookup_isSome.mpr (List.mem_toFinset.mp mem)
    rw [fresh] at there
    cases there
  have grown : Election.electorate { e with voters := e.voters.insert k row } =
      insert k e.electorate := keys_insert _ _ _
  have same (j : Name) (mem : j ∈ e.electorate) :
      weightOf { e with voters := e.voters.insert k row } j = weightOf e j := by
    simp only [weightOf, Table.lookup_insert, if_neg (apart j mem)]
  have unbacked (p : Name) :
      backs (Function.update e.standing k (some row.standing)) p k = false := by
    rw [backs_some (Function.update_self _ _ _)]
    simp only [VoterInfo.standing, producers, List.not_mem_nil, and_false, decide_false]
  have unled (q : Name) :
      follows (Function.update e.standing k (some row.standing)) q k = false := by
    rw [follows_some (Function.update_self _ _ _), decide_eq_false_iff_not]
    exact fun named => named.2 (named.1.symm.trans proxy)
  have unnamed (j : Name) : follows e.standing k j = false := by
    rw [follows, decide_eq_false_iff_not, proxyOf_some]
    rintro ⟨v, stands, named, some⟩
    obtain ⟨-, -, u, there⟩ := (h.ballots.castable j v stands).proxied (named ▸ some)
    rw [named, Election.standing, fresh] at there
    cases there
  refine ⟨ballots, ?_⟩
  rw [standing_insert]
  refine ⟨fun p votes there => ?_, fun q u there => ?_, h.tallied.total, fun j => ?_,
    fun j u there => ?_⟩
  · rw [grown, weigh_insert (unbacked p), weigh_congr (fun j mem => backs_update (apart j mem)) same]
    exact h.tallied.votes p votes there
  · rw [grown, weigh_insert (unled q), weigh_congr (fun j mem => follows_update (apart j mem)) same]
    rw [Table.lookup_insert] at there
    split at there
    · rename_i here
      cases there
      rw [proxied, here, weigh_none fun j _ => unnamed j]
    · exact h.tallied.proxied q u there
  · simp only [weightOf, Table.lookup_insert]
    split
    · rw [Option.map_some, last]
      exact le_refl 0
    · exact h.tallied.nonneg j
  · rw [Table.lookup_insert] at there
    split at there
    · cases there
      exact staked
    · exact h.tallied.staked j u there

/-! ## A vote is withdrawn and cast -/

/-- The vote of `k` has come to weigh `w`. -/
structure Given (st : Standings) (pending : Name → R) (k : Name) (w : R) (weight : Name → R)
    (e : Election R) (weight' : Name → R) (e' : Election R) : Prop where
  tallied : Tallied st pending weight' e'
  own : weight' k = w
  agrees : ∀ j, j ≠ k → Agrees weight e j → Agrees weight' e' j

theorem Given.update (tallied : Tallied st pending (Function.update weight k w) e) :
    Given st pending k w weight e (Function.update weight k w) e :=
  ⟨tallied, Function.update_self _ _ _, fun j apart before u there => by
    rw [Function.update_of_ne apart]
    exact before u there⟩

theorem activateStake_tallied (tallied : Tallied st pending weight e) :
    Tallied st pending weight (activateStake c e voter) := by
  unfold activateStake
  split
  · exact ⟨tallied.votes, tallied.proxied, tallied.total, tallied.nonneg, tallied.staked⟩
  · exact tallied

variable [IsOrderedAddMonoid R]

/-- The proxy of `k` is given the change of its weight, and passes it on. -/
theorem setProxied_given (exact : c.fp.Additive) (ballots : Ballots e)
    (tallied : Tallied st pending weight e) (mem : k ∈ e.electorate) (choice : st k = some v)
    (named : v.proxy ≠ NOBODY) (found : e.voters.lookup v.proxy = some row) (least : 0 ≤ w)
    (past : ¬ Reaches e.standing v.proxy k)
    (chosen : ∀ j, j ≠ k → st j = e.standing j) (known : ∀ j, j ≠ k → Agrees weight e j)
    {proxied : R} (given : proxied = row.proxiedVoteWeight + (w - weight k))
    (heeded : heedsProxied c e v.proxy row proxied = true)
    (h : setProxied c e v.proxy row proxied = .ok e') :
    ∃ weight', Given st pending k w weight e weight' e' := by
  have apart (j : Name) (later : Reaches e.standing v.proxy j) : j ≠ k := fun here =>
    past (here ▸ later)
  have agrees (j : Name) (apart : j ≠ k) (before : Agrees weight e j) :
      Agrees (Function.update weight k w)
        { e with voters := e.voters.insert v.proxy { row with proxiedVoteWeight := proxied } } j := by
    intro u there
    rw [Function.update_of_ne apart]
    simp only [Table.lookup_insert] at there
    split at there
    · rename_i here
      cases there
      exact before row (here ▸ found)
    · exact before u there
  obtain ⟨weight', passed⟩ := propagate_passed exact ballots.proxied.acyclic ballots.distinct
    (Reweighed.voter found (by rfl)).standing (by rw [Table.lookup_insert, if_pos rfl])
    (fun j later => chosen j (apart j later))
    (fun j later => agrees j (apart j later) (known j (apart j later)))
    (tallied.toProxy mem choice least named found given) heeded h
  refine ⟨weight', passed.tallied, ?_, fun j apart before => passed.agrees j (agrees j apart before)⟩
  rw [passed.others k past, Function.update_self]

theorem withdrawVote_given (exact : c.fp.Additive) (ballots : Ballots e)
    (tallied : Tallied e.standing (fun _ => 0) weight e) (known : ∀ j, Agrees weight e j)
    (found : e.voters.lookup k = some voter) {proxy : Name}
    (heeded : heedsBallot c e voter proxy = true)
    (h : withdrawVote c e voter = .ok (e', deltas)) :
    ∃ weight', Given e.standing (shiftOf deltas) k 0 weight e weight' e' ∧ Ordered deltas := by
  have stands := Election.standing_some found
  have mem := mem_electorate found
  have last : weight k = voter.lastVoteWeight := known k voter found
  rw [heedsBallot, Bool.and_eq_true] at heeded
  simp only [withdrawVote, ite_eq_ok, bind_eq_ok, find_eq_ok, pure_eq_ok, Prod.mk.injEq] at h
  rcases h with ⟨weighs, ⟨named, old, there, _, set, rfl, rfl⟩ | ⟨none, rfl, rfl⟩⟩ |
    ⟨weighs, rfl, rfl⟩
  · have passes := heeded.1
    simp only [named, decide_false, weighs, Bool.not_true, Bool.or_self, Bool.false_or, there,
      Option.all_some] at passes
    obtain ⟨weight', given⟩ := setProxied_given exact ballots tallied mem stands named there
      (le_refl 0) (ballots.past stands named) (fun _ _ => rfl) (fun j _ => known j)
      (by rw [exact.sub, last, zero_sub, sub_eq_add_neg]) passes set
    exact ⟨weight', given, .nil⟩
  · have taken := tallied.toProducers mem stands (le_refl 0) (not_not.mp none)
    have ordered : Ordered (voter.producers.foldl
        (fun deltas p => adjust c p (fun d => c.fp.sub d voter.lastVoteWeight) false deltas) []) :=
      adjusted_ordered _ .nil
    have distinct : voter.producers.Nodup := ballots.distinct k _ stands
    have less (d : R) : c.fp.sub d voter.lastVoteWeight = d + -voter.lastVoteWeight := by
      rw [exact.sub, sub_eq_add_neg]
    refine ⟨_, .update ?_, ordered⟩
    convert taken using 1
    funext p
    rw [shiftOf_adjusted exact.zero less distinct, last, zero_sub]
    rfl
  · have nothing : weight k = 0 := by
      rw [exact.lt, exact.zero, decide_eq_true_eq, not_lt] at weighs
      exact le_antisymm (last ▸ weighs) (tallied.nonneg k)
    exact ⟨weight, ⟨tallied, nothing, fun j _ before => before⟩, .nil⟩

/-- The vote counts for what it was cast for. -/
theorem castVote_given (exact : c.fp.Additive) (ballots : Ballots e)
    (tallied : Tallied e.standing (shiftOf deltas) weight e) (ordered : Ordered deltas)
    (nothing : weight k = 0) (mem : k ∈ e.electorate) (known : ∀ j, j ≠ k → Agrees weight e j)
    (least : 0 ≤ w) (past : v.proxy ≠ NOBODY → ¬ Reaches e.standing v.proxy k)
    (distinct : v.producers.Nodup)
    (heeded : v.proxy ≠ NOBODY → ∀ new, e.voters.lookup v.proxy = some new →
      heedsProxied c e v.proxy new (c.fp.add new.proxiedVoteWeight w) = true) {voting : Bool}
    (h : castVote c e deltas w v.proxy v.producers voting = .ok (e', deltas')) :
    ∃ weight', Given (Function.update e.standing k (some v)) (shiftOf deltas') k w weight e weight' e' ∧
      Ordered deltas' := by
  have chosen := tallied.choose nothing v
  have choice : Function.update e.standing k (some v) k = some v := Function.update_self _ _ _
  have counts : c.fp.le c.fp.zero w = true := by
    rw [exact.le, exact.zero, decide_eq_true_eq]
    exact least
  simp only [castVote, counts, if_true, ite_eq_ok, bind_eq_ok, find_eq_ok, require_eq_ok, pure_eq_ok,
    exists_const, Prod.mk.injEq] at h
  rcases h with ⟨named, new, there, -, _, set, rfl, rfl⟩ | ⟨none, rfl, rfl⟩
  · obtain ⟨weight', given⟩ := setProxied_given exact ballots chosen mem choice named there least
      (past named) (fun j apart => Function.update_of_ne apart _ _) known
      (by rw [exact.add, nothing, sub_zero]) (heeded named new there) set
    exact ⟨weight', given, ordered⟩
  · have given := chosen.toProducers mem choice least (not_not.mp none)
    refine ⟨_, .update ?_, adjusted_ordered _ ordered⟩
    convert given using 1
    funext p
    rw [shiftOf_adjusted exact.zero (fun d => exact.add d w) distinct, nothing, sub_zero]

/-- The ballot of `k` is withdrawn, cast anew, and counted. -/
structure Turn (c : Ctx R) (e : Election R) (k : Name) (voter : VoterInfo R) (new : Standing)
    (voting : Bool) (weight : Name → R) (e' : Election R) where
  withdrawn : Election R
  taken : Deltas R
  left : Name → R
  cast : Election R
  deltas : Deltas R
  given : Name → R
  accrued : Accrued R
  took : withdrawVote c (activateStake c e voter) voter = .ok (withdrawn, taken)
  gave : castVote c withdrawn taken (voteWeight c voter) new.proxy new.producers voting =
    .ok (cast, deltas)
  looped : deltas.foldlM (applyDelta c voting) (Accrued.start c cast) = .ok accrued
  done : e' = { accrued.settle c with
    voters := (accrued.settle c).voters.modify k fun v =>
      { v with
        lastVoteWeight := voteWeight c voter
        producers := new.producers
        proxy := new.proxy } }
  before : Given e.standing (shiftOf taken) k 0 weight (activateStake c e voter) left withdrawn
  after : Given (Function.update e.standing k (some new)) (shiftOf deltas) k (voteWeight c voter)
    left withdrawn given cast
  ordered : Ordered deltas

theorem activateStake_voters {D : Type} {c : Ctx D} {e : Election D} {voter : VoterInfo D} :
    (activateStake c e voter).voters = e.voters := by
  unfold activateStake
  split
  · rfl
  · rfl

theorem updateVotes_turn (exact : c.fp.Additive) (ballots : Ballots e)
    (tallied : Tallied e.standing (fun _ => 0) weight e) (known : ∀ j, Agrees weight e j)
    (found : e.voters.lookup k = some voter) {proxy : Name} {producers : List Name} {voting : Bool}
    (again : voting = true ∨ proxy = voter.proxy)
    (heeded : heedsBallot c (activateStake c e voter) voter proxy = true)
    (h : updateVotes c e k proxy producers voting = .ok e') :
    Nonempty (Turn c e k voter { voter.standing with proxy, producers } voting weight e') := by
  have least := tallied.weighs exact found
  obtain ⟨_, -, -, same, -, named, -⟩ := updateVotes_ok h
  cases found.symm.trans same
  simp only [updateVotes, bind_eq_ok, require_eq_ok, find_eq_ok, pure_eq_ok, exists_const,
    Prod.exists] at h
  obtain ⟨_, ballot, voter, same, -, withdrawn, deltas, took, cast, deltas', gave, accrued, looped,
    rfl⟩ := h
  cases found.symm.trans same
  have active : Reweighed e (activateStake c e voter) := activateStake_reweighed
  have voters : (activateStake c e voter).voters = e.voters := activateStake_voters
  obtain ⟨taken, given, ordered⟩ := withdrawVote_given exact (ballots.reweighed active)
    (active.standing ▸ activateStake_tallied tallied) (fun j u there => known j u (voters ▸ there))
    (voters ▸ found) heeded took
  have left := active.trans (withdrawVote_reweighed took)
  have ballots' := ballots.reweighed left
  rw [active.standing] at given
  have stands : withdrawn.standing k = some voter.standing := by
    rw [left.standing, Election.standing_some found]
  obtain ⟨row, there, -⟩ := standing_row stands
  have distinct : producers.Nodup := by
    simp only [checkBallot, ite_eq_ok, bind_eq_ok, require_eq_ok, exists_const] at ballot
    rcases ballot with ⟨-, alone, -⟩ | ⟨-, -, ordered⟩
    · rw [List.length_eq_zero_iff.mp alone]
      exact .nil
    · exact sorted_nodup ordered
  have past (chosen : proxy ≠ NOBODY) : ¬ Reaches withdrawn.standing proxy k := by
    intro reached
    rcases again with new | same
    · obtain ⟨apart, -, proxied, row, registered⟩ := named chosen
      exact apart (reaches_proxy ballots' (left.standing ▸ row) (registered new) reached)
    · subst same
      exact ballots'.past stands chosen reached
  have passes (chosen : proxy ≠ NOBODY) (new : VoterInfo R)
      (row : withdrawn.voters.lookup proxy = some new) :
      heedsProxied c withdrawn proxy new (c.fp.add new.proxiedVoteWeight (voteWeight c voter)) =
        true := by
    rw [heedsBallot, Bool.and_eq_true] at heeded
    have heeded := heeded.2
    simp only [chosen, decide_false, Bool.false_or, took, row, Option.all_some] at heeded
    exact heeded
  have before : Tallied withdrawn.standing (shiftOf deltas) taken withdrawn :=
    left.standing ▸ given.tallied
  obtain ⟨weight', cast', ordered'⟩ := castVote_given
    (v := { voter.standing with proxy, producers }) exact ballots' before ordered given.own
    (mem_electorate there) (fun j apart => given.agrees j apart fun u row =>
      known j u (voters ▸ row)) least past distinct passes gave
  rw [left.standing] at cast'
  exact ⟨withdrawn, deltas, taken, cast, deltas', weight', accrued, took, gave, looped, rfl, given,
    cast', ordered'⟩

/-- No votes are cut off at zero when they are counted. -/
theorem Turn.enough {new : Standing} {voting : Bool} (turn : Turn c e k voter new voting weight e')
    (p : Name) (votes : R) (there : votesOf turn.cast p = some votes) :
    0 ≤ votes + shiftOf turn.deltas p := by
  rw [turn.after.tallied.votes p votes there]
  exact weigh_nonneg turn.after.tallied.nonneg

theorem updateVotes_tallied (exact : c.fp.Additive) (known : ∀ j, Agrees weight e j)
    (found : e.voters.lookup k = some voter) {proxy : Name} {producers : List Name} {voting : Bool}
    (turn : Turn c e k voter { voter.standing with proxy, producers } voting weight e') :
    ∃ weight', Tallied e'.standing (fun _ => 0) weight' e' ∧ ∀ j, Agrees weight' e' j := by
  have revoted : Revoted (fun p => shiftOf turn.deltas p + 0) turn.cast (turn.accrued.settle c) :=
    (applyDelta_revoted exact turn.ordered turn.enough turn.looped).trans
      (settle_revoted turn.accrued)
  have active : Reweighed e (activateStake c e voter) := activateStake_reweighed
  have after := active.trans ((withdrawVote_reweighed turn.took).trans
    ((castVote_ok turn.gave).1.trans
      ((loop_reweighed (fun _ _ _ => applyDelta_reweighed) _ turn.looped).trans
        (settle_reweighed (c := c)))))
  have settled : Tallied (Function.update e.standing k
      (some { voter.standing with proxy, producers })) (fun _ => 0) turn.given
      (turn.accrued.settle c) := by
    refine Tallied.revoted ?_ revoted
    convert turn.after.tallied using 1
    funext p
    rw [zero_add, add_zero]
  have written : Election.standing { turn.accrued.settle c with
        voters := (turn.accrued.settle c).voters.modify k fun v =>
          { v with lastVoteWeight := voteWeight c voter, producers, proxy } } =
      Function.update (turn.accrued.settle c).standing k
        (some { voter.standing with producers, proxy }) :=
    standing_ballot (by rw [after.standing, Election.standing_some found])
  have voters : (activateStake c e voter).voters = e.voters := activateStake_voters
  rw [turn.done]
  refine ⟨turn.given, ?_, fun j u row => ?_⟩
  · rw [written, after.standing]
    exact settled.modify (fun _ => rfl) fun _ => rfl
  · simp only [Table.lookup_modify] at row
    split at row
    · rename_i here
      obtain ⟨old, -, rfl⟩ := Option.map_eq_some_iff.mp row
      rw [here, turn.after.own]
    · rename_i apart
      rw [revoted.voters] at row
      exact turn.after.agrees j apart (turn.before.agrees j apart fun u row =>
        known j u (voters ▸ row)) u row

end DecentralBank.System
