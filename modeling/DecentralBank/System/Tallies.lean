import DecentralBank.System.Votes

/-!
# Votes add up

Whatever is done in any order, the votes of a producer are the weights of those
who vote for it, the proxied weight of a proxy the weights of those who name it,
and all votes are counted in all.
-/

namespace DecentralBank.System

open Checked Runs Tally

/-! ## What is not a vote -/

section

variable {D : Type} {c : Ctx D} {s s' : State D} {e e' : Election D} {a : Action}

/-- A producer's row changes in what is neither votes nor the time of its last claim. -/
structure Retold (e e' : Election D) (p : Name) (prod prod' : ProducerInfo D) : Prop where
  found : e.producers.lookup p = some prod
  written : e'.producers = e.producers.insert p prod'
  votes : prod'.totalVotes = prod.totalVotes
  claim : prod'.lastClaimTime = prod.lastClaimTime

/-- Nothing is said of votes, or of the pay for them. -/
structure Idle (e e' : Election D) : Prop where
  voters : e'.voters = e.voters
  weight : e'.gstate.totalProducerVoteWeight = e.gstate.totalProducerVoteWeight
  producers : e'.producers = e.producers ∨ ∃ p prod prod', Retold e e' p prod prod'
  producers2 : e'.producers2 = e.producers2
  share : e'.gstate2.totalProducerVotepayShare = e.gstate2.totalProducerVotepayShare
  gstate3 : e'.gstate3 = e.gstate3

theorem Idle.refl (e : Election D) : Idle e e := ⟨rfl, rfl, Or.inl rfl, rfl, rfl, rfl⟩

/-- Nobody votes, and producers keep their votes or have none yet. -/
structure Quiet (zero : D) (e e' : Election D) : Prop where
  voters : e'.voters = e.voters
  weight : e'.gstate.totalProducerVoteWeight = e.gstate.totalProducerVoteWeight
  producers : e'.producers = e.producers ∨ ∃ p prod,
    e'.producers = e.producers.insert p prod ∧
      prod.totalVotes = (votesOf e p).getD zero

variable {zero : D}

theorem Quiet.row {p : Name} {prod prod' : ProducerInfo D} {e : Election D}
    (found : e.producers.lookup p = some prod) (same : prod'.totalVotes = prod.totalVotes) :
    prod'.totalVotes = (votesOf e p).getD zero := by
  rw [votesOf, found, same]
  rfl

theorem settleClaim_producers (owner : Name) (prod : ProducerInfo D) :
    (settleClaim c e owner prod).2.2.producers =
      e.producers.insert owner { prod with lastClaimTime := c.now, unpaidBlocks := 0 } := by
  have paid (e : Election D) (share : D) (crossed : Bool) :
      (perVotePay c e prod share crossed).2.producers = e.producers := by
    unfold perVotePay
    simp only
    split
    · split
      · rfl
      · rfl
    · split
      · rfl
      · rfl
  have written {rows : Table Name (ProducerInfo D)} (same : rows = e.producers) :
      rows.insert owner { prod with lastClaimTime := c.now, unpaidBlocks := 0 } =
        e.producers.insert owner { prod with lastClaimTime := c.now, unpaidBlocks := 0 } := by
    rw [same]
  unfold settleClaim
  cases e.producers2.lookup owner with
  | none => exact written (paid _ _ _)
  | some prod2 => exact written (paid _ _ _)

theorem claimrewards_quiet {owner : Name} (h : claimrewards c s owner = .ok s') :
    Quiet zero s.toElection s'.toElection := by
  have voters := (claimrewards_steady h).voters
  obtain ⟨prod, gstate, found, kept, same⟩ := claimrewards_election h
  have rows := settleClaim_producers (c := c) (e := { s.toElection with gstate }) owner prod
  have weight := congrArg GlobalState.totalProducerVoteWeight
    (settleClaim_ok c { s.toElection with gstate } owner prod).2.gstate
  rw [← same] at rows weight
  exact ⟨voters, weight.trans kept, Or.inr ⟨owner, _, rows, Quiet.row found rfl⟩⟩

theorem regproducer_quiet {producer : Name} {key : PublicKey} {url : List UInt8} {location : Nat}
    (h : regproducer c s producer key url location = .ok s') :
    Quiet c.fp.zero s.toElection s'.toElection := by
  obtain ⟨e, rfl, registers⟩ := regproducer_ok h
  cases registers with
  | new absent votes =>
    refine ⟨rfl, rfl, Or.inr ⟨producer, _, rfl, ?_⟩⟩
    rw [votes, votesOf, absent]
    rfl
  | again found _ kept | late found _ kept =>
    exact ⟨rfl, rfl, Or.inr ⟨producer, _, rfl, Quiet.row found kept.votes⟩⟩

theorem Idle.quiet {e e' : Election D} (idle : Idle e e') : Quiet zero e e' := by
  refine ⟨idle.voters, idle.weight, idle.producers.imp_right ?_⟩
  rintro ⟨p, prod, prod', retold⟩
  exact ⟨p, prod', retold.written, Quiet.row retold.found retold.votes⟩

theorem onblock_idle {slot : Nat} {producer : Name} (h : onblock c s slot producer = .ok s') :
    Idle s.toElection s'.toElection := by
  simp only [onblock, bind_eq_ok, ite_eq_ok, pure_eq_ok] at h
  obtain ⟨-, -, ⟨-, rfl⟩ | ⟨-, rfl⟩⟩ := h
  · exact ⟨rfl, rfl, Or.inl rfl, rfl, rfl, rfl⟩
  · cases found : s.producers.lookup producer with
    | none =>
      simp only [countBlock, found]
      obtain ⟨update, close, bids, -, same⟩ := everyMinute_ok (c := c) slot
      rw [same]
      exact ⟨rfl, rfl, Or.inl rfl, rfl, rfl, rfl⟩
    | some prod =>
      simp only [countBlock, found]
      obtain ⟨update, close, bids, -, same⟩ := everyMinute_ok (c := c) slot
      rw [same]
      exact ⟨rfl, rfl, Or.inr ⟨producer, prod, _, found, rfl, rfl, rfl⟩, rfl, rfl, rfl⟩

/-- A call that registers a producer, or claims its rewards. -/
def Action.settles : Action → Bool
  | .regproducer .. | .claimrewards .. => true
  | _ => false

theorem apply_unvoted (other : a.votes = false) (apart : a.settles = false)
    (h : a.apply c s = .ok s') : Idle s.toElection s'.toElection := by
  have traded {payers : List Name} (trades : Trades payers s s') :
      Idle s.toElection s'.toElection := by
    obtain ⟨_, _, _, _, _, _, _, _, rfl⟩ := trades.rest
    exact ⟨rfl, rfl, Or.inl rfl, rfl, rfl, rfl⟩
  cases a <;> try cases other
  case regproducer => cases apart
  case claimrewards => cases apart
  case init version core =>
    simp only [Action.apply, System.init, bind_eq_ok, pure_eq_ok] at h
    obtain ⟨-, -, -, -, -, -, _, -, -, -, -, -, rfl⟩ := h
    exact .refl _
  case newaccount creator newact =>
    obtain ⟨_, _, -, -, -, rfl⟩ := newaccount_ok h
    exact .refl _
  case setram size => exact traded (setram_trades h)
  case setramrate rate => exact traded (setramrate_trades h)
  case buyrambytes payer receiver bytes => exact traded (buyrambytes_trades h)
  case buyram payer receiver quant => exact traded (buyram_trades h)
  case sellram account bytes => exact traded (sellram_trades h)
  case rmvproducer producer =>
    simp only [Action.apply, rmvproducer, bind_eq_ok, find_eq_ok, pure_eq_ok] at h
    obtain ⟨-, -, prod, found, rfl⟩ := h
    exact ⟨rfl, rfl, Or.inr ⟨producer, prod, _, found, rfl, rfl, rfl⟩, rfl, rfl, rfl⟩
  case updtrevision revision =>
    simp only [Action.apply, updtrevision, bind_eq_ok, pure_eq_ok] at h
    obtain ⟨-, -, -, -, -, -, -, -, rfl⟩ := h
    exact ⟨rfl, rfl, Or.inl rfl, rfl, rfl, rfl⟩
  case bidname bidder newname bid =>
    obtain ⟨_, _, _, rfl, -⟩ := bidname_moves h
    exact .refl _
  case bidrefund bidder newname =>
    obtain ⟨_, _, rfl, -⟩ := bidrefund_moves h
    exact .refl _
  case refund owner =>
    simp only [Action.apply, refund, bind_eq_ok, pure_eq_ok] at h
    obtain ⟨-, -, _, -, -, -, _, -, paid, sent, rfl⟩ := h
    rw [← pay_election sent]
    exact .refl _
  case unregprod producer =>
    simp only [Action.apply, unregprod, bind_eq_ok, find_eq_ok, pure_eq_ok] at h
    obtain ⟨-, -, prod, found, rfl⟩ := h
    exact ⟨rfl, rfl, Or.inr ⟨producer, prod, _, found, rfl, rfl, rfl⟩, rfl, rfl, rfl⟩
  case onblock slot producer => exact onblock_idle h

theorem settles_quiet (settles : a.settles = true) (h : a.apply c s = .ok s') :
    Quiet c.fp.zero s.toElection s'.toElection := by
  cases a <;> try cases settles
  case regproducer producer key url location => exact regproducer_quiet h
  case claimrewards owner => exact claimrewards_quiet h

/-- What is not a vote, a proxy or stake. -/
theorem apply_quiet (other : a.votes = false) (h : a.apply c s = .ok s') :
    Quiet c.fp.zero s.toElection s'.toElection := by
  by_cases settles : a.settles = true
  · exact settles_quiet settles h
  · exact (apply_unvoted other (Bool.eq_false_iff.mpr settles) h).quiet

end

/-! ## What is dropped -/

section

variable {D : Type}

/-- No change is dropped when `owner` has `total` more staked. -/
def heedsStake (c : Ctx D) (e : Election D) (owner : Name) (total : Asset) : Bool :=
  let voter := restake c (e.voters.lookup owner) total
  heedsBallot c (activateStake c { e with voters := e.voters.insert owner voter } voter) voter
    voter.proxy

/-- No change of a voter's weight is dropped for being too small. -/
def Call.heeds (self : Name) (s : State D) (call : Call D) : Bool :=
  let c : Ctx D := ⟨self, call.auth, call.now, call.fp⟩
  match call.action with
  | .voteproducer voterName proxy _ =>
    (s.voters.lookup voterName).all fun voter =>
      heedsBallot c (activateStake c s.toElection voter) voter proxy
  | .regproxy proxy isProxy =>
    (s.voters.lookup proxy).all fun voter =>
      let voter := { voter with isProxy }
      System.heeds c s.depth { s.toElection with voters := s.voters.insert proxy voter } voter
  | .delegatebw source receiver net cpu transfer =>
    heedsStake c s.toElection (delegator source receiver transfer)
      ⟨net.amount + cpu.amount, net.symbol⟩
  | .undelegatebw source _ net cpu =>
    heedsStake c s.toElection source ⟨-net.amount + -cpu.amount, net.symbol⟩
  | _ => true

/-- A refund changes no weight. -/
theorem heeds_refunds {self : Name} (s : State D) (call : Call D)
    (refunds : call.action.refunds = true) : call.heeds self s = true := by
  unfold Call.heeds
  cases action : call.action <;> first | rfl | (rw [action] at refunds; cases refunds)

end

/-! ## Every action keeps the tallies -/

variable {R : Type} [AddCommGroup R] [LinearOrder R] [IsOrderedAddMonoid R] {c : Ctx R}
  {s s' : State R} {e e' : Election R} {a : Action} {k : Name} {voter : VoterInfo R}

omit [IsOrderedAddMonoid R] in
theorem Balanced.quiet (h : Balanced e) (ballots : Ballots e') (quiet : Quiet 0 e e') :
    Balanced e' := by
  have electorate : e'.electorate = e.electorate := by
    rw [Election.electorate, quiet.voters, Election.electorate]
  have standing : e'.standing = e.standing := by
    funext j
    rw [Election.standing, quiet.voters, Election.standing]
  have weights : weightOf e' = weightOf e := by
    funext j
    rw [weightOf, quiet.voters, weightOf]
  have unbacked (p : Name) (none : votesOf e p = none) (j : Name) :
      backs e.standing p j = false := by
    cases stands : e.standing j with
    | none => rw [backs, stands, Option.any_none]
    | some v =>
      rw [backs_some stands, decide_eq_false_iff_not]
      intro voted
      have there := (h.ballots.castable j v stands).registered p voted.2
      rw [Election.registers, Option.map_eq_none_iff.mp none] at there
      cases there
  have votes (p : Name) : (votesOf e p).getD 0 = weigh e.electorate (backs e.standing p) (weightOf e) := by
    cases found : votesOf e p with
    | none => exact (weigh_none fun j _ => unbacked p found j).symm
    | some votes => exact (add_zero votes).symm.trans (h.tallied.votes p votes found)
  refine ⟨ballots, ?_⟩
  rw [standing, weights]
  refine ⟨fun p total there => ?_, fun q row there => ?_, ?_, h.tallied.nonneg, fun j row there => ?_⟩
  · rw [electorate, add_zero, ← votes]
    rcases quiet.producers with same | ⟨q, prod, same, kept⟩
    · rw [votesOf, same] at there
      rw [votesOf, there, Option.getD_some]
    · rw [votesOf, same, Table.lookup_insert] at there
      split at there
      · rename_i here
        cases there
        rw [here, kept]
      · rw [votesOf, there, Option.getD_some]
  · rw [electorate]
    exact h.tallied.proxied q row (quiet.voters ▸ there)
  · rw [quiet.weight, h.tallied.total]
    rcases quiet.producers with same | ⟨q, prod, same, kept⟩
    · rw [same]
    · have own : (e.producers.lookup q).elim 0 ProducerInfo.totalVotes = prod.totalVotes := by
        rw [kept, votesOf]
        cases e.producers.lookup q with
        | none => rfl
        | some old => rfl
      rw [same, sum_insert, own, sub_add_cancel]
  · exact h.tallied.staked j row (quiet.voters ▸ there)

theorem Balanced.vote (exact : c.fp.Additive) (h : Balanced e)
    (found : e.voters.lookup k = some voter) {proxy : Name} {producers : List Name}
    (heeded : heedsBallot c (activateStake c e voter) voter proxy = true)
    (voted : updateVotes c e k proxy producers true = .ok e') : Balanced e' := by
  have counts : c.fp.le c.fp.zero (voteWeight c voter) = true := by
    rw [exact.le, exact.zero, decide_eq_true_eq]
    exact h.tallied.weighs exact found
  obtain ⟨turn⟩ := updateVotes_turn exact h.ballots h.tallied (weightOf_agrees e) found (Or.inl rfl)
    heeded voted
  obtain ⟨weight', tallied, known⟩ := updateVotes_tallied exact (weightOf_agrees e) found turn
  exact ⟨h.ballots.vote found counts voted, tallied.own known⟩

omit [IsOrderedAddMonoid R] in
/-- A voter becomes a proxy, or is one no more. -/
theorem Balanced.switch (h : Balanced e) (found : e.voters.lookup k = some voter) {isProxy : Bool}
    (single : isProxy = false ∨ voter.proxy = NOBODY) :
    Balanced { e with voters := e.voters.insert k { voter with isProxy } } :=
  h.rewrite found
    (h.ballots.insert (h.ballots.proxied.switch found single) (Or.inr ⟨voter, found, rfl, rfl⟩))
    rfl rfl rfl rfl (h.tallied.staked k voter found)

/-- The proxied weight counts from now on, or no more. -/
theorem Balanced.register (exact : c.fp.Additive) (h : Balanced s.toElection) {proxy : Name}
    {isProxy : Bool} (done : regproxy c s proxy isProxy = .ok s')
    (heeded : ∀ voter, s.voters.lookup proxy = some voter → heeds c s.depth { s.toElection with
      voters := s.voters.insert proxy { voter with isProxy } } { voter with isProxy } = true) :
    Balanced s'.toElection := by
  have ballots := h.ballots.register done
  obtain ⟨e, rfl, ⟨found, rfl⟩ | ⟨voter, found, single, passed⟩⟩ := regproxy_ok done
  · exact h.enroll found ballots rfl rfl exact.zero exact.zero (le_refl 0)
  · have switched := h.switch found single
    obtain ⟨weight', after⟩ := propagate_passed exact switched.ballots.proxied.acyclic
      switched.ballots.distinct rfl (by rw [Table.lookup_insert, if_pos rfl]) (fun _ _ => rfl)
      (fun j _ => weightOf_agrees _ j) switched.tallied (heeded voter found) passed
    refine ⟨ballots, Tallied.own ?_ fun j => after.agrees j (weightOf_agrees _ j)⟩
    rw [(propagate_reweighed passed).standing]
    exact after.tallied

omit [IsOrderedAddMonoid R] in
/-- The row of `owner` has a new stake. -/
theorem Balanced.stake (exact : c.fp.Additive) (h : Balanced s.toElection) {owner : Name}
    {total : Asset} (nonneg : 0 ≤ (System.restake c (s.voters.lookup owner) total).staked) :
    Balanced { s.toElection with
      voters := s.voters.insert owner (System.restake c (s.voters.lookup owner) total) } := by
  have ballots := h.ballots.restake (c := c) owner total
  cases found : s.voters.lookup owner with
  | none =>
    rw [found] at ballots nonneg
    exact h.enroll found ballots rfl rfl exact.zero exact.zero nonneg
  | some voter =>
    rw [found] at ballots nonneg
    exact h.rewrite found ballots rfl rfl rfl rfl nonneg

/-- The row of the delegator has its new stake, and its vote the weight of it. -/
theorem Balanced.changebw (exact : c.fp.Additive) (h : Balanced s.toElection)
    {source receiver : Name} {net cpu : Asset} {transfer : Bool}
    (done : changebw c s source receiver net cpu transfer = .ok s')
    (heeded : heedsStake c s.toElection (delegator source receiver transfer)
      ⟨net.amount + cpu.amount, net.symbol⟩ = true) : Balanced s'.toElection := by
  obtain ⟨nonneg, there, again | same⟩ := changebw_restakes done
  · have staked := h.stake exact nonneg
    obtain ⟨turn⟩ := updateVotes_turn exact staked.ballots staked.tallied (weightOf_agrees _) there
      (Or.inr rfl) heeded again
    obtain ⟨weight', tallied, known⟩ := updateVotes_tallied exact (weightOf_agrees _) there turn
    exact ⟨staked.ballots.reweighed (updateVotes_again there again), tallied.own known⟩
  · rw [same]
    exact h.stake exact nonneg

theorem Balanced.cast (exact : c.fp.Additive) (h : Balanced s.toElection) (votes : a.votes = true)
    (heeded : (⟨c.auth, c.now, c.fp, a⟩ : Call R).heeds c.self s = true)
    (done : a.apply c s = .ok s') : Balanced s'.toElection := by
  cases a <;> try cases votes
  case voteproducer voterName proxy producers =>
    simp only [Action.apply, voteproducer, bind_eq_ok, pure_eq_ok] at done
    obtain ⟨-, -, e, voted, rfl⟩ := done
    obtain ⟨voter, -, -, found, -⟩ := updateVotes_ok voted
    simp only [Call.heeds, found, Option.all_some] at heeded
    exact h.vote exact found heeded voted
  case regproxy proxy isProxy =>
    refine h.register exact done fun voter found => ?_
    simp only [Call.heeds, found, Option.all_some] at heeded
    exact heeded
  case delegatebw source receiver net cpu transfer =>
    obtain ⟨-, -, -, -, -, -, changed⟩ := delegatebw_ok done
    exact h.changebw exact changed heeded
  case undelegatebw source receiver net cpu =>
    obtain ⟨-, -, -, -, -, changed⟩ := undelegatebw_ok done
    exact h.changebw exact changed heeded

theorem Balanced.apply (exact : c.fp.Additive) (h : Balanced s.toElection)
    (heeded : (⟨c.auth, c.now, c.fp, a⟩ : Call R).heeds c.self s = true)
    (done : a.apply c s = .ok s') : Balanced s'.toElection := by
  by_cases votes : a.votes = true
  · exact h.cast exact votes heeded done
  · have other := Bool.eq_false_iff.mpr votes
    have quiet := apply_quiet other done
    rw [exact.zero] at quiet
    exact h.quiet (h.ballots.steady (apply_steady other done)) quiet

/-! ## Every run -/

omit [IsOrderedAddMonoid R] in
/-- The sizes and parameters of the chain are no votes. -/
theorem Balanced.regauge (h : Balanced e) {gstate : GlobalState R}
    (same : gstate.totalProducerVoteWeight = e.gstate.totalProducerVoteWeight) :
    Balanced { e with gstate } :=
  h.quiet (h.ballots.steady ⟨rfl, fun _ => id⟩) ⟨rfl, same, Or.inl rfl⟩

theorem Balanced.moves {self : Name} {fp : Doubles R} (exact : fp.Additive) {who : Name → Bool}
    (h : Balanced s.toElection)
    (moved : Moves who (fun s call => call.heeds self s) self fp s s') :
    Balanced s'.toElection := by
  cases moved with
  | @act auth now a s' size known signs allowed done =>
    have kept := h.apply (c := ⟨self, auth, now, fp⟩) exact allowed done
    exact kept.regauge rfl
  | params => exact h.regauge rfl
  | token signs done => exact h
  | stay => exact h

omit [IsOrderedAddMonoid R] in
theorem Balanced.empty (voters : e.voters = ∅) (producers : e.producers = ∅)
    (zero : e.gstate.totalProducerVoteWeight = 0) : Balanced e := by
  refine ⟨.empty voters, fun p votes there => ?_, fun q row there => ?_, ?_, fun k => ?_,
    fun k row there => ?_⟩
  · rw [votesOf, producers, AList.lookup_empty] at there
    cases there
  · rw [voters, AList.lookup_empty] at there
    cases there
  · rw [zero, producers]
    rfl
  · rw [weightOf, voters, AList.lookup_empty]
    exact le_refl 0
  · rw [voters, AList.lookup_empty] at there
    cases there

/-- Every vote counts once, for what its voter chose, with the weight its row says. -/
structure AddsUp (e : Election R) : Prop where
  votes : ∀ p prod, e.producers.lookup p = some prod →
    prod.totalVotes = weigh e.electorate (backs e.standing p) (weightOf e)
  proxied : ∀ q row, e.voters.lookup q = some row →
    row.proxiedVoteWeight = weigh e.electorate (follows e.standing q) (weightOf e)
  total : e.gstate.totalProducerVoteWeight = sum ProducerInfo.totalVotes e.producers

/-- As long as doubles are exact and no change of weight is dropped, votes add up: those of every
producer, those of every proxy, and all of them together. -/
theorem votes_tally (self : Name) (fp : Doubles R) (exact : fp.Additive) (ch : Blockchain R)
    (known : self ∈ ch.accounts) (idle : ch.deferred = ∅) (voters : ch.voters = ∅)
    (producers : ch.producers = ∅) (zero : ch.gstate.totalProducerVoteWeight = 0)
    (events : List Event)
    (heeded : Along (Blockchain.step self fp)
      (fun ch e => e.allowed (fun s call => call.heeds self s) fp ch = true) ch events) :
    AddsUp (run (Blockchain.step self fp) ch events).toElection := by
  have queued : Queued (fun _ => true) self ch := .idle known rfl idle
  have balanced := (moves_invariant (I := fun s => Balanced s.toElection) heeds_refunds
    (fun _ _ h moved => h.moves exact moved) queued (.empty voters producers zero)
    (fun e _ => by cases e <;> simp [Event.signedBy]) heeded).2
  refine ⟨fun p prod found => ?_, balanced.tallied.proxied, balanced.tallied.total⟩
  have votes := balanced.tallied.votes p prod.totalVotes (votesOf_some found)
  rw [← votes, add_zero]

section

open Sample

theorem whole_additive : whole.Additive where
  zero := rfl
  add _ _ := rfl
  sub _ _ := rfl
  lt _ _ := rfl
  le _ _ := rfl
  weighs staked _ nonneg := nonneg.trans_eq (mul_one staked).symm

/-- `nick` votes through `rick`, who votes for `dick` and then for nobody, and `nick` leaves. -/
def canvassing : List Event :=
  [signed dick 100 (.regproducer dick ⟨0, [1]⟩ [] 0),
    signed nick 101 (.regproducer nick ⟨0, [2]⟩ [] 0),
    signed rick 102 (.regproxy rick true),
    signed rick 103 (.voteproducer rick NOBODY [dick, nick]),
    signed nick 104 (.delegatebw nick nick (eos 1000) (eos 0) false),
    signed nick 105 (.voteproducer nick rick []),
    signed rick 106 (.delegatebw rick nick (eos 300) (eos 200) false),
    signed nick 107 (.delegatebw nick nick (eos 0) (eos 500) false),
    signed nick 108 (.undelegatebw nick nick (eos 200) (eos 0)),
    signed rick 109 (.regproxy rick false),
    signed rick 110 (.regproxy rick true),
    signed nick 111 (.voteproducer nick NOBODY [nick])]

theorem canvassing_tally :
    (((run (Blockchain.step eosio whole) (blockchain activated) canvassing).producers.lookup
      nick).map ProducerInfo.totalVotes = some 1800) ∧
    AddsUp (run (Blockchain.step eosio whole) (blockchain activated) canvassing).toElection :=
  ⟨by decide +kernel, votes_tally eosio whole whole_additive (blockchain activated) (by decide) rfl
    rfl rfl rfl canvassing (by decide +kernel)⟩

end

end DecentralBank.System
