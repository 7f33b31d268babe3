import Mathlib.Algebra.Order.Field.Rat
import Mathlib.Algebra.Order.Ring.Cast
import Mathlib.Tactic.NormNum
import DecentralBank.System.VotePay

/-!
# What producers have earned

Whatever is done in any order, the total of vote pay is what the producers have
earned together, and no producer has earned more than the total.
-/

namespace DecentralBank.System

open Checked Runs Tally Accrual

variable {R : Type} [Field R] [LinearOrder R] [IsStrictOrderedRing R] {c : Ctx R} {s s' : State R}
  {e e' : Election R} {a : Action} {k owner : Name} {prod : ProducerInfo R} {row voter : VoterInfo R}
  {st : Standings} {pending weight : Name → R} {deltas deltas' : Deltas R} {w : R}

/-! ## Weights are passed on -/

/-- Nothing is pending that would give votes. -/
theorem Tallied.voted (tallied : Tallied st pending weight e) (least : ∀ p, pending p ≤ 0) :
    Voted e := by
  intro p votes there
  have sum := tallied.votes p votes there
  have nonneg : 0 ≤ weigh e.electorate (backs st p) weight := weigh_nonneg tallied.nonneg
  have less := least p
  linarith

theorem Balanced.voted (h : Balanced e) : Voted e := h.tallied.voted fun _ => le_refl 0

theorem propagate_shared (exact : c.fp.Arithmetic)
    (distinct : ∀ k v, st k = some v → v.producers.Nodup) {fuel : Nat} (stands : e.standing = st)
    (found : e.voters.lookup owner = some voter) (h : Shared c.now e) (voted : Voted e)
    (done : propagateWeightChange c fuel e owner voter = .ok e') (after : Voted e') :
    Shared c.now e' := by
  induction fuel generalizing e e' owner voter with
  | zero => cases done
  | succ fuel ih =>
    simp only [propagateWeightChange, bind_eq_ok, require_eq_ok, ite_eq_ok, find_eq_ok, pure_eq_ok,
      exists_const] at done
    obtain ⟨-, passed, step, rfl⟩ := done
    have after : Voted passed := after.congr rfl
    suffices Shared c.now passed from this.congr rfl rfl rfl rfl
    rcases step with ⟨-, ⟨-, proxy, there, done⟩ | ⟨-, shifted, looped, rfl⟩⟩ | ⟨-, rfl⟩
    · exact ih ((Reweighed.voter there (by rfl)).standing.trans stands)
        (by rw [Table.lookup_insert, if_pos rfl]) (h.congr rfl rfl rfl rfl) (voted.congr rfl) done
        after
    · have own : voter.producers.Nodup :=
        distinct owner voter.standing (stands ▸ Election.standing_some found)
      have settling : Settling c shifted :=
        shiftVotes_settling exact own (fun p _ => voted p) (.start exact h) looped
      exact settling.shared exact (after.congr rfl)
    · exact h

theorem setProxied_shared (exact : c.fp.Arithmetic) (ballots : Ballots e)
    (found : e.voters.lookup k = some row) (h : Shared c.now e) (voted : Voted e)
    (done : setProxied c e k row w = .ok e') (after : Voted e') : Shared c.now e' :=
  propagate_shared exact ballots.distinct (Reweighed.voter found (by rfl)).standing
    (by rw [Table.lookup_insert, if_pos rfl]) (h.congr rfl rfl rfl rfl) (voted.congr rfl) done after

/-! ## Votes -/

theorem withdrawVote_shared (exact : c.fp.Arithmetic) (ballots : Ballots e) (h : Shared c.now e)
    (voted : Voted e) (done : withdrawVote c e voter = .ok (e', deltas)) (after : Voted e') :
    Shared c.now e' := by
  simp only [withdrawVote, ite_eq_ok, bind_eq_ok, find_eq_ok, pure_eq_ok, Prod.mk.injEq] at done
  rcases done with ⟨-, ⟨-, old, there, _, set, rfl, -⟩ | ⟨-, rfl, -⟩⟩ | ⟨-, rfl, -⟩
  · exact setProxied_shared exact ballots there h voted set after
  · exact h
  · exact h

/-- Votes are only taken. -/
theorem withdrawVote_takes (exact : c.fp.Additive) (distinct : voter.producers.Nodup)
    (done : withdrawVote c e voter = .ok (e', deltas)) (p : Name) : shiftOf deltas p ≤ 0 := by
  simp only [withdrawVote, ite_eq_ok, bind_eq_ok, find_eq_ok, pure_eq_ok, Prod.mk.injEq] at done
  rcases done with ⟨weighs, ⟨-, old, -, _, -, -, rfl⟩ | ⟨-, -, rfl⟩⟩ | ⟨-, -, rfl⟩
  · exact le_refl 0
  · rw [exact.lt, exact.zero, decide_eq_true_eq] at weighs
    have less (d : R) : c.fp.sub d voter.lastVoteWeight = d + -voter.lastVoteWeight := by
      rw [exact.sub, sub_eq_add_neg]
    rw [shiftOf_adjusted exact.zero less distinct, shiftOf, zero_add]
    split
    · exact (neg_neg_of_pos weighs).le
    · exact le_refl 0
  · exact le_refl 0

/-- Votes for producers are only given when they are counted. -/
theorem castVote_shared (exact : c.fp.Arithmetic) (ballots : Ballots e) (h : Shared c.now e)
    (voted : Voted e) {proxy : Name} {producers : List Name} {voting : Bool}
    (taken : ∀ p, shiftOf deltas p ≤ 0)
    (done : castVote c e deltas w proxy producers voting = .ok (e', deltas'))
    (tallied : Tallied st (shiftOf deltas') weight e') : Shared c.now e' ∧ Voted e' := by
  simp only [castVote, ite_eq_ok, bind_eq_ok, find_eq_ok, require_eq_ok, pure_eq_ok, exists_const,
    Prod.mk.injEq] at done
  rcases done with ⟨-, new, there, -, _, set, rfl, rfl⟩ | ⟨-, rfl, rfl⟩
  · have after := tallied.voted taken
    rcases set with ⟨-, set⟩ | ⟨-, rfl⟩
    · exact ⟨setProxied_shared exact ballots there h voted set after, after⟩
    · exact ⟨h, after⟩
  · exact ⟨h, voted⟩

omit [IsStrictOrderedRing R] in
theorem activateStake_shared {now : Int} (h : Shared now e) : Shared now (activateStake c e voter) := by
  unfold activateStake
  split
  · exact h.congr rfl rfl rfl rfl
  · exact h

theorem activateStake_producers {D : Type} {c : Ctx D} {e : Election D} {voter : VoterInfo D} :
    (activateStake c e voter).producers = e.producers := by
  unfold activateStake
  split
  · rfl
  · rfl

theorem Turn.shared (exact : c.fp.Arithmetic) (ballots : Ballots e)
    (found : e.voters.lookup k = some voter) {new : Standing} {voting : Bool}
    (turn : Turn c e k voter new voting weight e') (h : Shared c.now e) (voted : Voted e) :
    Shared c.now e' := by
  have active : Reweighed e (activateStake c e voter) := activateStake_reweighed
  have ballots₁ := ballots.reweighed active
  have distinct : voter.producers.Nodup :=
    ballots.distinct k voter.standing (Election.standing_some found)
  have takes := withdrawVote_takes exact.toAdditive distinct turn.took
  have voted₁ : Voted turn.withdrawn := turn.before.tallied.voted takes
  have withdrawn : Shared c.now turn.withdrawn :=
    withdrawVote_shared exact ballots₁ (activateStake_shared h)
      (voted.congr activateStake_producers) turn.took voted₁
  obtain ⟨cast, voted₂⟩ := castVote_shared exact (ballots₁.reweighed (withdrawVote_reweighed turn.took))
    withdrawn voted₁ takes turn.gave turn.after.tallied
  have settling : Settling c turn.accrued :=
    applyDelta_settling exact turn.ordered voted₂ turn.enough (.start exact cast) turn.looped
  have revoted : Revoted (shiftOf turn.deltas) turn.cast turn.accrued.election :=
    applyDelta_revoted exact.toAdditive turn.ordered turn.enough turn.looped
  have counted : Voted turn.accrued.election := by
    intro p votes there
    rw [revoted.votes] at there
    obtain ⟨old, before, rfl⟩ := Option.map_eq_some_iff.mp there
    exact turn.enough p old before
  rw [turn.done]
  exact (settling.shared exact counted).congr rfl rfl rfl rfl

/-! ## Producers -/

omit [IsStrictOrderedRing R] in
/-- A producer's row may change in what it earns nothing for. -/
theorem Sharing.idle (h : Sharing e.votePayTotal e) (idle : Idle e e') :
    Sharing e'.votePayTotal e' := by
  have total : e'.votePayTotal = e.votePayTotal := by
    rw [Election.votePayTotal, idle.share, idle.gstate3, Election.votePayTotal]
  have sharers : e'.sharers = e.sharers := by
    rw [Election.sharers, idle.producers2, Election.sharers]
  rw [total]
  rcases idle.producers with same | ⟨p, prod, prod', retold⟩
  · exact h.congr same idle.producers2
  · have pays : e'.votePay = e.votePay := by
      funext k
      rw [Election.votePay, idle.producers2, retold.written, Table.lookup_insert, Election.votePay]
      split
      · rename_i here
        subst here
        simp only [retold.found, Option.elim_some, ProducerInfo.earns, retold.votes, retold.claim]
      · rfl
    refine ⟨pays ▸ sharers ▸ h.totals, fun k => ?_, fun k row found => ?_, idle.producers2 ▸ h.nonneg⟩
    · rw [idle.producers2, retold.written, Table.lookup_insert, h.paired]
      split
      · rename_i here
        rw [here, retold.found]
        rfl
      · rfl
    · rw [retold.written, Table.lookup_insert] at found
      split at found
      · cases found
        rw [retold.claim]
        exact h.claimed p prod retold.found
      · exact h.claimed k row found

omit [IsStrictOrderedRing R] in
/-- A producer that registers has no votes yet. One that has registered before keeps its row of
vote pay. -/
theorem regproducer_sharing (exact : c.fp.Arithmetic) (h : Sharing s.votePayTotal s.toElection)
    (now : c.now ≠ 0) {producer : Name} {key : PublicKey} {url : List UInt8} {location : Nat}
    (done : regproducer c s producer key url location = .ok s') :
    Sharing s'.votePayTotal s'.toElection := by
  obtain ⟨e, rfl, registers⟩ := regproducer_ok done
  cases registers with
  | @new row absent votes unpaid claim =>
    have alone : s.producers2.lookup producer = none := by
      rw [← Option.isNone_iff_eq_none, ← Option.not_isSome, h.paired, absent]
      rfl
    have before : s.votePay producer = ⟨0, 0, 0⟩ := votePay_none alone
    have idle : row.earns ⟨c.fp.zero, c.now⟩ = 0 := by
      unfold ProducerInfo.earns
      split
      · rfl
      · rw [votes, exact.zero]
    refine h.write (t := 0) rfl rfl ?_ ?_ (claim.trans_ne now) exact.zero.ge
    · rw [before, votePay_here rfl rfl, idle, sub_self, add_zero]
      rfl
    · rw [before, votePay_here rfl rfl, idle]
      simp only [Account.worth, exact.zero, zero_mul, add_zero, sub_self]
      rfl
  | @again prod row _ found paired kept =>
    have claimed := h.claimed producer prod found
    have claim : row.lastClaimTime = prod.lastClaimTime := kept.claim.trans (if_neg claimed)
    exact h.idle ⟨rfl, rfl, Or.inr ⟨producer, prod, row, found, rfl, kept.votes, claim⟩, rfl, rfl, rfl⟩
  | late found unpaired =>
    obtain ⟨q, found2⟩ := h.row found
    cases found2.symm.trans unpaired

/-! ## Claims -/

/-- The total may be brought up to date, and is worth the same. -/
structure Refreshed (c : Ctx R) (e e' : Election R) : Prop where
  producers : e'.producers = e.producers
  producers2 : e'.producers2 = e.producers2
  rate : e'.votePayTotal.rate = e.votePayTotal.rate
  worth : e'.votePayTotal.worth (seconds c.now) = e.votePayTotal.worth (seconds c.now)
  late : e'.gstate3.lastVpayStateUpdate ≤ c.now

theorem updateTotal_account (exact : c.fp.Arithmetic) (late : e.gstate3.lastVpayStateUpdate ≤ c.now)
    {additional rate : R} (least : 0 ≤ e.votePayTotal.worth (seconds c.now) + additional)
    (leastRate : 0 ≤ e.votePayTotal.rate + rate) :
    (updateTotalVotepayShare c e additional rate).2.votePayTotal =
      ⟨e.votePayTotal.worth (seconds c.now) + additional, e.votePayTotal.rate + rate,
        seconds c.now⟩ := by
  rw [updateTotal_eq exact late least leastRate]
  rfl

theorem perVotePay_refreshed (exact : c.fp.Arithmetic)
    (late : e.gstate3.lastVpayStateUpdate ≤ c.now)
    (least : 0 ≤ e.votePayTotal.worth (seconds c.now)) (leastRate : 0 ≤ e.votePayTotal.rate)
    (share : R) (crossed : Bool) : Refreshed c e (perVotePay c e prod share crossed).2 := by
  have refl : Refreshed c e e := ⟨rfl, rfl, rfl, rfl, late⟩
  have updated : Refreshed c e (updateTotalVotepayShare c e c.fp.zero c.fp.zero).2 := by
    rw [exact.zero]
    have account := updateTotal_account exact late (least.trans_eq (add_zero _).symm)
      (leastRate.trans_eq (add_zero _).symm)
    refine ⟨rfl, rfl, ?_, ?_, le_refl _⟩
    · rw [account]
      exact add_zero _
    · rw [account, Account.worth, sub_self, mul_zero, add_zero, add_zero]
  unfold perVotePay
  simp only
  split
  · split
    · exact updated
    · exact updated
  · split
    · exact refl
    · exact refl

/-- The row of `owner` is settled for a claim, for `share`. From now on it earns all its votes. -/
theorem Shared.claimed (exact : c.fp.Arithmetic) (h : Shared c.now e) (voted : Voted e)
    (found : e.producers.lookup owner = some prod) {q : ProducerInfo2 R}
    (found2 : e.producers2.lookup owner = some q) (now : c.now ≠ 0) {gstate : GlobalState R}
    (refreshed : Refreshed c { e with producers2 := e.producers2.insert owner ⟨0, c.now⟩ } e')
    {share : R} (settled : (e.votePay owner).worth (seconds c.now) = share) {t : Election R}
    (updated : t = (updateTotalVotepayShare c { e' with gstate } (-share)
      (prod.totalVotes - prod.earns q)).2) :
    let t' := { t with
      producers := t.producers.insert owner { prod with lastClaimTime := c.now, unpaidBlocks := 0 } }
    Sharing t'.votePayTotal t' := by
  intro t'
  have own := votePay_some found found2
  have most : share ≤ e.votePayTotal.worth (seconds c.now) := by
    rw [← settled]
    exact h.sharing.totals.le (fun k _ => h.sharing.worth_nonneg voted h.rows k)
      (List.mem_toFinset.mpr (AList.lookup_isSome.mp (by rw [found2]; rfl)))
  have leastRate : 0 ≤ e.votePayTotal.rate :=
    h.sharing.totals.rate_nonneg fun k _ => Sharing.rate_nonneg voted k
  have earned : prod.earns q ≤ prod.totalVotes := earns_le (voted owner _ (votesOf_some found))
  have worth : e'.votePayTotal.worth (seconds c.now) = e.votePayTotal.worth (seconds c.now) :=
    refreshed.worth
  have rate : e'.votePayTotal.rate = e.votePayTotal.rate := refreshed.rate
  have account : t.votePayTotal = ⟨e'.votePayTotal.worth (seconds c.now) + -share,
      e'.votePayTotal.rate + (prod.totalVotes - prod.earns q), seconds c.now⟩ := by
    rw [updated]
    exact updateTotal_account (e := { e' with gstate }) exact refreshed.late
      (by rw [← worth] at most; exact le_add_neg_iff_le.mpr most)
      (by rw [← rate] at leastRate; exact add_nonneg leastRate (sub_nonneg.mpr earned))
  have same : t'.votePayTotal = t.votePayTotal := rfl
  have rows : t.producers = e'.producers ∧ t.producers2 = e'.producers2 := by
    rw [updated]
    exact ⟨rfl, rfl⟩
  have written : t'.producers = e.producers.insert owner
      { prod with lastClaimTime := c.now, unpaidBlocks := 0 } := by
    have shown : t'.producers = t.producers.insert owner _ := rfl
    rw [shown, rows.1, refreshed.producers]
  have written2 : t'.producers2 = e.producers2.insert owner ⟨0, c.now⟩ :=
    rows.2.trans refreshed.producers2
  have earns : ProducerInfo.earns { prod with lastClaimTime := c.now, unpaidBlocks := 0 }
      ⟨(0 : R), c.now⟩ = prod.totalVotes :=
    earns_early (lt_add_of_pos_right c.now (by decide))
  have after := votePay_here written written2
  rw [earns] at after
  refine h.sharing.write (t := seconds c.now) written written2 ?_ ?_ now (le_refl 0)
  · rw [same, account, after, own, rate]
  · rw [same, account, after, settled, worth]
    simp only [Account.worth, sub_self, mul_zero, add_zero]
    ring

theorem settleClaim_sharing (exact : c.fp.Arithmetic) (h : Shared c.now e) (voted : Voted e)
    (found : e.producers.lookup owner = some prod) (now : c.now ≠ 0) :
    Sharing (settleClaim c e owner prod).2.2.votePayTotal (settleClaim c e owner prod).2.2 := by
  obtain ⟨q, found2⟩ := h.sharing.row found
  have late : q.lastVotepayShareUpdate ≤ c.now := h.rows owner q found2
  have claims : (if decide (prod.lastClaimTime + 3 * USECONDS_PER_DAY ≤ q.lastVotepayShareUpdate) =
      true then c.fp.zero else prod.totalVotes) = prod.earns q := by
    simp only [decide_eq_true_eq, exact.zero, ProducerInfo.earns]
  have rest : (if decide (prod.lastClaimTime + 3 * USECONDS_PER_DAY ≤ q.lastVotepayShareUpdate) =
      true then prod.totalVotes else c.fp.zero) = prod.totalVotes - prod.earns q := by
    simp only [decide_eq_true_eq, exact.zero, ProducerInfo.earns]
    split
    · rw [sub_zero]
    · rw [sub_self]
  have earned : 0 ≤ prod.earns q := earns_nonneg (voted owner _ (votesOf_some found))
  have least := h.sharing.totals.nonneg fun k _ => h.sharing.worth_nonneg voted h.rows k
  have leastRate := h.sharing.totals.rate_nonneg fun k _ => Sharing.rate_nonneg voted k
  have settled := congrArg (Account.worth · (seconds c.now)) (votePay_some found found2)
  simp only [settleClaim, found2, claims, rest, updateProducer_eq exact earned late, if_true,
    exact.neg]
  exact h.claimed exact voted found found2 now
    (perVotePay_refreshed (e := { e with producers2 := e.producers2.insert owner ⟨0, c.now⟩ }) exact
      h.total least leastRate _ _) settled rfl

theorem claimrewards_sharing (exact : c.fp.Arithmetic) (h : Shared c.now s.toElection)
    (voted : Voted s.toElection) (now : c.now ≠ 0) (done : claimrewards c s owner = .ok s') :
    Sharing s'.votePayTotal s'.toElection := by
  obtain ⟨prod, gstate, found, -, same⟩ := claimrewards_election done
  have shared : Shared c.now { s.toElection with gstate } := h.congr rfl rfl rfl rfl
  rw [same]
  exact settleClaim_sharing exact shared (voted.congr rfl) found now

/-! ## Every action -/

theorem Shared.vote (exact : c.fp.Arithmetic) (balanced : Balanced e) (h : Shared c.now e)
    (found : e.voters.lookup k = some voter) {proxy : Name} {producers : List Name}
    (heeded : heedsBallot c (activateStake c e voter) voter proxy = true)
    (done : updateVotes c e k proxy producers true = .ok e') : Shared c.now e' := by
  obtain ⟨turn⟩ := updateVotes_turn exact.toAdditive balanced.ballots balanced.tallied
    (weightOf_agrees e) found (Or.inl rfl) heeded done
  exact turn.shared exact balanced.ballots found h balanced.voted

theorem Shared.register (exact : c.fp.Arithmetic) (balanced : Balanced s.toElection)
    (h : Shared c.now s.toElection) {proxy : Name} {isProxy : Bool}
    (done : regproxy c s proxy isProxy = .ok s') (after : Voted s'.toElection) :
    Shared c.now s'.toElection := by
  obtain ⟨e, rfl, ⟨-, rfl⟩ | ⟨voter, found, single, passed⟩⟩ := regproxy_ok done
  · exact h.congr rfl rfl rfl rfl
  · have switched := balanced.switch found single
    exact propagate_shared exact switched.ballots.distinct rfl
      (by rw [Table.lookup_insert, if_pos rfl]) (h.congr rfl rfl rfl rfl)
      (balanced.voted.congr rfl) passed after

theorem Shared.changebw (exact : c.fp.Arithmetic) (balanced : Balanced s.toElection)
    (h : Shared c.now s.toElection) {source receiver : Name} {net cpu : Asset} {transfer : Bool}
    (done : changebw c s source receiver net cpu transfer = .ok s')
    (heeded : heedsStake c s.toElection (delegator source receiver transfer)
      ⟨net.amount + cpu.amount, net.symbol⟩ = true) : Shared c.now s'.toElection := by
  obtain ⟨nonneg, there, again | same⟩ := changebw_restakes done
  · have staked := balanced.stake exact.toAdditive nonneg
    obtain ⟨turn⟩ := updateVotes_turn exact.toAdditive staked.ballots staked.tallied
      (weightOf_agrees _) there (Or.inr rfl) heeded again
    exact turn.shared exact staked.ballots there (h.congr rfl rfl rfl rfl) staked.voted
  · rw [same]
    exact h.congr rfl rfl rfl rfl

theorem Shared.cast (exact : c.fp.Arithmetic) (balanced : Balanced s.toElection)
    (h : Shared c.now s.toElection) (votes : a.votes = true)
    (heeded : (⟨c.auth, c.now, c.fp, a⟩ : Call R).heeds c.self s = true)
    (done : a.apply c s = .ok s') : Shared c.now s'.toElection := by
  have after : Voted s'.toElection := (balanced.cast exact.toAdditive votes heeded done).voted
  cases a <;> try cases votes
  case voteproducer voterName proxy producers =>
    simp only [Action.apply, voteproducer, bind_eq_ok, pure_eq_ok] at done
    obtain ⟨-, -, e, voted, rfl⟩ := done
    obtain ⟨voter, -, -, found, -⟩ := updateVotes_ok voted
    simp only [Call.heeds, found, Option.all_some] at heeded
    exact h.vote exact balanced found heeded voted
  case regproxy proxy isProxy => exact h.register exact balanced done after
  case delegatebw source receiver net cpu transfer =>
    obtain ⟨-, -, -, -, -, -, changed⟩ := delegatebw_ok done
    exact h.changebw exact balanced changed heeded
  case undelegatebw source receiver net cpu =>
    obtain ⟨-, -, -, -, -, changed⟩ := undelegatebw_ok done
    exact h.changebw exact balanced changed heeded

/-- A call that settles vote pay is not made before the time that was last settled. -/
def Call.ticks {D : Type} (s : State D) (call : Call D) : Bool :=
  !(call.action.votes || call.action.settles) ||
    (decide (0 < call.now) && decide (s.gstate3.lastVpayStateUpdate ≤ call.now) &&
      s.producers2.entries.all fun row => decide (row.2.lastVotepayShareUpdate ≤ call.now))

/-- Nothing is settled by a refund. -/
theorem ticks_refunds {D : Type} (s : State D) (call : Call D)
    (refunds : call.action.refunds = true) : call.ticks s = true := by
  unfold Call.ticks
  cases action : call.action <;> first | rfl | (rw [action] at refunds; cases refunds)

theorem Shared.settle (exact : c.fp.Arithmetic) (h : Shared c.now s.toElection)
    (voted : Voted s.toElection) (now : c.now ≠ 0) (settles : a.settles = true)
    (done : a.apply c s = .ok s') : Sharing s'.votePayTotal s'.toElection := by
  cases a <;> try cases settles
  case regproducer producer key url location => exact regproducer_sharing exact h.sharing now done
  case claimrewards owner => exact claimrewards_sharing exact h voted now done

theorem Sharing.apply (exact : c.fp.Arithmetic) (balanced : Balanced s.toElection)
    (h : Sharing s.votePayTotal s.toElection)
    (heeded : (⟨c.auth, c.now, c.fp, a⟩ : Call R).heeds c.self s = true)
    (ticks : (⟨c.auth, c.now, c.fp, a⟩ : Call R).ticks s = true) (done : a.apply c s = .ok s') :
    Sharing s'.votePayTotal s'.toElection := by
  by_cases settles : (a.votes || a.settles) = true
  · simp only [Call.ticks, settles, Bool.not_true, Bool.false_or, Bool.and_eq_true, decide_eq_true_eq,
      List.all_eq_true] at ticks
    obtain ⟨⟨positive, late⟩, rows⟩ := ticks
    have shared : Shared c.now s.toElection :=
      ⟨h, fun p q found => rows ⟨p, q⟩ ((Table.lookup_iff_mem _ _ _).mp found), late⟩
    rcases Bool.or_eq_true_iff.mp settles with votes | settles
    · exact (shared.cast exact balanced votes heeded done).sharing
    · exact shared.settle exact balanced.voted positive.ne' settles done
  · rw [Bool.or_eq_true, not_or, Bool.not_eq_true, Bool.not_eq_true] at settles
    exact h.idle (apply_unvoted settles.1 settles.2 done)

/-! ## Every run -/

/-- A call that heeds every change of weight, and is not made too early. -/
def Call.counted {D : Type} (self : Name) (s : State D) (call : Call D) : Bool :=
  call.heeds self s && call.ticks s

theorem counted_refunds {D : Type} {self : Name} (s : State D) (call : Call D)
    (refunds : call.action.refunds = true) : call.counted self s = true := by
  rw [Call.counted, heeds_refunds s call refunds, ticks_refunds s call refunds, Bool.and_self]

theorem Sharing.moves {self : Name} {fp : Doubles R} (exact : fp.Arithmetic) {who : Name → Bool}
    (balanced : Balanced s.toElection) (h : Sharing s.votePayTotal s.toElection)
    (moved : Moves who (fun s call => call.counted self s) self fp s s') :
    Balanced s'.toElection ∧ Sharing s'.votePayTotal s'.toElection := by
  cases moved with
  | @act auth now a s' size known signs allowed done =>
    rw [Call.counted, Bool.and_eq_true] at allowed
    have kept := balanced.apply (c := ⟨self, auth, now, fp⟩) exact.toAdditive allowed.1 done
    have shared := h.apply (c := ⟨self, auth, now, fp⟩) exact balanced allowed.1 allowed.2 done
    exact ⟨kept.regauge rfl, shared.congr rfl rfl⟩
  | params => exact ⟨balanced.regauge rfl, h.congr rfl rfl⟩
  | token signs done => exact ⟨balanced, h⟩
  | stay => exact ⟨balanced, h⟩

omit [IsStrictOrderedRing R] in
theorem Sharing.empty (producers : e.producers = ∅) (producers2 : e.producers2 = ∅)
    (share : e.gstate2.totalProducerVotepayShare = 0)
    (rate : e.gstate3.totalVpayShareChangeRate = 0) : Sharing e.votePayTotal e := by
  have none : e.sharers = ∅ := by
    rw [Election.sharers, producers2]
    rfl
  refine ⟨⟨?_, fun t => ?_⟩, fun k => ?_, fun k row found => ?_, fun k row found => ?_⟩
  · rw [none, Finset.sum_empty]
    exact rate
  · rw [none, Finset.sum_empty, Account.worth, Election.votePayTotal, share, rate, zero_mul, add_zero]
  · rw [producers, producers2, AList.lookup_empty, AList.lookup_empty]
    rfl
  · rw [producers, AList.lookup_empty] at found
    cases found
  · rw [producers2, AList.lookup_empty] at found
    cases found

/-- Every producer has a row of vote pay. The total earns what they earn, and is worth what they have
earned. None of them has earned more than the total, or less than nothing. -/
structure Earned (e : Election R) : Prop where
  all : ∀ p, (e.producers2.lookup p).isSome = (e.producers.lookup p).isSome
  rate : e.votePayTotal.rate = ∑ p ∈ e.sharers, (e.votePay p).rate
  worth : ∀ t, e.votePayTotal.worth t = ∑ p ∈ e.sharers, (e.votePay p).worth t
  part : ∀ now, Timely now e → ∀ p ∈ e.sharers, 0 ≤ (e.votePay p).worth (seconds now) ∧
    (e.votePay p).worth (seconds now) ≤ e.votePayTotal.worth (seconds now)

/-- As long as doubles are exact, no change of weight is dropped and the clock does not go back, the
total of vote pay is what the producers have earned. -/
theorem votepay_earned (self : Name) (fp : Doubles R) (exact : fp.Arithmetic) (ch : Blockchain R)
    (known : self ∈ ch.accounts) (idle : ch.deferred = ∅) (voters : ch.voters = ∅)
    (producers : ch.producers = ∅) (producers2 : ch.producers2 = ∅)
    (zero : ch.gstate.totalProducerVoteWeight = 0)
    (share : ch.gstate2.totalProducerVotepayShare = 0)
    (rate : ch.gstate3.totalVpayShareChangeRate = 0) (events : List Event)
    (counted : Along (Blockchain.step self fp)
      (fun ch e => e.allowed (fun s call => call.counted self s) fp ch = true) ch events) :
    Earned (run (Blockchain.step self fp) ch events).toElection := by
  have queued : Queued (fun _ => true) self ch := .idle known rfl idle
  obtain ⟨balanced, shared⟩ := (moves_invariant
    (I := fun s => Balanced s.toElection ∧ Sharing s.votePayTotal s.toElection) counted_refunds
    (fun _ _ h moved => h.2.moves exact h.1 moved) queued
    ⟨.empty voters producers zero, .empty producers producers2 share rate⟩
    (fun e _ => by cases e <;> simp [Event.signedBy]) counted).2
  refine ⟨shared.paired, shared.totals.rate, shared.totals.worth, fun now timely p mem => ?_⟩
  have least (k : Name) := shared.worth_nonneg balanced.voted timely k
  exact ⟨least p, shared.totals.le (fun k _ => least k) mem⟩

section

open Sample

/-- Fractions for doubles, with every power one. -/
def fractions : Doubles ℚ where
  ofInt n := n
  literal m d := m / 10 ^ d
  trunc x := x.num.tdiv x.den
  add := (· + ·)
  sub := (· - ·)
  mul := (· * ·)
  div := (· / ·)
  neg := (- ·)
  fabs := (|·|)
  pow _ _ := 1
  lt x y := decide (x < y)
  le x y := decide (x ≤ y)

theorem fractions_arithmetic : fractions.Arithmetic where
  zero := Int.cast_zero
  add _ _ := rfl
  sub _ _ := rfl
  lt _ _ := rfl
  le _ _ := rfl
  weighs staked _ nonneg := (Int.cast_nonneg nonneg).trans_eq (mul_one (staked : ℚ)).symm
  ofInt _ := rfl
  mul _ _ := rfl
  div _ _ := rfl
  neg _ := rfl
  million := by norm_num [fractions]

/-- `activated` in its first revision, with fractions. -/
def paying : State ℚ where
  voters := ∅
  producers := ∅
  producers2 := ∅
  gstate := ⟨parameters, 64 * 1024 ^ 3, 0, 0, 0, 0, 0, 0, 0, MIN_ACTIVATED_STAKE, 0, 0, 0, 0, 0, 0, 0⟩
  gstate2 := ⟨0, 0, 0, 0, 1⟩
  gstate3 := ⟨0, 0⟩
  rammarket := some {
    supply := ⟨100000000000000, RAMCORE_SYMBOL⟩
    base := ⟨⟨64 * 1024 ^ 3, RAM_SYMBOL⟩, 0⟩
    quote := ⟨eos 10000000000, 0⟩ }
  userres := ∅
  delband := ∅
  refunds := ∅
  namebids := ∅
  bidrefunds := ∅
  accounts := users
  token := ledger

/-- `dick` claims after a day. `nick` has not claimed for three days when its votes are taken, and
loses what it has earned. -/
def campaigning : List Event :=
  [signed dick 100 (.regproducer dick key [] 0),
    signed nick 100 (.regproducer nick key [] 0),
    signed nick 101 (.delegatebw nick nick (eos 1000) (eos 0) false),
    signed nick 102 (.voteproducer nick NOBODY [dick, nick]),
    signed eosio 103 (.onblock 206 dick),
    signed rick 110 (.delegatebw rick rick (eos 300) (eos 0) false),
    signed rick 112 (.voteproducer rick NOBODY [nick]),
    signed dick 100000 (.claimrewards dick),
    signed nick 300000 (.voteproducer nick NOBODY [dick])]

theorem campaigning_earned :
    let t := run (Blockchain.step eosio fractions) ⟨paying, ⟨parameters, unlimited, ∅, []⟩⟩ campaigning
    t.gstate3.totalVpayShareChangeRate = 1000 ∧ t.gstate2.totalProducerVotepayShare = 200000000 ∧
      Earned t.toElection :=
  ⟨by decide +kernel, by decide +kernel,
    votepay_earned eosio fractions fractions_arithmetic ⟨paying, ⟨parameters, unlimited, ∅, []⟩⟩
      (by decide) rfl rfl rfl rfl rfl rfl rfl campaigning (by decide +kernel)⟩

end

end DecentralBank.System
