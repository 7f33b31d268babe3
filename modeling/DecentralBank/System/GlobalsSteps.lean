import DecentralBank.System.Dispatch
import DecentralBank.System.Globals
import DecentralBank.System.BandwidthSteps

/-!
# The global records stay within their types

What an action writes to a global record is a value of the member's type, if
the arguments are of theirs.
-/

namespace DecentralBank.System

open Checked Codec

variable {D : Type} {c : Ctx D} {e e' : Election D} {s s' : State D}

abbrev Election.Typed (e : Election D) : Prop := e.globals.Typed

theorem typed_of_globals (same : e'.globals = e.globals) (he : e.Typed) : e'.Typed := by
  rw [Election.Typed, same]
  exact he

theorem uint32_valid (x : Int) : uint32.Valid (u32 x) := u32_lt x

theorem uint64_valid (x : Int) : uint64.Valid (u64 x) := u64_lt x

theorem int64_valid (x : Int) : int64.Valid (i64 x) := i64_range x

/-! ## Votes -/

theorem updateTotalVotepayShare_typed (now : int64.Valid c.now) (he : e.Typed)
    (additionalShares sharesRate : D) :
    (updateTotalVotepayShare c e additionalShares sharesRate).2.Typed :=
  ⟨he.gstate, { he.gstate2 with }, now⟩

variable {a b : Accrued D}

theorem Accrued.accrue_globals (owner : Name) (prod : ProducerInfo D) (delta : D) :
    (a.accrue c owner prod delta).election.globals = a.election.globals := by
  unfold Accrued.accrue
  cases a.election.producers2.lookup owner with
  | none => rfl
  | some prod2 =>
    simp only [updateProducerVotepayShare]
    split
    · rfl
    · split
      · rfl
      · rfl

theorem Accrued.revote_typed (ha : a.election.Typed) (owner : Name) (prod : ProducerInfo D)
    (votes delta : D) :
    (a.revote c owner prod votes delta).election.Typed := by
  refine typed_of_globals (Accrued.accrue_globals _ _ _) ?_
  exact ⟨{ ha.gstate with }, ha.gstate2, ha.gstate3⟩

theorem shiftVotes_typed {delta : D} {producer : Name} (h : shiftVotes c delta a producer = .ok b)
    (ha : a.election.Typed) : b.election.Typed := by
  simp only [shiftVotes, bind_eq_ok, find_eq_ok, pure_eq_ok] at h
  obtain ⟨prod, -, rfl⟩ := h
  exact Accrued.revote_typed ha _ _ _ _

theorem applyDelta_typed {voting : Bool} {d : Name × D × Bool} (h : applyDelta c voting a d = .ok b)
    (ha : a.election.Typed) : b.election.Typed := by
  unfold applyDelta at h
  cases found : a.election.producers.lookup d.1 with
  | none =>
    simp only [found, bind_eq_ok, require_eq_ok, pure_eq_ok, exists_const] at h
    obtain ⟨-, rfl⟩ := h
    exact ha
  | some prod =>
    simp only [found, bind_eq_ok, require_eq_ok, pure_eq_ok, exists_const] at h
    obtain ⟨-, rfl⟩ := h
    exact Accrued.revote_typed ha _ _ _ _

theorem loop_typed {T : Type} {turn : Accrued D → T → Checked (Accrued D)}
    (one : ∀ {a t b}, turn a t = .ok b → a.election.Typed → b.election.Typed) (ts : List T)
    (h : ts.foldlM turn a = .ok b) (ha : a.election.Typed) : b.election.Typed :=
  foldlM_keeps (I := fun a => a.election.Typed) (fun _ _ _ _ turned => one turned) h ha

theorem propagateWeightChange_typed (now : int64.Valid c.now) {fuel : Nat} {owner : Name}
    {voter : VoterInfo D}
    (h : propagateWeightChange c fuel e owner voter = .ok e') (he : e.Typed) : e'.Typed := by
  induction fuel generalizing e e' owner voter with
  | zero => cases h
  | succ fuel ih =>
    simp only [propagateWeightChange, bind_eq_ok, require_eq_ok, ite_eq_ok, find_eq_ok, pure_eq_ok,
      exists_const] at h
    obtain ⟨-, passed, step, rfl⟩ := h
    have reached : passed.Typed := by
      rcases step with ⟨-, ⟨-, proxy, -, done⟩ | ⟨-, shifted, looped, rfl⟩⟩ | ⟨-, rfl⟩
      · exact ih done he
      · exact updateTotalVotepayShare_typed now (loop_typed shiftVotes_typed _ looped he) _ _
      · exact he
    exact reached

theorem setProxied_typed (now : int64.Valid c.now) {proxy : Name} {row : VoterInfo D} {weight : D}
    (h : setProxied c e proxy row weight = .ok e') (he : e.Typed) : e'.Typed :=
  propagateWeightChange_typed now h he

theorem activateStake_typed (now : int64.Valid c.now) (he : e.Typed) (voter : VoterInfo D) :
    (activateStake c e voter).Typed := by
  unfold activateStake
  split
  · refine ⟨{ he.gstate with totalActivatedStake := int64_valid _, threshActivatedStakeTime := ?_ },
      he.gstate2, he.gstate3⟩
    simp only
    split
    · exact now
    · exact he.gstate.threshActivatedStakeTime
  · exact he

theorem withdrawVote_typed (now : int64.Valid c.now) {voter : VoterInfo D} {deltas : Deltas D}
    (h : withdrawVote c e voter = .ok (e', deltas)) (he : e.Typed) : e'.Typed := by
  simp only [withdrawVote, ite_eq_ok, bind_eq_ok, find_eq_ok, pure_eq_ok, Prod.mk.injEq] at h
  rcases h with ⟨-, ⟨-, old, -, _, set, rfl, -⟩ | ⟨-, rfl, -⟩⟩ | ⟨-, rfl, -⟩
  · exact setProxied_typed now set he
  · exact he
  · exact he

theorem castVote_typed (now : int64.Valid c.now) {deltas deltas' : Deltas D} {weight : D}
    {proxy : Name}
    {producers : List Name} {voting : Bool}
    (h : castVote c e deltas weight proxy producers voting = .ok (e', deltas')) (he : e.Typed) :
    e'.Typed := by
  simp only [castVote, ite_eq_ok, bind_eq_ok, find_eq_ok, require_eq_ok, pure_eq_ok, exists_const,
    Prod.mk.injEq] at h
  rcases h with ⟨-, new, -, -, _, ⟨-, set⟩ | ⟨-, rfl⟩, rfl, -⟩ | ⟨-, rfl, -⟩
  · exact setProxied_typed now set he
  · exact he
  · exact he

theorem updateVotes_typed (now : int64.Valid c.now) {voterName proxy : Name} {producers : List Name}
    {voting : Bool}
    (h : updateVotes c e voterName proxy producers voting = .ok e') (he : e.Typed) : e'.Typed := by
  simp only [updateVotes, bind_eq_ok, require_eq_ok, find_eq_ok, pure_eq_ok, exists_const,
    Prod.exists] at h
  obtain ⟨_, -, voter, -, -, withdrawn, deltas, took, cast, deltas', gave, accrued, looped,
    rfl⟩ := h
  have left := withdrawVote_typed now took (activateStake_typed now he voter)
  have given := castVote_typed now gave left
  exact updateTotalVotepayShare_typed now (loop_typed applyDelta_typed _ looped given) _ _

/-! ## Stakes -/

theorem updateVotingPower_typed (now : int64.Valid c.now) {owner : Name} {total : Asset}
    (h : updateVotingPower c s owner total = .ok s') (hs : s.Typed) : s'.Typed := by
  simp only [updateVotingPower, bind_eq_ok, require_eq_ok, exists_const, pure_eq_ok, ite_eq_ok] at h
  obtain ⟨-, _, -, e, voted, rfl⟩ := h
  rcases voted with ⟨-, again⟩ | ⟨-, rfl⟩
  · exact updateVotes_typed now again hs
  · exact hs

theorem changebw_typed (now : int64.Valid c.now) {source receiver : Name} {net cpu : Asset}
    {transfer : Bool}
    (h : changebw c s source receiver net cpu transfer = .ok s') (hs : s.Typed) : s'.Typed := by
  obtain ⟨_, _, paid, -, -, -, -, settled, voted⟩ := changebw_ok h
  have same : paid.toElection = s.toElection := by
    rcases settled with ⟨-, settled⟩ | ⟨-, rfl⟩
    · have kept := settleStake_election settled
      exact kept
    · rfl
  exact updateVotingPower_typed now voted (same ▸ hs)

/-! ## RAM -/

theorem updateRamSupply_typed (h : updateRamSupply c s = .ok s') (hs : s.Typed) : s'.Typed := by
  simp only [updateRamSupply, ite_eq_ok, bind_eq_ok, pure_eq_ok] at h
  rcases h with ⟨-, rfl⟩ | ⟨-, m, -, rfl⟩
  · exact hs
  · exact ⟨{ hs.gstate with maxRamSize := uint64_valid _ },
      { hs.gstate2 with lastRamIncrease := uint32_valid _ }, hs.gstate3⟩

theorem buyram_typed {payer receiver : Name} {quant : Asset}
    (h : buyram c s payer receiver quant = .ok s')
    (hs : s.Typed) : s'.Typed := by
  simp only [buyram, bind_eq_ok, Ctx.requireAuth_eq_ok, require_eq_ok, exists_const,
    pure_eq_ok, ite_eq_ok, Prod.exists] at h
  obtain ⟨-, raised, supplied, core, -, -, -, paid, first, charged, second, m, -, output,
    m', -, -, userres, -, rfl⟩ := h
  have same : charged.toElection = raised.toElection := by
    rcases second with ⟨-, second⟩ | ⟨-, rfl⟩
    · exact (pay_election second).trans (pay_election first)
    · exact pay_election first
  have ready : charged.Typed := same ▸ updateRamSupply_typed supplied hs
  exact ⟨{ ready.gstate with
      totalRamBytesReserved := uint64_valid _, totalRamStake := int64_valid _ },
    ready.gstate2, ready.gstate3⟩

theorem sellram_typed {account : Name} {bytes : Int} (h : sellram c s account bytes = .ok s')
    (hs : s.Typed) :
    s'.Typed := by
  simp only [sellram, bind_eq_ok, Ctx.requireAuth_eq_ok, require_eq_ok, exists_const,
    pure_eq_ok, ite_eq_ok, find_eq_ok, Prod.exists] at h
  obtain ⟨-, raised, supplied, -, row, -, -, m, -, core, -, input, -, output,
    m', -, -, -, paid, first, second⟩ := h
  have ready := updateRamSupply_typed supplied hs
  have sold : paid.Typed := by
    rw [pay_election first]
    exact ⟨{ ready.gstate with
        totalRamBytesReserved := uint64_valid _, totalRamStake := int64_valid _ },
      ready.gstate2, ready.gstate3⟩
  rcases second with ⟨-, fee, -, second⟩ | ⟨-, rfl⟩
  · exact pay_election second ▸ sold
  · exact sold

theorem setram_typed {size : Nat} (h : setram c s size = .ok s') (hs : s.Typed) : s'.Typed := by
  simp only [setram, bind_eq_ok, Ctx.requireAuth_eq_ok, require_eq_ok, exists_const,
    pure_eq_ok] at h
  obtain ⟨-, -, realistic, -, m, -, rfl⟩ := h
  have word : uint64.Valid size := realistic.trans (by norm_num)
  exact ⟨{ hs.gstate with maxRamSize := word }, hs.gstate2, hs.gstate3⟩

theorem setramrate_typed {rate : Nat} (word : uint16.Valid rate) (h : setramrate c s rate = .ok s')
    (hs : s.Typed) :
    s'.Typed := by
  simp only [setramrate, bind_eq_ok, Ctx.requireAuth_eq_ok, exists_const, pure_eq_ok] at h
  obtain ⟨-, raised, supplied, rfl⟩ := h
  have ready := updateRamSupply_typed supplied hs
  exact ⟨ready.gstate, { ready.gstate2 with newRamPerBlock := word }, ready.gstate3⟩

/-! ## Blocks -/

theorem closeAuction_typed {slot : Nat} (word : uint32.Valid slot) (hs : s.Typed) :
    (closeAuction c s slot).Typed := by
  unfold closeAuction
  split
  · split
    · exact ⟨{ hs.gstate with lastNameClose := word }, hs.gstate2, hs.gstate3⟩
    · exact hs
  · exact hs

theorem countBlock_typed (producer : Name) (hs : s.Typed) : (countBlock s producer).Typed := by
  unfold countBlock
  split
  · exact hs
  · exact ⟨{ hs.gstate with totalUnpaidBlocks := uint32_valid _ }, hs.gstate2, hs.gstate3⟩

theorem everyMinute_typed {slot : Nat} (word : uint32.Valid slot) (hs : s.Typed) :
    (everyMinute c s slot).Typed := by
  have updated :
      ({ s with gstate := { s.gstate with lastProducerScheduleUpdate := slot } } : State D).Typed :=
    ⟨{ hs.gstate with lastProducerScheduleUpdate := word }, hs.gstate2, hs.gstate3⟩
  unfold everyMinute
  split
  · simp only
    split
    · exact closeAuction_typed word updated
    · exact updated
  · exact hs

theorem onblock_typed (now : int64.Valid c.now) {slot : Nat} {producer : Name}
    (word : uint32.Valid slot)
    (h : onblock c s slot producer = .ok s') (hs : s.Typed) : s'.Typed := by
  simp only [onblock, bind_eq_ok, Ctx.requireAuth_eq_ok, exists_const, ite_eq_ok, pure_eq_ok] at h
  have numbered : ({ s with gstate2 := { s.gstate2 with lastBlockNum := slot } } : State D).Typed :=
    ⟨hs.gstate, { hs.gstate2 with lastBlockNum := word }, hs.gstate3⟩
  obtain ⟨-, ⟨-, rfl⟩ | ⟨-, rfl⟩⟩ := h
  · exact numbered
  · refine everyMinute_typed word (countBlock_typed producer ?_)
    refine ⟨{ numbered.gstate with lastPervoteBucketFill := ?_ }, numbered.gstate2,
      numbered.gstate3⟩
    simp only
    split
    · exact now
    · exact hs.gstate.lastPervoteBucketFill

/-! ## Claims -/

theorem payCore_election {core : Symbol} {source target : Name} {amount : Int} {memo : String}
    (h : s.payCore core source target amount memo = .ok s') : s'.toElection = s.toElection := by
  simp only [State.payCore, bind_eq_ok] at h
  obtain ⟨_, -, paid⟩ := h
  exact pay_election paid

theorem fillBuckets_typed (now : int64.Valid c.now) (h : fillBuckets c s = .ok s') (hs : s.Typed) :
    s'.Typed := by
  simp only [fillBuckets, bind_eq_ok, ite_eq_ok, pure_eq_ok] at h
  obtain ⟨core, -, supply, -,
    ⟨-, _, -, token, -, saved, saving, blocks, blocked, votes, voted, rfl⟩ | ⟨-, rfl⟩⟩ := h
  · have first := payCore_election saving
    have same : votes.toElection = s.toElection :=
      (payCore_election voted).trans ((payCore_election blocked).trans first)
    have paid : votes.Typed := same ▸ hs
    exact ⟨{ paid.gstate with
      pervoteBucket := int64_valid _
      perblockBucket := int64_valid _
      lastPervoteBucketFill := now }, paid.gstate2, paid.gstate3⟩
  · exact hs

theorem perVotePay_typed (now : int64.Valid c.now) (he : e.Typed)
    (prod : ProducerInfo D) (share : D)
    (crossed : Bool) : (perVotePay c e prod share crossed).2.Typed := by
  unfold perVotePay
  simp only
  split
  · split
    · exact updateTotalVotepayShare_typed now he _ _
    · exact updateTotalVotepayShare_typed now he _ _
  · split
    · exact he
    · exact he

theorem settleClaim_typed (now : int64.Valid c.now) (he : e.Typed) (owner : Name)
    (prod : ProducerInfo D) :
    (settleClaim c e owner prod).2.2.Typed := by
  unfold settleClaim
  have voted (prod2 : ProducerInfo2 D) (rate share : D) (crossed : Bool) :
      (perVotePay c (updateProducerVotepayShare c e owner prod2 rate true).2 prod share
        crossed).2.Typed := by
    have reset : (updateProducerVotepayShare c e owner prod2 rate true).2.Typed := he
    exact perVotePay_typed now reset prod share crossed
  have paid (t : Election D) (ht : t.Typed) (pervote perblock left : Int) :
      ({ t with gstate := { t.gstate with
        pervoteBucket := i64 pervote
        perblockBucket := i64 perblock
        totalUnpaidBlocks := u32 left } } : Election D).Typed :=
    ⟨{ ht.gstate with
      pervoteBucket := int64_valid pervote
      perblockBucket := int64_valid perblock
      totalUnpaidBlocks := uint32_valid left }, ht.gstate2, ht.gstate3⟩
  exact updateTotalVotepayShare_typed now (paid _ (voted _ _ _ _) _ _ _) _ _

theorem claimrewards_typed (now : int64.Valid c.now) {owner : Name}
    (h : claimrewards c s owner = .ok s')
    (hs : s.Typed) : s'.Typed := by
  simp only [claimrewards, bind_eq_ok, Ctx.requireAuth_eq_ok, require_eq_ok,
    find_eq_ok, exists_const, ite_eq_ok, pure_eq_ok] at h
  obtain ⟨-, prod, -, -, -, -, filled, filling, core, -, blocks, first, second⟩ := h
  have settled := settleClaim_typed now (fillBuckets_typed now filling hs) owner prod
  have paid : blocks.Typed := by
    rcases first with ⟨-, first⟩ | ⟨-, rfl⟩
    · exact payCore_election first ▸ settled
    · exact settled
  rcases second with ⟨-, second⟩ | ⟨-, rfl⟩
  · exact payCore_election second ▸ paid
  · exact paid

/-! ## Actions that leave most of the records alone -/

theorem newaccount_election {creator newact : Name} (h : newaccount c s creator newact = .ok s') :
    s'.toElection = s.toElection := by
  simp only [newaccount, claimName, bind_eq_ok, Ctx.requireAuth_eq_ok, require_eq_ok,
    find_eq_ok, exists_const, ite_eq_ok, pure_eq_ok] at h
  obtain ⟨-, -, claimed, ⟨-, ⟨-, _, -, -, -, rfl⟩ | ⟨-, -, rfl⟩⟩ | ⟨-, rfl⟩, _, -, _, -, -,
    rfl⟩ := h
  · rfl
  · rfl
  · rfl

theorem bidname_election {bidder newname : Name} {bid : Asset}
    (h : bidname c s bidder newname bid = .ok s') :
    s'.toElection = s.toElection := by
  simp only [bidname, bind_eq_ok, Ctx.requireAuth_eq_ok, require_eq_ok, exists_const] at h
  obtain ⟨-, -, -, -, -, -, core, -, -, -, paid, paying, h⟩ := h
  have same := pay_election paying
  split at h
  · rw [pure_eq_ok] at h
    rw [← h]
    exact same
  · simp only [bind_eq_ok, require_eq_ok, exists_const, pure_eq_ok] at h
    obtain ⟨-, -, -, _, -, _, -, rfl⟩ := h
    exact same

theorem init_election {version : Nat} {core : Symbol} (h : init c s version core = .ok s') :
    s'.toElection = s.toElection := by
  simp only [init, bind_eq_ok, Ctx.requireAuth_eq_ok, require_eq_ok, exists_const, pure_eq_ok] at h
  obtain ⟨-, -, -, _, -, -, -, rfl⟩ := h
  rfl

theorem bidrefund_election {bidder newname : Name} (h : bidrefund s bidder newname = .ok s') :
    s'.toElection = s.toElection := by
  simp only [bidrefund, bind_eq_ok, find_eq_ok, pure_eq_ok] at h
  obtain ⟨_, -, paid, paying, rfl⟩ := h
  have same := pay_election paying
  exact same

theorem refund_election {owner : Name} (h : refund c s owner = .ok s') :
    s'.toElection = s.toElection := by
  simp only [refund, bind_eq_ok, Ctx.requireAuth_eq_ok, require_eq_ok, find_eq_ok, exists_const,
    pure_eq_ok] at h
  obtain ⟨-, _, -, -, _, -, paid, paying, rfl⟩ := h
  have same := pay_election paying
  exact same

theorem unregprod_globals {producer : Name} (h : unregprod c s producer = .ok s') :
    s'.globals = s.globals := by
  simp only [unregprod, bind_eq_ok, Ctx.requireAuth_eq_ok, find_eq_ok, exists_const,
    pure_eq_ok] at h
  obtain ⟨-, _, -, rfl⟩ := h
  rfl

theorem rmvproducer_globals {producer : Name} (h : rmvproducer c s producer = .ok s') :
    s'.globals = s.globals := by
  simp only [rmvproducer, bind_eq_ok, Ctx.requireAuth_eq_ok, find_eq_ok, exists_const,
    pure_eq_ok] at h
  obtain ⟨-, _, -, rfl⟩ := h
  rfl

theorem voteproducer_typed (now : int64.Valid c.now) {voter proxy : Name} {producers : List Name}
    (h : voteproducer c s voter proxy producers = .ok s') (hs : s.Typed) : s'.Typed := by
  simp only [voteproducer, bind_eq_ok, Ctx.requireAuth_eq_ok, exists_const, pure_eq_ok] at h
  obtain ⟨-, e, voted, rfl⟩ := h
  exact updateVotes_typed now voted hs

theorem buyrambytes_typed {payer receiver : Name} {bytes : Nat}
    (h : buyrambytes c s payer receiver bytes = .ok s') (hs : s.Typed) : s'.Typed := by
  simp only [buyrambytes, bind_eq_ok, Prod.exists] at h
  obtain ⟨_, -, _, -, _, -, _, _, -, bought⟩ := h
  exact buyram_typed bought hs

theorem regproducer_typed (now : int64.Valid c.now) {producer : Name} {key : PublicKey}
    {url : List UInt8}
    {location : Nat} (h : regproducer c s producer key url location = .ok s') (hs : s.Typed) :
    s'.Typed := by
  obtain ⟨e, rfl, registers⟩ := regproducer_ok h
  cases registers with
  | new | again => exact hs
  | late => exact updateTotalVotepayShare_typed now hs _ _

theorem regproxy_typed (now : int64.Valid c.now) {proxy : Name} {isProxy : Bool}
    (h : regproxy c s proxy isProxy = .ok s') (hs : s.Typed) : s'.Typed := by
  obtain ⟨e, rfl, ⟨-, rfl⟩ | ⟨voter, -, -, passed⟩⟩ := regproxy_ok h
  · exact hs
  · exact propagateWeightChange_typed now passed hs

theorem updtrevision_typed {revision : Nat} (h : updtrevision c s revision = .ok s')
    (hs : s.Typed) :
    s'.Typed := by
  simp only [updtrevision, bind_eq_ok, Ctx.requireAuth_eq_ok, require_eq_ok, exists_const,
    pure_eq_ok] at h
  obtain ⟨-, -, -, small, rfl⟩ := h
  have byte : uint8.Valid revision := Nat.lt_of_le_of_lt small (by norm_num)
  exact ⟨hs.gstate, { hs.gstate2 with revision := byte }, hs.gstate3⟩

/-! ## Calls -/

/-- The arguments that go into a record are values of the members' types. -/
def Action.Typed : Action → Prop
  | .setramrate bytesPerBlock => uint16.Valid bytesPerBlock
  | .onblock slot _ => uint32.Valid slot
  | _ => True

structure Call.Typed (call : Call D) : Prop where
  now : int64.Valid call.now
  action : call.action.Typed

theorem Action.apply_typed (now : int64.Valid c.now) {a : Action} (typed : a.Typed)
    (h : a.apply c s = .ok s')
    (hs : s.Typed) : s'.Typed := by
  cases a with
  | newaccount creator newact => exact newaccount_election h ▸ hs
  | init version core => exact init_election h ▸ hs
  | setram size => exact setram_typed h hs
  | setramrate rate => exact setramrate_typed typed h hs
  | rmvproducer producer => exact typed_of_globals (rmvproducer_globals h) hs
  | updtrevision revision => exact updtrevision_typed h hs
  | bidname bidder newname bid => exact bidname_election h ▸ hs
  | bidrefund bidder newname => exact bidrefund_election h ▸ hs
  | buyrambytes payer receiver bytes => exact buyrambytes_typed h hs
  | buyram payer receiver quant => exact buyram_typed h hs
  | sellram account bytes => exact sellram_typed h hs
  | delegatebw source receiver net cpu transfer =>
    obtain ⟨_, -, -, -, -, -, changed⟩ := delegatebw_ok h
    exact changebw_typed now changed hs
  | undelegatebw source receiver net cpu =>
    obtain ⟨_, -, -, -, -, changed⟩ := undelegatebw_ok h
    exact changebw_typed now changed hs
  | refund owner => exact refund_election h ▸ hs
  | regproducer producer key url location => exact regproducer_typed now h hs
  | unregprod producer => exact typed_of_globals (unregprod_globals h) hs
  | voteproducer voter proxy producers => exact voteproducer_typed now h hs
  | regproxy proxy isProxy => exact regproxy_typed now h hs
  | onblock slot producer => exact onblock_typed now typed h hs
  | claimrewards owner => exact claimrewards_typed now h hs

theorem perform_typed {self : Name} {call : Call D} (typed : call.Typed)
    (h : perform self s call = .ok s')
    (hs : s.Typed) : s'.Typed := by
  obtain ⟨-, applied⟩ := perform_ok h
  exact Action.apply_typed typed.now typed.action applied hs

end DecentralBank.System
