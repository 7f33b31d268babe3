import DecentralBank.System.Names
import DecentralBank.System.Market
import DecentralBank.System.Voting

/-!
# Producer pay

`producer_pay.cpp`. What `onblock` does with the schedule of producers, other
than to note the time, is in `Blockchain`.
-/

namespace DecentralBank.System

open Checked

variable {D : Type} (c : Ctx D)

def BLOCKS_PER_DAY : Nat := 2 * 24 * 3600
def MIN_PERVOTE_DAILY_PAY : Int := 1000000

/-- A producer that is registered has one more block to be paid for. -/
def countBlock (s : State D) (producer : Name) : State D :=
  match s.producers.lookup producer with
  | none => s
  | some prod => { s with
      gstate := { s.gstate with totalUnpaidBlocks := u32 ((s.gstate.totalUnpaidBlocks : Int) + 1) }
      producers := s.producers.insert producer
        { prod with unpaidBlocks := u32 ((prod.unpaidBlocks : Int) + 1) } }

/-- Once a minute the schedule is updated, and once a day an auction closed. -/
def everyMinute (s : State D) (slot : Nat) : State D :=
  if 120 < u32 ((slot : Int) - s.gstate.lastProducerScheduleUpdate) then
    let s : State D := { s with gstate := { s.gstate with lastProducerScheduleUpdate := slot } }
    if BLOCKS_PER_DAY < u32 ((slot : Int) - s.gstate.lastNameClose) then closeAuction c s slot
    else s
  else s

def onblock (s : State D) (slot : Nat) (producer : Name) : Checked (State D) := do
  c.requireAuth c.self
  let s : State D := { s with gstate2 := { s.gstate2 with lastBlockNum := slot } }
  if s.gstate.totalActivatedStake < MIN_ACTIVATED_STAKE then pure s
  else
    let fill := s.gstate.lastPervoteBucketFill
    let s : State D := { s with
      gstate := { s.gstate with lastPervoteBucketFill := if fill = 0 then c.now else fill } }
    pure (everyMinute c (countBlock s producer) slot)

/-! ## Claims -/

/-- The tokens a claim issues: `continuous_rate` of the supply over the time since the last. -/
def newTokens (s : State D) (supply : Asset) : Int :=
  let fp := c.fp
  let elapsed := c.now - s.gstate.lastPervoteBucketFill
  fp.toI64 (fp.div (fp.mul (fp.mul (fp.literal 4879 5) (fp.ofInt supply.amount)) (fp.ofInt elapsed))
    (fp.ofInt (SECONDS_PER_YEAR * 1000000)))

/-- How the tokens issued by a claim are shared out. -/
structure Shares where
  savings : Int
  perBlock : Int
  perVote : Int

def shares (tokens : Int) : Shares :=
  let producers := tokens.tdiv 5
  let perBlock := producers.tdiv 4
  ⟨i64 (tokens - producers), perBlock, i64 (producers - perBlock)⟩

/-- An inline `transfer` of an amount in the core symbol. -/
def State.payCore (s : State D) (core : Symbol) (source target : Name) (amount : Int)
    (memo : String) :
    Checked (State D) := do
  let quantity ← Asset.make amount core
  s.pay source target quantity memo

/-- Tokens are issued and moved to the savings and the buckets. -/
def fillBuckets (s : State D) : Checked (State D) := do
  let core ← s.coreSymbol
  let supply ← s.getSupply core.code
  let last := s.gstate.lastPervoteBucketFill
  if 0 < c.now - last ∧ 0 < last then do
    let tokens := newTokens c s supply
    let share := shares tokens
    let issued ← Asset.make tokens core
    let token ← Token.issue Token.EosioToken.contract ⟨TOKEN_ACCOUNT, [c.self], s.isAccount⟩ s.token
      c.self issued "issue tokens for producer pay and savings".toUTF8.toList
    let s : State D := { s with token }
    let s ← s.payCore core c.self SAVING_ACCOUNT share.savings "unallocated inflation"
    let s ← s.payCore core c.self BPAY_ACCOUNT share.perBlock "fund per-block bucket"
    let s ← s.payCore core c.self VPAY_ACCOUNT share.perVote "fund per-vote bucket"
    pure { s with
      gstate := { s.gstate with
        pervoteBucket := i64 (s.gstate.pervoteBucket + share.perVote)
        perblockBucket := i64 (s.gstate.perblockBucket + share.perBlock)
        lastPervoteBucketFill := c.now } }
  else pure s

def perBlockPay (g : GlobalState D) (prod : ProducerInfo D) : Int :=
  if 0 < g.totalUnpaidBlocks then
    (i64 (g.perblockBucket * prod.unpaidBlocks)).tdiv g.totalUnpaidBlocks
  else 0

/-- The vote pay of a producer with the share `share`, before the minimum, and the election after
it. -/
def perVotePay (e : Election D) (prod : ProducerInfo D) (share : D) (crossed : Bool) :
    Int × Election D :=
  let fp := c.fp
  let bucket := e.gstate.pervoteBucket
  if 0 < e.gstate2.revision then
    let (total, e) := updateTotalVotepayShare c e fp.zero fp.zero
    if fp.lt fp.zero total && !crossed then
      let pay := fp.toI64 (fp.div (fp.mul share (fp.ofInt bucket)) total)
      (if bucket < pay then bucket else pay, e)
    else (0, e)
  else
    let weight := e.gstate.totalProducerVoteWeight
    if fp.lt fp.zero weight then
      (fp.toI64 (fp.div (fp.mul (fp.ofInt bucket) prod.totalVotes) weight), e)
    else (0, e)

/-- What a claim of `owner`, whose row is `prod`, pays for blocks and for votes, and the election
after it. -/
def settleClaim (e : Election D) (owner : Name) (prod : ProducerInfo D) : Int × Int × Election D :=
  let fp := c.fp
  let threshold := prod.lastClaimTime + 3 * USECONDS_PER_DAY
  let crossed := decide (threshold ≤ c.now)
  let (prod2, updated) := match e.producers2.lookup owner with
    | some prod2 => (prod2, decide (threshold ≤ prod2.lastVotepayShareUpdate))
    | none => (⟨fp.zero, c.now⟩, true)
  let blockPay := perBlockPay e.gstate prod
  let (share, e) := updateProducerVotepayShare c e owner prod2
    (if updated then fp.zero else prod.totalVotes) true
  let (votePay, e) := perVotePay c e prod share crossed
  let votePay := if votePay < MIN_PERVOTE_DAILY_PAY then 0 else votePay
  let e : Election D := { e with
    gstate := { e.gstate with
      pervoteBucket := i64 (e.gstate.pervoteBucket - votePay)
      perblockBucket := i64 (e.gstate.perblockBucket - blockPay)
      totalUnpaidBlocks := u32 ((e.gstate.totalUnpaidBlocks : Int) - prod.unpaidBlocks) } }
  let (_, e) :=
    updateTotalVotepayShare c e (fp.neg share) (if updated then prod.totalVotes else fp.zero)
  (blockPay, votePay, { e with
    producers := e.producers.insert owner { prod with lastClaimTime := c.now, unpaidBlocks := 0 } })

def claimrewards (s : State D) (owner : Name) : Checked (State D) := do
  c.requireAuth owner
  let prod ← find s.producers owner "unable to find key"
  require (prod.isActive = true) "producer does not have an active key"
  require (MIN_ACTIVATED_STAKE ≤ s.gstate.totalActivatedStake)
    "cannot claim rewards until the chain is activated (at least 15% of all tokens participate in voting)"
  require (USECONDS_PER_DAY < c.now - prod.lastClaimTime) "already claimed rewards within past day"
  let s ← fillBuckets c s
  let (blockPay, votePay, election) := settleClaim c s.toElection owner prod
  let s : State D := { s with toElection := election }
  let core ← s.coreSymbol
  let s ← (if 0 < blockPay then s.payCore core BPAY_ACCOUNT owner blockPay "producer block pay"
    else pure s)
  if 0 < votePay then s.payCore core VPAY_ACCOUNT owner votePay "producer vote pay" else pure s

def updtrevision (s : State D) (revision : Nat) : Checked (State D) := do
  c.requireAuth c.self
  require (s.gstate2.revision < 255) "can not increment revision"
  require (revision = s.gstate2.revision + 1) "can only increment revision by one"
  require (revision ≤ 1) "specified revision is not yet supported by the code"
  pure { s with gstate2 := { s.gstate2 with revision } }

end DecentralBank.System
