import DecentralBank.System.Voting

/-!
# Staking

The staking half of `delegate_bandwidth.cpp`. Limits on resources, which the
chain keeps, and the deferred `refund` are in `Blockchain`.
-/

namespace DecentralBank.System

open Checked

variable {D : Type} (c : Ctx D)

def REFUND_DELAY_SEC : Int := 3 * 24 * 3600

def validateB1Vesting (stake : Int) : Checked Unit :=
  let maxClaimable := 1000000000000
  let claimable := c.fp.toI64 (c.fp.div
    (c.fp.mul (c.fp.ofInt maxClaimable) (c.fp.ofInt ((c.seconds : Int) - 1527811200)))
    (c.fp.ofInt (10 * SECONDS_PER_YEAR)))
  require (i64 (maxClaimable - claimable) ≤ stake) "b1 can only claim their tokens over 10 years"

/-! ## The parts of `changebw` -/

/-- The stake delegated from `owner` to `receiver`. -/
def updateDelegated (delband : Table (Name × Name) DelegatedBandwidth) (owner receiver : Name)
    (net cpu : Asset) : Checked (Table (Name × Name) DelegatedBandwidth) := do
  let row ← (match delband.lookup (owner, receiver) with
    | none => pure ⟨net, cpu⟩
    | some row => do
      let netWeight ← row.netWeight.add net
      let cpuWeight ← row.cpuWeight.add cpu
      pure ⟨netWeight, cpuWeight⟩)
  require (0 ≤ row.netWeight.amount) "insufficient staked net bandwidth"
  require (0 ≤ row.cpuWeight.amount) "insufficient staked cpu bandwidth"
  if row.netWeight.amount = 0 ∧ row.cpuWeight.amount = 0 then
    pure (delband.erase (owner, receiver))
  else pure (delband.insert (owner, receiver) row)

/-- The totals of `receiver`. -/
def updateTotals (userres : Table Name UserResources) (receiver : Name) (net cpu : Asset) :
    Checked (Table Name UserResources) := do
  let row ← (match userres.lookup receiver with
    | none => pure ⟨net, cpu, 0⟩
    | some row => do
      let netWeight ← row.netWeight.add net
      let cpuWeight ← row.cpuWeight.add cpu
      pure ⟨netWeight, cpuWeight, row.ramBytes⟩)
  require (0 ≤ row.netWeight.amount) "insufficient staked total net bandwidth"
  require (0 ≤ row.cpuWeight.amount) "insufficient staked total cpu bandwidth"
  if row.netWeight.amount = 0 ∧ row.cpuWeight.amount = 0 ∧ row.ramBytes = 0 then
    pure (userres.erase receiver)
  else pure (userres.insert receiver row)

/-- What is left of a refund of `pending`, and of a change `balance`, after one is set against the
other. -/
def drainRefund (pending balance : Asset) : Checked (Asset × Asset) := do
  let left ← pending.sub balance
  if left.amount < 0 then pure (⟨0, left.symbol⟩, left.neg) else pure (left, ⟨0, balance.symbol⟩)

/-- The refund a change `balance` opens, and what is left of the change. -/
def openRefund (core : Symbol) (balance : Asset) : Checked (Asset × Asset) :=
  if balance.amount < 0 then pure (balance.neg, ⟨0, balance.symbol⟩)
  else do
    let none ← Asset.make 0 core
    pure (none, balance)

/-- The refunds, and what is left of the changes to be transferred. -/
def updateRefund (s : State D) (owner : Name) (net cpu : Asset) (toSelf : Bool) :
    Checked (Table Name RefundRequest × Asset × Asset) :=
  if toSelf = true ∨ net.amount + cpu.amount < 0 then
    match s.refunds.lookup owner with
    | some req => do
      let (netAmount, netBalance) ← drainRefund req.netAmount net
      let (cpuAmount, cpuBalance) ← drainRefund req.cpuAmount cpu
      require (0 ≤ netAmount.amount) "negative net refund amount"
      require (0 ≤ cpuAmount.amount) "negative cpu refund amount"
      let requestTime := if net.amount < 0 ∨ cpu.amount < 0 then c.seconds else req.requestTime
      let refunds :=
        if netAmount.amount = 0 ∧ cpuAmount.amount = 0 then s.refunds.erase owner
        else s.refunds.insert owner ⟨requestTime, netAmount, cpuAmount⟩
      pure (refunds, netBalance, cpuBalance)
    | none =>
      if net.amount < 0 ∨ cpu.amount < 0 then do
        let core ← s.coreSymbol
        let (netAmount, netBalance) ← openRefund core net
        let (cpuAmount, cpuBalance) ← openRefund core cpu
        pure (s.refunds.insert owner ⟨c.seconds, netAmount, cpuAmount⟩, netBalance, cpuBalance)
      else pure (s.refunds, net, cpu)
  else pure (s.refunds, net, cpu)

/-- A change of stake is paid from the refund of `owner`, or by `source`. -/
def settleStake (s : State D) (source owner : Name) (net cpu : Asset) (toSelf : Bool) :
    Checked (State D) := do
  let (refunds, netBalance, cpuBalance) ← updateRefund c s owner net cpu toSelf
  let transferAmount ← netBalance.add cpuBalance
  let s := { s with refunds }
  if 0 < transferAmount.amount then
    s.pay source STAKE_ACCOUNT transferAmount "stake bandwidth"
  else pure s

/-- The row of a voter, who may have none yet, with more or less staked. -/
def restake (row : Option (VoterInfo D)) (total : Asset) : VoterInfo D :=
  match row with
  | none => { VoterInfo.default c with staked := total.amount }
  | some voter => { voter with staked := i64 (voter.staked + total.amount) }

def updateVotingPower (s : State D) (owner : Name) (total : Asset) : Checked (State D) := do
  let voter := restake c (s.voters.lookup owner) total
  require (0 ≤ voter.staked) "stake for voting cannot be negative"
  (if owner = B1 then validateB1Vesting c voter.staked else pure ())
  let e : Election D := { s.toElection with voters := s.voters.insert owner voter }
  let election ← (if voter.producers ≠ [] ∨ voter.proxy ≠ NOBODY then
      updateVotes c e owner voter.proxy voter.producers false
    else pure e)
  pure { s with toElection := election }

def changebw (s : State D) (source receiver : Name) (net cpu : Asset) (transfer : Bool) :
    Checked (State D) := do
  c.requireAuth source
  require (net.amount ≠ 0 ∨ cpu.amount ≠ 0) "should stake non-zero amount"
  let total ← net.add cpu
  require (max |net.amount| |cpu.amount| ≤ |total.amount|)
    "net and cpu deltas cannot be opposite signs"
  let owner := if transfer then receiver else source
  let delband ← updateDelegated s.delband owner receiver net cpu
  let userres ← updateTotals s.userres receiver net cpu
  let s : State D := { s with delband, userres }
  let s ← (if STAKE_ACCOUNT ≠ source then
      settleStake c s source owner net cpu (!transfer && decide (owner = receiver))
    else pure s)
  updateVotingPower c s owner total

/-! ## Actions -/

/-- `quantity >= zero_asset`. -/
def notNegative (core : Symbol) (quantity : Asset) (message : String) : Checked Unit := do
  quantity.comparable ⟨0, core⟩
  require (0 ≤ quantity.amount) message

def delegatebw (s : State D) (source receiver : Name) (net cpu : Asset) (transfer : Bool) :
    Checked (State D) := do
  let core ← s.coreSymbol
  let zero ← Asset.make 0 core
  notNegative zero.symbol cpu "must stake a positive amount"
  notNegative zero.symbol net "must stake a positive amount"
  require (0 < i64 (net.amount + cpu.amount)) "must stake a positive amount"
  require (transfer = false ∨ source ≠ receiver) "cannot use transfer flag if delegating to self"
  changebw c s source receiver net cpu transfer

def undelegatebw (s : State D) (source receiver : Name) (net cpu : Asset) : Checked (State D) := do
  let core ← s.coreSymbol
  let zero ← Asset.make 0 core
  notNegative zero.symbol cpu "must unstake a positive amount"
  notNegative zero.symbol net "must unstake a positive amount"
  require (0 < i64 (cpu.amount + net.amount)) "must unstake a positive amount"
  require (MIN_ACTIVATED_STAKE ≤ s.gstate.totalActivatedStake)
    "cannot undelegate bandwidth until the chain is activated (at least 15% of all tokens participate in voting)"
  changebw c s source receiver net.neg cpu.neg false

def refund (s : State D) (owner : Name) : Checked (State D) := do
  c.requireAuth owner
  let req ← find s.refunds owner "refund request not found"
  require (((req.requestTime : Int) + REFUND_DELAY_SEC) * 1000000 ≤ c.now)
    "refund is not available yet"
  let amount ← req.netAmount.add req.cpuAmount
  let s ← s.pay STAKE_ACCOUNT owner amount "unstake"
  pure { s with refunds := s.refunds.erase owner }

end DecentralBank.System
