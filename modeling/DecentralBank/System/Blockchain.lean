import DecentralBank.System.Auctions
import DecentralBank.System.Elections

/-!
# The contract on its chain

What the contract asks of the chain: limits on the resources of accounts,
deferred transactions, the schedule of producers and the parameters. A step is a
call, a deferred transaction that is run or dropped, or an action of
`eosio.token`. What an action asks is written once its tables are, and fails
with it.
-/

namespace DecentralBank.System

open Checked Runs

variable {D : Type}

/-- The limits the chain enforces on the resources of an account. -/
structure Limits where
  ramBytes : Int
  netWeight : Int
  cpuWeight : Int
  deriving DecidableEq

/-- A deferred transaction. The chain may run its action from `ready` on, in microseconds. -/
structure Deferred where
  ready : Int
  authority : Name
  action : Action

/-- What the chain keeps. A sender id is two words, the higher first. -/
structure Host where
  parameters : BlockchainParameters
  limits : Table Name Limits
  deferred : Table (Nat × Nat) Deferred
  proposed : List ProducerKey

structure Blockchain (D : Type) extends State D, Host

def RAM_GIFT_BYTES : Int := 1400

/-- The sender id of the deferred `refund` of `owner`. -/
def refundId (owner : Name) : Nat × Nat := (0, owner.value)

/-- The sender id of the deferred `bidrefund` of `bidder`. -/
def bidrefundId (newname bidder : Name) : Nat × Nat := (newname.value, bidder.value)

section

variable (c : Ctx D)

/-! ## What is asked of the chain -/

/-- `set_resource_limits`, of an account that there is. -/
def setResourceLimits (limits : Table Name Limits) (account : Name) (l : Limits) :
    Checked (Table Name Limits) := do
  let _ ← find limits account "unknown account"
  pure (limits.insert account l)

/-- The limits of an account that has traded in RAM, whose row is `row`. -/
def UserResources.limits (row : UserResources) : Limits :=
  ⟨i64 (row.ramBytes + RAM_GIFT_BYTES), row.netWeight.amount, row.cpuWeight.amount⟩

/-- The limits of `account` after it has bought or sold RAM. -/
def askTrade (h : Host) (s : State D) (account : Name) : Checked Host := do
  let row ← find s.userres account "no resource row"
  let limits ← setResourceLimits h.limits account row.limits
  pure { h with limits }

/-- The limits of the receiver of stake: no row is left of one that has nothing. -/
def askLimits (h : Host) (s : State D) (receiver : Name) : Checked Host := do
  let current ← find h.limits receiver "unknown account"
  let granted := match s.userres.lookup receiver with
    | some row => row.limits
    | none => ⟨RAM_GIFT_BYTES, 0, 0⟩
  let limits ← setResourceLimits h.limits receiver
    { granted with ramBytes := max granted.ramBytes current.ramBytes }
  pure { h with limits }

/-- A refund that was written is claimed when it is due; any other change of stake cancels the
claim. -/
def askRefund (h : Host) (s : State D) (owner : Name) (net cpu : Asset) (toSelf : Bool) : Host :=
  let canceled := h.deferred.erase (refundId owner)
  let needed := (toSelf || decide (net.amount + cpu.amount < 0)) && (s.refunds.lookup owner).isSome
  let deferred :=
    if needed then canceled.insert (refundId owner)
      ⟨c.now + REFUND_DELAY_SEC * 1000000, owner, .refund owner⟩
    else canceled
  { h with deferred }

def askChangebw (h : Host) (s : State D) (source receiver : Name) (net cpu : Asset)
    (transfer : Bool) : Checked Host := do
  let owner := if transfer then receiver else source
  let h ← askLimits h s receiver
  pure (if STAKE_ACCOUNT ≠ source then
    askRefund c h s owner net cpu (!transfer && decide (owner = receiver)) else h)

/-- The bidder that is outdone, whose bid was `outdone`, has its bid back. -/
def askBid (h : Host) (newname : Name) (outdone : Option NameBid) : Host :=
  match outdone with
  | none => h
  | some current =>
    let id := bidrefundId newname current.highBidder
    let deferred := (h.deferred.erase id).insert id
      ⟨c.now, c.self, .bidrefund current.highBidder newname⟩
    { h with deferred }

/-- What an action asks that found the tables `s` and leaves `s'`. -/
def Action.ask (h : Host) (s s' : State D) : Action → Checked Host
  | .newaccount _ newact => pure { h with limits := h.limits.insert newact ⟨0, 0, 0⟩ }
  | .buyram _ receiver _ | .buyrambytes _ receiver _ => askTrade h s' receiver
  | .sellram account _ => askTrade h s' account
  | .delegatebw source receiver net cpu transfer =>
    askChangebw c h s' source receiver net cpu transfer
  | .undelegatebw source receiver net cpu =>
    askChangebw c h s' source receiver net.neg cpu.neg false
  | .bidname _ newname _ => pure (askBid c h newname (s.namebids.lookup newname))
  | _ => pure h

/-! ## Blocks -/

/-- `everyMinute`, with the schedule that is proposed. -/
def electAndClose (accepts : List ProducerKey → Bool) (s : State D) (slot : Nat) :
    State D × Option (List ProducerKey) :=
  if 120 < u32 ((slot : Int) - s.gstate.lastProducerScheduleUpdate) then
    let (election, proposed) := updateElectedProducers c.fp accepts s.toElection slot
    let s : State D := { s with toElection := election }
    (if BLOCKS_PER_DAY < u32 ((slot : Int) - s.gstate.lastNameClose) then closeAuction c s slot
      else s, proposed)
  else (s, none)

def Blockchain.onblock (accepts : List ProducerKey → Bool) (ch : Blockchain D) (slot : Nat)
    (producer : Name) : Checked (Blockchain D) := do
  c.requireAuth c.self
  let s : State D := { ch.toState with gstate2 := { ch.gstate2 with lastBlockNum := slot } }
  if s.gstate.totalActivatedStake < MIN_ACTIVATED_STAKE then pure { ch with toState := s }
  else
    let fill := s.gstate.lastPervoteBucketFill
    let s : State D := { s with
      gstate := { s.gstate with lastPervoteBucketFill := if fill = 0 then c.now else fill } }
    let (s, proposed) := electAndClose c accepts (countBlock s producer) slot
    pure { ch with toState := s, proposed := proposed.getD ch.proposed }

/-! ## Actions -/

def setparams (s : State D) (params : BlockchainParameters) : Checked (State D) := do
  c.requireAuth c.self
  require (3 ≤ params.maxAuthorityDepth) "max_authority_depth should be at least 3"
  pure { s with gstate := { s.gstate with toBlockchainParameters := params } }

def Blockchain.setalimits (ch : Blockchain D) (account : Name) (l : Limits) : Checked (Blockchain D) := do
  c.requireAuth c.self
  require (ch.userres.lookup account).isNone "only supports unlimited accounts"
  let limits ← setResourceLimits ch.limits account l
  pure { ch with limits }

/-- The actions of the contract, with those that only set up the chain. -/
inductive Act
  | system (action : Action)
  | setparams (params : BlockchainParameters)
  | setalimits (account : Name) (ram net cpu : Int)

def Act.apply (accepts : List ProducerKey → Bool) (ch : Blockchain D) : Act → Checked (Blockchain D)
  | .system (.onblock slot producer) => ch.onblock c accepts slot producer
  | .system action => do
    let s ← action.apply c ch.toState
    let h ← action.ask c ch.toHost ch.toState s
    pure ⟨s, h⟩
  | .setparams params => do
    let s ← System.setparams c ch.toState params
    pure { ch with toState := s, parameters := params }
  | .setalimits account ram net cpu => ch.setalimits c account ⟨ram, net, cpu⟩

end

/-! ## Steps -/

/-- `accepts` is what the chain answers when a schedule is proposed. -/
inductive Event
  | call (auth : List Name) (now : Int) (accepts : List ProducerKey → Bool) (act : Act)
  | fire (id : Nat × Nat) (now : Int)
  | drop (id : Nat × Nat)
  | token (auth : List Name) (action : Token.EosioToken.Action)

/-- A deferred transaction is gone when it has been run, also if it failed. -/
def Blockchain.fire (self : Name) (fp : Doubles D) (ch : Blockchain D) (id : Nat × Nat) (now : Int) :
    Checked (Blockchain D) := do
  let tx ← find ch.deferred id "unknown transaction"
  require (tx.ready ≤ now) "transaction is not ready"
  let gone := { ch with deferred := ch.deferred.erase id }
  match Act.apply ⟨self, [tx.authority], now, fp⟩ (fun _ => false) gone (.system tx.action) with
  | .ok ch => pure ch
  | .error _ => pure gone

def Blockchain.perform (self : Name) (fp : Doubles D) (ch : Blockchain D) : Event → Checked (Blockchain D)
  | .call auth now accepts act => do
    require (∀ account ∈ auth, account ∈ ch.accounts)
      "transaction declares authority of account that does not exist"
    act.apply ⟨self, auth, now, fp⟩ accepts ch
  | .fire id now => ch.fire self fp id now
  | .drop id => pure { ch with deferred := ch.deferred.erase id }
  | .token auth action => do
    require (∀ account ∈ auth, account ∈ ch.accounts)
      "transaction declares authority of account that does not exist"
    let token ← Token.EosioToken.apply ⟨TOKEN_ACCOUNT, auth, ch.isAccount⟩ ch.token action
    pure { ch with token }

def Blockchain.step (self : Name) (fp : Doubles D) (ch : Blockchain D) (e : Event) : Blockchain D :=
  match ch.perform self fp e with
  | .ok ch' => ch'
  | .error _ => ch

theorem Blockchain.step_eq {self : Name} {fp : Doubles D} {ch ch' : Blockchain D} {e : Event}
    (done : ch.perform self fp e = .ok ch') : ch.step self fp e = ch' := by
  rw [Blockchain.step, done]

/-! ## The contract below -/

/-- The tables, but for the size of the schedule. -/
def State.resize (s : State D) (size : Nat) : State D :=
  { s with gstate := { s.gstate with lastProducerScheduleSize := size } }

variable {c : Ctx D} {accepts : List ProducerKey → Bool} {s s' : State D} {ch ch' : Blockchain D}

theorem closeAuction_resize (s : State D) (slot size : Nat) :
    closeAuction c (s.resize size) slot = (closeAuction c s slot).resize size := by
  have bids : (s.resize size).namebids = s.namebids := rfl
  have time : (s.resize size).gstate.threshActivatedStakeTime =
    s.gstate.threshActivatedStakeTime := rfl
  unfold closeAuction
  rw [bids]
  cases highestBid s.namebids with
  | none => rfl
  | some highest =>
    simp only [time]
    split
    · rfl
    · rfl

/-- A schedule that is proposed is of the producers with the most votes, and no shorter than the
last. -/
def Proposed (fp : Doubles D) (producers : Table Name (ProducerInfo D)) (size size' : Nat)
    (proposed : Option (List ProducerKey)) : Prop :=
  (proposed = none ∧ size' = size) ∨
    (proposed = some (packSchedule (topProducers fp producers)) ∧
      size' = (topProducers fp producers).length ∧ size ≤ size')

theorem updateElectedProducers_ok (fp : Doubles D) (accepts : List ProducerKey → Bool)
    (e : Election D) (slot : Nat) :
    ∃ size, Proposed fp e.producers e.gstate.lastProducerScheduleSize size
        (updateElectedProducers fp accepts e slot).2 ∧
      (updateElectedProducers fp accepts e slot).1 = { e with gstate := { e.gstate with
        lastProducerScheduleUpdate := slot, lastProducerScheduleSize := size } } := by
  unfold updateElectedProducers
  simp only
  split
  · exact ⟨_, Or.inl ⟨rfl, rfl⟩, rfl⟩
  · rename_i enough
    split
    · have small : (topProducers fp e.producers).length < 2 ^ 16 :=
        lt_of_le_of_lt Ranking.length_leading_le (by decide)
      refine ⟨_, Or.inr ⟨rfl, rfl, not_lt.mp enough⟩, ?_⟩
      rw [Nat.mod_eq_of_lt small]
    · exact ⟨_, Or.inl ⟨rfl, rfl⟩, rfl⟩

theorem electAndClose_ok (accepts : List ProducerKey → Bool) (s : State D) (slot : Nat) :
    ∃ size, Proposed c.fp s.producers s.gstate.lastProducerScheduleSize size
        (electAndClose c accepts s slot).2 ∧
      (electAndClose c accepts s slot).1 = (everyMinute c s slot).resize size := by
  unfold electAndClose everyMinute
  split
  · obtain ⟨size, proposed, same⟩ := updateElectedProducers_ok c.fp accepts s.toElection slot
    refine ⟨size, proposed, ?_⟩
    simp only [same]
    split
    · exact closeAuction_resize (c := c) { s with
        gstate := { s.gstate with lastProducerScheduleUpdate := slot } } slot size
    · rfl
  · exact ⟨_, Or.inl ⟨rfl, rfl⟩, rfl⟩

theorem everyMinute_producers (s : State D) (slot : Nat) :
    (everyMinute c s slot).producers = s.producers := by
  obtain ⟨_, _, _, -, same⟩ := everyMinute_ok (c := c) (s := s) slot
  rw [same]

theorem countBlock_size (s : State D) (producer : Name) :
    (countBlock s producer).gstate.lastProducerScheduleSize =
      s.gstate.lastProducerScheduleSize := by
  unfold countBlock
  split
  · rfl
  · rfl

/-- A block does to the tables what it does without a schedule, and resizes that. -/
theorem Blockchain.onblock_ok {slot : Nat} {producer : Name}
    (h : ch.onblock c accepts slot producer = .ok ch') :
    ∃ s size proposed, System.onblock c ch.toState slot producer = .ok s ∧
      ch' = { ch with toState := s.resize size, proposed := proposed.getD ch.proposed } ∧
      Proposed c.fp s.producers ch.gstate.lastProducerScheduleSize size proposed := by
  simp only [Blockchain.onblock, bind_eq_ok, Ctx.requireAuth_eq_ok, exists_const, ite_eq_ok,
    pure_eq_ok] at h
  simp only [System.onblock, bind_eq_ok, Ctx.requireAuth_eq_ok, exists_const, ite_eq_ok, pure_eq_ok]
  obtain ⟨signed, ⟨idle, rfl⟩ | ⟨active, rfl⟩⟩ := h
  · exact ⟨_, ch.gstate.lastProducerScheduleSize, none, ⟨signed, Or.inl ⟨idle, rfl⟩⟩, rfl,
      Or.inl ⟨rfl, rfl⟩⟩
  · obtain ⟨size, proposed, same⟩ := electAndClose_ok (c := c) accepts
      (countBlock { ch.toState with
        gstate2 := { ch.gstate2 with lastBlockNum := slot }
        gstate := { ch.gstate with lastPervoteBucketFill :=
          if ch.gstate.lastPervoteBucketFill = 0 then c.now
          else ch.gstate.lastPervoteBucketFill } } producer) slot
    refine ⟨_, size, _, ⟨signed, Or.inr ⟨active, rfl⟩⟩, by rw [same], ?_⟩
    rw [countBlock_size] at proposed
    rw [everyMinute_producers]
    exact proposed

/-! ## A chain with three users -/

namespace Sample

/-- No limits are set. -/
def unlimited : Table Name Limits :=
  users.foldl (fun limits user => limits.insert user ⟨-1, -1, -1⟩) ∅

def blockchain (s : State Int) : Blockchain Int :=
  ⟨s, ⟨parameters, unlimited, ∅, []⟩⟩

/-- A call at `now`, in seconds, to a chain that takes every schedule. -/
def signed (account : Name) (now : Int) (action : Action) : Event :=
  .call [account] (now * 1000000) (fun _ => true) (.system action)

theorem whole_ordered : whole.Ordered := by
  constructor <;> simp only [whole, Doubles.isNumber, Doubles.zero, decide_eq_true_eq,
    decide_eq_false_iff_not, decide_eq_decide, id] <;> omega

end Sample

end DecentralBank.System
