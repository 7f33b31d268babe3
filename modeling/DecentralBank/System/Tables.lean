import DecentralBank.Token.Refinement

/-!
# The tables of the system contract

Rows of `decentralbank.system`'s tables and its three global records. A row's
primary key is the key of its table and not repeated in the row; a table
scoped by a name has the scope as the first part of the key. Doubles are a
type `D` left open.
-/

namespace DecentralBank.System

/-- What the code does with doubles. Each call brings its own, so nothing is
assumed of their values. -/
structure Doubles (D : Type) where
  ofInt : Int → D
  /-- `literal m d` is the constant `m` over the `d`th power of ten. -/
  literal : Nat → Nat → D
  trunc : D → Int
  add : D → D → D
  sub : D → D → D
  mul : D → D → D
  div : D → D → D
  neg : D → D
  fabs : D → D
  pow : D → D → D
  lt : D → D → Bool
  le : D → D → Bool

/-- `static_cast<int64_t>`. -/
def Doubles.toI64 {D : Type} (fp : Doubles D) (x : D) : Int := i64 (fp.trunc x)

def Doubles.zero {D : Type} (fp : Doubles D) : D := fp.ofInt 0

/-- `eosio::public_key`. -/
structure PublicKey where
  type : Nat
  data : List UInt8
  deriving DecidableEq

def PublicKey.default : PublicKey := ⟨0, List.replicate 33 0⟩

/-! ## Global records -/

structure BlockchainParameters where
  maxBlockNetUsage : Nat
  targetBlockNetUsagePct : Nat
  maxTransactionNetUsage : Nat
  basePerTransactionNetUsage : Nat
  netUsageLeeway : Nat
  contextFreeDiscountNetUsageNum : Nat
  contextFreeDiscountNetUsageDen : Nat
  maxBlockCpuUsage : Nat
  targetBlockCpuUsagePct : Nat
  maxTransactionCpuUsage : Nat
  minTransactionCpuUsage : Nat
  maxTransactionLifetime : Nat
  deferredTrxExpirationWindow : Nat
  maxTransactionDelay : Nat
  maxInlineActionSize : Nat
  maxInlineActionDepth : Nat
  maxAuthorityDepth : Nat
  deriving DecidableEq

/-- `eosio_global_state`. A time point counts microseconds, a block timestamp half seconds. -/
structure GlobalState (D : Type) extends BlockchainParameters where
  maxRamSize : Nat
  totalRamBytesReserved : Nat
  totalRamStake : Int
  lastProducerScheduleUpdate : Nat
  lastPervoteBucketFill : Int
  pervoteBucket : Int
  perblockBucket : Int
  totalUnpaidBlocks : Nat
  totalActivatedStake : Int
  threshActivatedStakeTime : Int
  lastProducerScheduleSize : Nat
  totalProducerVoteWeight : D
  lastNameClose : Nat
  currencyPriceEma : Int
  dmbPriceEma : Int
  sssPriceEma : Int
  deriving DecidableEq

def GlobalState.freeRam {D : Type} (g : GlobalState D) : Nat :=
  u64 (g.maxRamSize - g.totalRamBytesReserved)

structure GlobalState2 (D : Type) where
  newRamPerBlock : Nat
  lastRamIncrease : Nat
  lastBlockNum : Nat
  totalProducerVotepayShare : D
  revision : Nat
  deriving DecidableEq

structure GlobalState3 (D : Type) where
  lastVpayStateUpdate : Int
  totalVpayShareChangeRate : D
  deriving DecidableEq

/-! ## Rows -/

structure VoterInfo (D : Type) where
  proxy : Name
  producers : List Name
  staked : Int
  lastVoteWeight : D
  proxiedVoteWeight : D
  isProxy : Bool

structure ProducerInfo (D : Type) where
  totalVotes : D
  producerKey : PublicKey
  isActive : Bool
  url : List UInt8
  unpaidBlocks : Nat
  lastClaimTime : Int
  location : Nat

def ProducerInfo.deactivate {D : Type} (p : ProducerInfo D) : ProducerInfo D :=
  { p with producerKey := .default, isActive := false }

structure ProducerInfo2 (D : Type) where
  votepayShare : D
  lastVotepayShareUpdate : Int

structure UserResources where
  netWeight : Asset
  cpuWeight : Asset
  ramBytes : Int

/-- A `delband` row. -/
structure DelegatedBandwidth where
  netWeight : Asset
  cpuWeight : Asset
  deriving DecidableEq

/-- A `refunds` row; the time is in seconds. -/
structure RefundRequest where
  requestTime : Nat
  netAmount : Asset
  cpuAmount : Asset
  deriving DecidableEq

structure Connector (D : Type) where
  balance : Asset
  weight : D

/-- A `rammarket` row. -/
structure ExchangeState (D : Type) where
  supply : Asset
  base : Connector D
  quote : Connector D

/-- A `namebids` row: a negative bid marks a closed auction. -/
structure NameBid where
  highBidder : Name
  highBid : Int
  lastBidTime : Int

/-! ## State -/

/-- What elections read and write. -/
structure Election (D : Type) where
  voters : Table Name (VoterInfo D)
  producers : Table Name (ProducerInfo D)
  producers2 : Table Name (ProducerInfo2 D)
  gstate : GlobalState D
  gstate2 : GlobalState2 D
  gstate3 : GlobalState3 D

/-- The tables of the contract, the accounts of the chain and the ledger of `eosio.token`. -/
structure State (D : Type) extends Election D where
  rammarket : Option (ExchangeState D)
  userres : Table Name UserResources
  delband : Table (Name × Name) DelegatedBandwidth
  refunds : Table Name RefundRequest
  namebids : Table Name NameBid
  bidrefunds : Table (Name × Name) Asset
  accounts : List Name
  token : Token.State

/-- The account the contract runs on, the authorisations given, the time in
microseconds and the doubles. -/
structure Ctx (D : Type) where
  self : Name
  auth : List Name
  now : Int
  fp : Doubles D

/-- `eosio.token`. -/
def TOKEN_ACCOUNT : Name := ⟨6138663591592764928⟩
/-- `eosio.ram`. -/
def RAM_ACCOUNT : Name := ⟨6138663590285017088⟩
/-- `eosio.ramfee`. -/
def RAMFEE_ACCOUNT : Name := ⟨6138663590285202592⟩
/-- `eosio.stake`. -/
def STAKE_ACCOUNT : Name := ⟨6138663591134630912⟩
/-- `eosio.bpay`. -/
def BPAY_ACCOUNT : Name := ⟨6138663581940940800⟩
/-- `eosio.vpay`. -/
def VPAY_ACCOUNT : Name := ⟨6138663592678359040⟩
/-- `eosio.names`. -/
def NAMES_ACCOUNT : Name := ⟨6138663588137709568⟩
/-- `eosio.saving`. -/
def SAVING_ACCOUNT : Name := ⟨6138663590826845888⟩
/-- `b1`. -/
def B1 : Name := ⟨4053239664633446400⟩
/-- The name that is no account. -/
def NOBODY : Name := ⟨0⟩

def RAMCORE_SYMBOL : Symbol := ⟨⟨19512273778065746⟩, 4⟩
def RAM_SYMBOL : Symbol := ⟨⟨5062994⟩, 0⟩

def MIN_ACTIVATED_STAKE : Int := 1500000000000
def SECONDS_PER_DAY : Int := 86400
def USECONDS_PER_DAY : Int := 86400000000
def SECONDS_PER_YEAR : Int := 31449600

section

variable {D : Type} (c : Ctx D)

def Ctx.requireAuth (account : Name) : Checked Unit :=
  Checked.require (account ∈ c.auth) "missing required authority"

@[simp] theorem Ctx.requireAuth_eq_ok {account : Name} {u : Unit} :
    c.requireAuth account = .ok u ↔ account ∈ c.auth := by
  simp only [Ctx.requireAuth, Checked.require_eq_ok]

/-- `now()`, in seconds. -/
def Ctx.seconds : Nat := u32 (c.now / 1000000)

/-- `current_block_time().slot`. -/
def Ctx.slot : Nat := u32 ((c.now / 1000 - 946684800000) / 500)

def State.isAccount (s : State D) (account : Name) : Bool := decide (account ∈ s.accounts)

def State.coreSymbol (s : State D) : Checked Symbol :=
  match s.rammarket with
  | some market => pure market.quote.balance.symbol
  | none => .error "system contract must first be initialized"

/-- The inline `transfer` of `eosio.token`, with the authority of the sender. -/
def State.pay (s : State D) (source target : Name) (quantity : Asset) (memo : String) :
    Checked (State D) := do
  let token ← Token.transfer Token.EosioToken.contract ⟨TOKEN_ACCOUNT, [source], s.isAccount⟩
    s.token source target quantity memo.toUTF8.toList
  pure { s with token }

variable {c}

/-- What an account has of the token with a code. -/
def State.balance (s : State D) (account : Name) (code : SymbolCode) : Int :=
  Token.balanceOf s.token.accounts account code

theorem State.pay_ok {s s' : State D} {source target : Name} {quantity : Asset} {memo : String}
    (h : s.pay source target quantity memo = .ok s') :
    ∃ token, Token.transfer Token.EosioToken.contract ⟨TOKEN_ACCOUNT, [source], s.isAccount⟩ s.token
      source target quantity memo.toUTF8.toList = .ok token ∧ s' = { s with token } := by
  simp only [State.pay, Checked.bind_eq_ok, Checked.pure_eq_ok] at h
  obtain ⟨token, moved, rfl⟩ := h
  exact ⟨token, moved, rfl⟩

@[simp] theorem State.coreSymbol_eq_ok {s : State D} {symbol : Symbol} :
    s.coreSymbol = .ok symbol ↔ ∃ market, s.rammarket = some market ∧
      market.quote.balance.symbol = symbol := by
  unfold State.coreSymbol
  cases s.rammarket <;> simp

end

end DecentralBank.System
