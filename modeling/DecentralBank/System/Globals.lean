import DecentralBank.Lib.Codec
import DecentralBank.System.Tables

/-!
# The global records between actions

The constructor of the contract reads the three global records from their
tables and its destructor writes them back, each by its list of members. The
list of `eosio_global_state` ends before the three average prices.
-/

namespace DecentralBank.System

open Codec

variable {D : Type}

/-- How a double is stored: its 64 bits, from which it can be told. -/
structure DoubleBits (D : Type) where
  bits : D → Nat
  ofBits : Nat → D
  bits_lt : ∀ x, bits x < 2 ^ 64
  ofBits_bits : ∀ x, ofBits (bits x) = x

def DoubleBits.double (e : DoubleBits D) : Codec D :=
  uint64.via (fun _ => True) e.bits e.ofBits (fun _ => e.bits_lt _) (fun _ => e.ofBits_bits _)

/-! ## Members -/

def BlockchainParameters.members : List (Member BlockchainParameters) :=
  [uint64.member (·.maxBlockNetUsage) ({ · with maxBlockNetUsage := · }),
    uint32.member (·.targetBlockNetUsagePct) ({ · with targetBlockNetUsagePct := · }),
    uint32.member (·.maxTransactionNetUsage) ({ · with maxTransactionNetUsage := · }),
    uint32.member (·.basePerTransactionNetUsage) ({ · with basePerTransactionNetUsage := · }),
    uint32.member (·.netUsageLeeway) ({ · with netUsageLeeway := · }),
    uint32.member (·.contextFreeDiscountNetUsageNum)
      ({ · with contextFreeDiscountNetUsageNum := · }),
    uint32.member (·.contextFreeDiscountNetUsageDen)
      ({ · with contextFreeDiscountNetUsageDen := · }),
    uint32.member (·.maxBlockCpuUsage) ({ · with maxBlockCpuUsage := · }),
    uint32.member (·.targetBlockCpuUsagePct) ({ · with targetBlockCpuUsagePct := · }),
    uint32.member (·.maxTransactionCpuUsage) ({ · with maxTransactionCpuUsage := · }),
    uint32.member (·.minTransactionCpuUsage) ({ · with minTransactionCpuUsage := · }),
    uint32.member (·.maxTransactionLifetime) ({ · with maxTransactionLifetime := · }),
    uint32.member (·.deferredTrxExpirationWindow) ({ · with deferredTrxExpirationWindow := · }),
    uint32.member (·.maxTransactionDelay) ({ · with maxTransactionDelay := · }),
    uint32.member (·.maxInlineActionSize) ({ · with maxInlineActionSize := · }),
    uint16.member (·.maxInlineActionDepth) ({ · with maxInlineActionDepth := · }),
    uint16.member (·.maxAuthorityDepth) ({ · with maxAuthorityDepth := · })]

def GlobalState.withParameters (g : GlobalState D) (parameters : BlockchainParameters) :
    GlobalState D :=
  { g with toBlockchainParameters := parameters }

/-- `EOSLIB_SERIALIZE_DERIVED`: the members of the base come first. -/
def GlobalState.members (e : DoubleBits D) : List (Member (GlobalState D)) :=
  BlockchainParameters.members.map
    (·.inherited (·.toBlockchainParameters) GlobalState.withParameters) ++
  [uint64.member (·.maxRamSize) ({ · with maxRamSize := · }),
    uint64.member (·.totalRamBytesReserved) ({ · with totalRamBytesReserved := · }),
    int64.member (·.totalRamStake) ({ · with totalRamStake := · }),
    uint32.member (·.lastProducerScheduleUpdate) ({ · with lastProducerScheduleUpdate := · }),
    int64.member (·.lastPervoteBucketFill) ({ · with lastPervoteBucketFill := · }),
    int64.member (·.pervoteBucket) ({ · with pervoteBucket := · }),
    int64.member (·.perblockBucket) ({ · with perblockBucket := · }),
    uint32.member (·.totalUnpaidBlocks) ({ · with totalUnpaidBlocks := · }),
    int64.member (·.totalActivatedStake) ({ · with totalActivatedStake := · }),
    int64.member (·.threshActivatedStakeTime) ({ · with threshActivatedStakeTime := · }),
    uint16.member (·.lastProducerScheduleSize) ({ · with lastProducerScheduleSize := · }),
    e.double.member (·.totalProducerVoteWeight) ({ · with totalProducerVoteWeight := · }),
    uint32.member (·.lastNameClose) ({ · with lastNameClose := · })]

def GlobalState2.members (e : DoubleBits D) : List (Member (GlobalState2 D)) :=
  [uint16.member (·.newRamPerBlock) ({ · with newRamPerBlock := · }),
    uint32.member (·.lastRamIncrease) ({ · with lastRamIncrease := · }),
    uint32.member (·.lastBlockNum) ({ · with lastBlockNum := · }),
    e.double.member (·.totalProducerVotepayShare) ({ · with totalProducerVotepayShare := · }),
    uint8.member (·.revision) ({ · with revision := · })]

def GlobalState3.members (e : DoubleBits D) : List (Member (GlobalState3 D)) :=
  [int64.member (·.lastVpayStateUpdate) ({ · with lastVpayStateUpdate := · }),
    e.double.member (·.totalVpayShareChangeRate) ({ · with totalVpayShareChangeRate := · })]

/-! ## The constructor and the destructor -/

/-- The members of `eosio_global_state` that are not in its list, and have no initializer. -/
structure Averages where
  currencyPriceEma : Int
  dmbPriceEma : Int
  sssPriceEma : Int
  deriving DecidableEq

def GlobalState.averages (g : GlobalState D) : Averages :=
  ⟨g.currencyPriceEma, g.dmbPriceEma, g.sssPriceEma⟩

def GlobalState.withAverages (g : GlobalState D) (a : Averages) : GlobalState D :=
  { g with
    currencyPriceEma := a.currencyPriceEma
    dmbPriceEma := a.dmbPriceEma
    sssPriceEma := a.sssPriceEma }

/-- What a new `eosio_global_state` finds in memory for the members without an initializer. -/
structure Memory where
  base : BlockchainParameters
  averages : Averages

/-- A new `eosio_global_state`. -/
def GlobalState.fresh (e : DoubleBits D) (m : Memory) : GlobalState D where
  toBlockchainParameters := m.base
  maxRamSize := 64 * 1024 * 1024 * 1024
  totalRamBytesReserved := 0
  totalRamStake := 0
  lastProducerScheduleUpdate := 0
  lastPervoteBucketFill := 0
  pervoteBucket := 0
  perblockBucket := 0
  totalUnpaidBlocks := 0
  totalActivatedStake := 0
  threshActivatedStakeTime := 0
  lastProducerScheduleSize := 0
  totalProducerVoteWeight := e.ofBits 0
  lastNameClose := 0
  currencyPriceEma := m.averages.currencyPriceEma
  dmbPriceEma := m.averages.dmbPriceEma
  sssPriceEma := m.averages.sssPriceEma

def GlobalState2.fresh (e : DoubleBits D) : GlobalState2 D := ⟨0, 0, 0, e.ofBits 0, 0⟩

def GlobalState3.fresh (e : DoubleBits D) : GlobalState3 D := ⟨0, e.ofBits 0⟩

def getDefaultParameters (e : DoubleBits D) (parameters : BlockchainParameters) (m : Memory) :
    GlobalState D :=
  (GlobalState.fresh e m).withParameters parameters

/-- The rows of the tables `global`, `global2` and `global3`. -/
structure GlobalTables where
  global : Option (List UInt8)
  global2 : Option (List UInt8)
  global3 : Option (List UInt8)

structure Globals (D : Type) where
  gstate : GlobalState D
  gstate2 : GlobalState2 D
  gstate3 : GlobalState3 D
  deriving DecidableEq

def Election.globals (e : Election D) : Globals D := ⟨e.gstate, e.gstate2, e.gstate3⟩

/-- `exists() ? get() : other`, where `get` reads the row into the object `fresh`. -/
def getOr {S : Type} (members : List (Member S)) (fresh : S) (row : Option (List UInt8))
    (other : S) : Checked S :=
  match row with
  | some bytes => Prod.fst <$> deserialize members fresh bytes
  | none => pure other

/-- The constructor of `system_contract`, where the chain has the parameters `parameters`. -/
def construct (e : DoubleBits D) (parameters : BlockchainParameters) (m : Memory)
    (t : GlobalTables) :
    Checked (Globals D) := do
  let gstate ← getOr (GlobalState.members e) (.fresh e m) t.global
    (getDefaultParameters e parameters m)
  let gstate2 ← getOr (GlobalState2.members e) (.fresh e) t.global2 (.fresh e)
  let gstate3 ← getOr (GlobalState3.members e) (.fresh e) t.global3 (.fresh e)
  pure ⟨gstate, gstate2, gstate3⟩

/-- The destructor of `system_contract`. -/
def destruct (e : DoubleBits D) (g : Globals D) : GlobalTables where
  global := some (serialize (GlobalState.members e) g.gstate)
  global2 := some (serialize (GlobalState2.members e) g.gstate2)
  global3 := some (serialize (GlobalState3.members e) g.gstate3)

/-! ## Reading back -/

/-! A member holds a value of its type. Of the averages nothing is asked. -/

structure GlobalState.Typed (g : GlobalState D) : Prop where
  base : ∀ m ∈ BlockchainParameters.members, m.Valid g.toBlockchainParameters
  maxRamSize : uint64.Valid g.maxRamSize
  totalRamBytesReserved : uint64.Valid g.totalRamBytesReserved
  totalRamStake : int64.Valid g.totalRamStake
  lastProducerScheduleUpdate : uint32.Valid g.lastProducerScheduleUpdate
  lastPervoteBucketFill : int64.Valid g.lastPervoteBucketFill
  pervoteBucket : int64.Valid g.pervoteBucket
  perblockBucket : int64.Valid g.perblockBucket
  totalUnpaidBlocks : uint32.Valid g.totalUnpaidBlocks
  totalActivatedStake : int64.Valid g.totalActivatedStake
  threshActivatedStakeTime : int64.Valid g.threshActivatedStakeTime
  lastProducerScheduleSize : uint16.Valid g.lastProducerScheduleSize
  lastNameClose : uint32.Valid g.lastNameClose

structure GlobalState2.Typed (g : GlobalState2 D) : Prop where
  newRamPerBlock : uint16.Valid g.newRamPerBlock
  lastRamIncrease : uint32.Valid g.lastRamIncrease
  lastBlockNum : uint32.Valid g.lastBlockNum
  revision : uint8.Valid g.revision

structure Globals.Typed (g : Globals D) : Prop where
  gstate : g.gstate.Typed
  gstate2 : g.gstate2.Typed
  gstate3 : int64.Valid g.gstate3.lastVpayStateUpdate

theorem GlobalState.Typed.valid {g : GlobalState D} (h : g.Typed) (e : DoubleBits D) :
    ∀ m ∈ GlobalState.members e, m.Valid g := by
  rw [GlobalState.members, List.forall_mem_append, List.forall_mem_map]
  constructor
  · exact h.base
  · simp only [List.forall_mem_cons, List.not_mem_nil, false_imp_iff, implies_true, and_true]
    exact ⟨h.maxRamSize, h.totalRamBytesReserved, h.totalRamStake, h.lastProducerScheduleUpdate,
      h.lastPervoteBucketFill, h.pervoteBucket, h.perblockBucket, h.totalUnpaidBlocks,
      h.totalActivatedStake, h.threshActivatedStakeTime, h.lastProducerScheduleSize, trivial,
      h.lastNameClose⟩

theorem GlobalState2.Typed.valid {g : GlobalState2 D} (h : g.Typed) (e : DoubleBits D) :
    ∀ m ∈ GlobalState2.members e, m.Valid g := by
  simp only [GlobalState2.members, List.forall_mem_cons, List.not_mem_nil, false_imp_iff,
    implies_true, and_true]
  exact ⟨h.newRamPerBlock, h.lastRamIncrease, h.lastBlockNum, trivial, h.revision⟩

theorem Globals.Typed.valid3 {g : Globals D} (h : g.Typed) (e : DoubleBits D) :
    ∀ m ∈ GlobalState3.members e, m.Valid g.gstate3 := by
  simp only [GlobalState3.members, List.forall_mem_cons, List.not_mem_nil, false_imp_iff,
    implies_true, and_true]
  exact ⟨h.gstate3, trivial⟩

def Globals.withAverages (g : Globals D) (a : Averages) : Globals D :=
  { g with gstate := g.gstate.withAverages a }

theorem assign_parameters (p o : BlockchainParameters) :
    assign BlockchainParameters.members p o = p := by
  simp only [BlockchainParameters.members, assign, Codec.member]

theorem assign_globalState (e : DoubleBits D) (g o : GlobalState D) :
    assign (GlobalState.members e) g o = g.withAverages o.averages := by
  have base := assign_inherited GlobalState.toBlockchainParameters GlobalState.withParameters
    (fun _ _ => rfl) (fun _ => rfl) (fun _ _ _ => rfl) BlockchainParameters.members g o
  rw [GlobalState.members, assign_append, base, assign_parameters]
  simp only [assign, Codec.member, GlobalState.withParameters, GlobalState.withAverages,
    GlobalState.averages]

theorem assign_globalState2 (e : DoubleBits D) (g o : GlobalState2 D) :
    assign (GlobalState2.members e) g o = g := rfl

theorem assign_globalState3 (e : DoubleBits D) (g o : GlobalState3 D) :
    assign (GlobalState3.members e) g o = g := rfl

theorem getOr_serialize {S : Type} {members : List (Member S)} {s : S}
    (valid : ∀ m ∈ members, m.Valid s)
    (fresh other : S) :
    getOr members fresh (some (serialize members s)) other = .ok (assign members s fresh) := by
  have read := deserialize_serialize valid fresh []
  rw [List.append_nil] at read
  rw [getOr, read]
  rfl

/-- What an action holds at its end is read back except for the averages, which memory gives. -/
theorem construct_destruct {g : Globals D} (typed : g.Typed) (e : DoubleBits D)
    (parameters : BlockchainParameters) (m : Memory) :
    construct e parameters m (destruct e g) = .ok (g.withAverages m.averages) := by
  simp only [construct, destruct, getOr_serialize (typed.gstate.valid e),
    getOr_serialize (typed.gstate2.valid e), getOr_serialize (typed.valid3 e), assign_globalState,
    assign_globalState2, assign_globalState3]
  rfl

theorem Globals.withAverages_eq_iff {g : Globals D} {a : Averages} :
    g.withAverages a = g ↔ a = g.gstate.averages := by
  constructor
  · intro same
    have stored := congrArg (fun g => g.gstate.averages) same
    exact stored
  · intro same
    rw [same]
    rfl

theorem Globals.Typed.withAverages {g : Globals D} (h : g.Typed) (a : Averages) :
    (g.withAverages a).Typed :=
  ⟨{ h.gstate with }, h.gstate2, h.gstate3⟩

/-! The first action finds no rows. -/

theorem unsigned_zero (w : Nat) : (unsigned w).Valid 0 := Nat.pow_pos (by norm_num)

theorem int64_zero : int64.Valid 0 := by
  constructor
  · norm_num
  · norm_num

theorem getDefaultParameters_typed {parameters : BlockchainParameters}
    (base : ∀ m ∈ BlockchainParameters.members, m.Valid parameters) (e : DoubleBits D)
    (m : Memory) :
    (getDefaultParameters e parameters m).Typed where
  base := base
  maxRamSize := show 64 * 1024 * 1024 * 1024 < 256 ^ 8 by norm_num
  totalRamBytesReserved := unsigned_zero _
  totalRamStake := int64_zero
  lastProducerScheduleUpdate := unsigned_zero _
  lastPervoteBucketFill := int64_zero
  pervoteBucket := int64_zero
  perblockBucket := int64_zero
  totalUnpaidBlocks := unsigned_zero _
  totalActivatedStake := int64_zero
  threshActivatedStakeTime := int64_zero
  lastProducerScheduleSize := unsigned_zero _
  lastNameClose := unsigned_zero _

/-- What the first action starts with has the types of the members. -/
theorem construct_first {parameters : BlockchainParameters}
    (base : ∀ m ∈ BlockchainParameters.members, m.Valid parameters) (e : DoubleBits D)
    (m : Memory) :
    ∃ g : Globals D, construct e parameters m ⟨none, none, none⟩ = .ok g ∧ g.Typed := by
  refine ⟨⟨getDefaultParameters e parameters m, .fresh e, .fresh e⟩, rfl, ?_⟩
  have second : (GlobalState2.fresh e).Typed :=
    ⟨unsigned_zero _, unsigned_zero _, unsigned_zero _, unsigned_zero _⟩
  exact ⟨getDefaultParameters_typed base e m, second, int64_zero⟩

end DecentralBank.System
