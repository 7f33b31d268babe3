import DecentralBank.System.BandwidthSteps
import DecentralBank.System.Dispatch
import DecentralBank.System.Payments

/-!
# Accounting for RAM

Every byte that the market does not offer is some account's, and every token
staked for RAM is in the market and in the hands of `eosio.ram`. Bytes are
counted in 64-bit words.
-/

namespace DecentralBank.System

open Checked Runs

variable {D : Type} {c : Ctx D} {s s' : State D} {m m' : ExchangeState D} {core : Symbol}
  {input output : Asset}

@[simp] theorem State.market_eq_ok {message : String} :
    s.market message = .ok m ↔ s.rammarket = some m := by
  unfold State.market
  cases s.rammarket <;> simp

def RAMCORE_SUPPLY : Int := 100000000000000

/-- A market between RAM and another token. -/
structure Listed (core : Symbol) (m : ExchangeState D) : Prop where
  supply : m.supply = ⟨RAMCORE_SUPPLY, RAMCORE_SYMBOL⟩
  base : m.base.balance.symbol = RAM_SYMBOL
  quote : m.quote.balance.symbol = core

/-! ## The exchange -/

theorem convertToExchange_ok {side : Side}
    (h : convertToExchange c m side input = .ok (output, m')) :
    output.symbol = m.supply.symbol ∧ m' = m.rebalance side (i64 (m.supply.amount + output.amount))
      (i64 ((m.connector side).balance.amount + input.amount)) := by
  simp only [convertToExchange, bind_eq_ok, Asset.make_eq_ok, pure_eq_ok, Prod.mk.injEq] at h
  obtain ⟨_, ⟨-, -, rfl⟩, rfl, rfl⟩ := h
  exact ⟨rfl, rfl⟩

theorem convertFromExchange_ok {side : Side}
    (h : convertFromExchange c m side input = .ok (output, m')) :
    output.symbol = (m.connector side).balance.symbol ∧
      (-Asset.maxAmount ≤ output.amount ∧ output.amount ≤ Asset.maxAmount) ∧
      m' = m.rebalance side (i64 (m.supply.amount - input.amount))
        (i64 ((m.connector side).balance.amount - output.amount)) := by
  simp only [convertFromExchange, bind_eq_ok, require_eq_ok, exists_const, Asset.make_eq_ok,
    pure_eq_ok, Prod.mk.injEq] at h
  obtain ⟨-, _, ⟨range, -, rfl⟩, rfl, rfl⟩ := h
  exact ⟨rfl, range, rfl⟩

/-- What goes through the exchange leaves the supply as it was. -/
theorem supply_back (x : Int) : i64 (i64 (RAMCORE_SUPPLY + x) - x) = RAMCORE_SUPPLY := by
  rw [i64_sub_i64, add_sub_cancel_right]
  exact i64_of_lt (by decide) (by decide)

theorem ram_ne_ramcore : RAM_SYMBOL ≠ RAMCORE_SYMBOL := by decide

/-- Tokens are sold for RAM. -/
theorem Listed.buy (hm : Listed core m) (other : core ≠ RAM_SYMBOL) (apart : core ≠ RAMCORE_SYMBOL)
    (h : convert c m input RAM_SYMBOL = .ok (output, m')) (symbol : input.symbol = core) :
    Listed core m' ∧ m'.base.balance.amount = i64 (m.base.balance.amount - output.amount) ∧
      m'.quote.balance.amount = i64 (m.quote.balance.amount + input.amount) := by
  obtain ⟨supply, base, quote⟩ := hm
  simp only [convert, bind_eq_ok, Prod.exists] at h
  obtain ⟨issued, n, first, second⟩ := h
  rw [convertOnce, supply, base, quote, symbol, if_pos apart, if_neg other, if_pos rfl] at first
  obtain ⟨issuedSymbol, rfl⟩ := convertToExchange_ok first
  rw [supply] at issuedSymbol
  rw [issuedSymbol, if_pos ram_ne_ramcore, convertOnce] at second
  simp only [ExchangeState.rebalance, supply, base, issuedSymbol, ne_eq,
    not_true_eq_false, if_false, if_true] at second
  obtain ⟨-, -, rfl⟩ := convertFromExchange_ok second
  refine ⟨⟨?_, base, quote⟩, rfl, rfl⟩
  simp only [ExchangeState.rebalance, supply_back]

/-- RAM is sold for tokens. -/
theorem Listed.sell (hm : Listed core m) (other : core ≠ RAM_SYMBOL) (apart : core ≠ RAMCORE_SYMBOL)
    (h : convert c m input core = .ok (output, m')) (symbol : input.symbol = RAM_SYMBOL) :
    Listed core m' ∧ output.symbol = core ∧ output.amount ≤ Asset.maxAmount ∧
      m'.base.balance.amount = i64 (m.base.balance.amount + input.amount) ∧
      m'.quote.balance.amount = i64 (m.quote.balance.amount - output.amount) := by
  obtain ⟨supply, base, quote⟩ := hm
  simp only [convert, bind_eq_ok, Prod.exists] at h
  obtain ⟨issued, n, first, second⟩ := h
  rw [convertOnce, supply, base, symbol, if_pos ram_ne_ramcore, if_pos rfl] at first
  obtain ⟨issuedSymbol, rfl⟩ := convertToExchange_ok first
  rw [supply] at issuedSymbol
  rw [issuedSymbol, if_pos apart, convertOnce] at second
  simp only [ExchangeState.rebalance, supply, base, quote, issuedSymbol, ne_eq, not_true_eq_false,
    if_false, other, if_true] at second
  obtain ⟨outputSymbol, range, rfl⟩ := convertFromExchange_ok second
  refine ⟨⟨?_, rfl, quote⟩, outputSymbol.trans quote, range.2, rfl, rfl⟩
  simp only [ExchangeState.rebalance, supply_back]

/-! ## The accounts -/

/-- The bytes of all accounts. -/
def ramOf (userres : Table Name UserResources) : Int := userres.total fun _ r => r.ramBytes

/-- No refund is of a negative amount. -/
def Owing (refunds : Table Name RefundRequest) : Prop :=
  refunds.All fun _ r => 0 ≤ r.netAmount.amount ∧ 0 ≤ r.cpuAmount.amount

/-- The market offers what is not reserved, what is reserved is some account's, and what is staked
came to the market, which had `quote`, and to `eosio.ram`, which had `held`. -/
structure Accounted (core : Symbol) (quote held : Int) (s : State D) : Prop where
  token : Token.Conserved s.token
  market : ∃ m, s.rammarket = some m ∧ Listed core m ∧
    m.base.balance.amount = i64 ((s.gstate.maxRamSize : Int) - s.gstate.totalRamBytesReserved) ∧
    m.quote.balance.amount = quote + s.gstate.totalRamStake
  reserved : s.gstate.totalRamBytesReserved = u64 (ramOf s.userres)
  balance : s.balance RAM_ACCOUNT core.code = held + s.gstate.totalRamStake
  stake : 0 ≤ s.gstate.totalRamStake
  price : 0 ≤ quote ∧ quote ≤ Asset.maxAmount
  refunds : Owing s.refunds

variable {quote held : Int} {source target account receiver : Name} {quantity : Asset}
    {memo : String}

theorem Accounted.coreSymbol (hs : Accounted core quote held s) : s.coreSymbol = .ok core := by
  obtain ⟨m, found, listed, -⟩ := hs.market
  exact State.coreSymbol_eq_ok.mpr ⟨m, found, listed.quote⟩

/-- A payment in core tokens. -/
theorem Accounted.pay (hs : Accounted core quote held s)
    (h : s.pay source target quantity memo = .ok s') (symbol : quantity.symbol = core) :
    source ≠ target ∧ 0 < quantity.amount ∧
      Accounted core quote (held + (if source = RAM_ACCOUNT then -quantity.amount else 0)
      + if target = RAM_ACCOUNT then quantity.amount else 0) s' := by
  obtain ⟨token, rfl, paid⟩ := State.pay_paid h hs.token
  refine ⟨paid.apart, paid.positive, paid.sound, hs.market, hs.reserved,
    (paid.moved RAM_ACCOUNT core.code).trans ?_, hs.stake, hs.price, hs.refunds⟩
  rw [hs.balance, symbol]
  simp only [and_true, eq_comm (a := RAM_ACCOUNT)]
  ring

/-- A payment in which `eosio.ram` has no part. -/
theorem Accounted.payElsewhere (hs : Accounted core quote held s)
    (from_other : source ≠ RAM_ACCOUNT)
    (to_other : target ≠ RAM_ACCOUNT) (h : s.pay source target quantity memo = .ok s') :
    Accounted core quote held s' := by
  obtain ⟨token, rfl, paid⟩ := State.pay_paid h hs.token
  refine ⟨paid.sound, hs.market, hs.reserved, (paid.moved RAM_ACCOUNT core.code).trans ?_, hs.stake,
    hs.price, hs.refunds⟩
  rw [if_neg fun own => from_other own.1.symm, if_neg fun own => to_other own.1.symm,
    add_zero, add_zero]
  exact hs.balance

theorem Accounted.updateRamSupply (hs : Accounted core quote held s)
    (h : updateRamSupply c s = .ok s') : Accounted core quote held s' := by
  obtain ⟨m, found, listed, offered, staked⟩ := hs.market
  simp only [System.updateRamSupply, State.market, found, ite_eq_ok, bind_eq_ok, pure_eq_ok] at h
  obtain ⟨-, rfl⟩ | ⟨-, m', rfl, rfl⟩ := h
  · exact hs
  · refine ⟨hs.token, ⟨_, rfl, ⟨listed.supply, listed.base, listed.quote⟩, ?_, staked⟩, hs.reserved,
      hs.balance, hs.stake, hs.price, hs.refunds⟩
    simp only [offered, i64_add_i64, i64_sub_u64_left]
    exact congrArg i64 (by ring)

/-! ## Trade -/

/-- A row that gains bytes counts them in all. -/
theorem ramOf_gain {userres : Table Name UserResources} {row : UserResources}
    (found : userres.lookup receiver = some row) (bytes : Int) :
    u64 (ramOf (userres.insert receiver { row with ramBytes := i64 (row.ramBytes + bytes) })) =
      u64 (ramOf userres + bytes) := by
  rw [ramOf, Table.total_insert, Table.weightAt_some found, u64_add_i64, ramOf]
  exact congrArg u64 (by ring)

/-- Bytes granted to an account are more bytes in all. -/
theorem grantRam_ok {userres userres' : Table Name UserResources} {bytes : Int}
    (h : grantRam userres core receiver bytes = .ok userres') :
    u64 (ramOf userres') = u64 (ramOf userres + bytes) := by
  unfold grantRam at h
  cases found : userres.lookup receiver with
  | none =>
    simp only [found, bind_eq_ok, Asset.make_eq_ok, pure_eq_ok] at h
    obtain ⟨_, -, rfl⟩ := h
    rw [ramOf, Table.total_insert, Table.weightAt_none found, sub_zero]
    rfl
  | some row =>
    simp only [found, pure_eq_ok] at h
    subst h
    exact ramOf_gain found bytes

/-- `bytes` are taken from the market for an account, and the stake becomes `stake`. -/
theorem Accounted.trade (hs : Accounted core quote held s) {userres : Table Name UserResources}
    {bytes stake : Int} {reserved : Nat} (found : s.rammarket = some m) (listed : Listed core m')
    (base : m'.base.balance.amount = i64 (m.base.balance.amount - bytes))
    (staked : m'.quote.balance.amount = quote + stake)
    (granted : u64 (ramOf userres) = u64 (ramOf s.userres + bytes))
    (reserving : reserved = u64 ((s.gstate.totalRamBytesReserved : Int) + bytes))
    (nonneg : 0 ≤ stake) :
    Accounted core quote (held + (s.gstate.totalRamStake - stake)) { s with
      rammarket := some m'
      userres
      gstate := { s.gstate with totalRamBytesReserved := reserved, totalRamStake := stake } } := by
  obtain ⟨_, same, -, offered, -⟩ := hs.market
  cases found.symm.trans same
  refine ⟨hs.token, ⟨m', rfl, listed, ?_, staked⟩, ?_, ?_, nonneg, hs.price, hs.refunds⟩
  · simp only [base, offered, reserving, i64_sub_i64, i64_sub_u64]
    exact congrArg i64 (by ring)
  · simp only [reserving, granted, hs.reserved, u64_add_u64]
  · refine hs.balance.trans ?_
    simp only
    ring

theorem Accounted.buyram (hs : Accounted core quote held s) (other : core ≠ RAM_SYMBOL)
    (apart : core ≠ RAMCORE_SYMBOL) (nonneg : 0 ≤ held)
    (h : buyram c s source receiver quantity = .ok s') : Accounted core quote held s' := by
  simp only [System.buyram, bind_eq_ok, Ctx.requireAuth_eq_ok, require_eq_ok,
    exists_const, ite_eq_ok, pure_eq_ok, Prod.exists] at h
  obtain ⟨-, raised, supplied, core', known, symbol, -, paid, sent, charged, fee, m,
    listing, output, m', converted, -, userres, granted, rfl⟩ := h
  replace hs := hs.updateRamSupply supplied
  cases hs.coreSymbol.symm.trans known
  obtain ⟨distinct, positive, hs⟩ := hs.pay sent symbol
  rw [if_neg distinct, if_pos rfl, add_zero] at hs
  generalize i64 (quantity.amount - ramFee quantity.amount) = rest at *
  replace positive : 0 < rest := positive
  have hs : Accounted core quote (held + rest) charged := by
    rcases fee with ⟨-, fee⟩ | ⟨-, rfl⟩
    · exact hs.payElsewhere distinct (by decide) fee
    · exact hs
  obtain ⟨m₀, found, listed, -, staked⟩ := hs.market
  rw [State.market_eq_ok, found] at listing
  cases listing
  obtain ⟨listed', base, sold⟩ := listed.buy other apart converted symbol
  have atMost := hs.token.atMost RAM_ACCOUNT core.code
  have balance := hs.balance
  have stake := hs.stake
  have price := hs.price
  have max : Asset.maxAmount < 2 ^ 62 := by decide
  unfold State.balance at balance
  have grown : i64 (charged.gstate.totalRamStake + rest) = charged.gstate.totalRamStake + rest :=
    i64_of_lt (by omega) (by omega)
  have paid : m'.quote.balance.amount = quote + (charged.gstate.totalRamStake + rest) := by
    replace sold : m'.quote.balance.amount = i64 (m.quote.balance.amount + rest) := sold
    rw [sold, staked, add_assoc]
    exact i64_of_lt (by omega) (by omega)
  have traded := hs.trade found listed' base paid (grantRam_ok granted) rfl (by omega)
  rw [grown]
  have back : held + rest + (charged.gstate.totalRamStake - (charged.gstate.totalRamStake + rest)) =
      held := by
    ring
  rw [back] at traded
  exact traded

theorem Accounted.buyrambytes (hs : Accounted core quote held s) (other : core ≠ RAM_SYMBOL)
    (apart : core ≠ RAMCORE_SYMBOL) (nonneg : 0 ≤ held) {bytes : Nat}
    (h : buyrambytes c s source receiver bytes = .ok s') : Accounted core quote held s' := by
  simp only [System.buyrambytes, bind_eq_ok, Prod.exists] at h
  obtain ⟨_, -, _, -, _, -, eosout, _, -, bought⟩ := h
  exact hs.buyram other apart nonneg bought

theorem Accounted.sellram (hs : Accounted core quote held s) (other : core ≠ RAM_SYMBOL)
    (apart : core ≠ RAMCORE_SYMBOL) (nonneg : 0 ≤ held) {bytes : Int}
    (h : sellram c s account bytes = .ok s') :
    Accounted core quote held s' := by
  simp only [System.sellram, bind_eq_ok, Ctx.requireAuth_eq_ok, require_eq_ok,
    exists_const, ite_eq_ok, pure_eq_ok, Prod.exists, find_eq_ok, Asset.make_eq_ok,
    State.market_eq_ok] at h
  obtain ⟨-, raised, supplied, -, row, owned, enough, m, listing, core', known, _,
    ⟨-, -, rfl⟩, output, m', converted, worth, rest, paid, sent, fee⟩ := h
  replace hs := hs.updateRamSupply supplied
  cases hs.coreSymbol.symm.trans known
  obtain ⟨_, found, listed, -, staked⟩ := hs.market
  rw [found] at listing
  cases listing
  obtain ⟨listed', symbol, atMost, base, sold⟩ := listed.sell other apart converted rfl
  have stake := hs.stake
  have price := hs.price
  have total := hs.token.atMost RAM_ACCOUNT core.code
  have max : Asset.maxAmount < 2 ^ 62 := by decide
  have balance := hs.balance
  unfold State.balance at balance
  have less : i64 (raised.gstate.totalRamStake - output.amount) =
      raised.gstate.totalRamStake - output.amount := i64_of_lt (by omega) (by omega)
  rw [less] at rest sent
  have left : m'.quote.balance.amount = quote + (raised.gstate.totalRamStake - output.amount) := by
    rw [sold, staked, add_sub_assoc]
    exact i64_of_lt (by omega) (by omega)
  have returned : m'.base.balance.amount = i64 (m.base.balance.amount - -bytes) := by
    rw [base, sub_neg_eq_add]
  have fewer := ramOf_gain owned (-bytes)
  simp only [← sub_eq_add_neg] at fewer
  have traded := hs.trade found listed' returned left fewer (congrArg u64 (sub_eq_add_neg _ _)) rest
  obtain ⟨distinct, -, hs⟩ := traded.pay sent symbol
  rw [if_pos rfl, if_neg distinct.symm] at hs
  have back : held + (raised.gstate.totalRamStake - (raised.gstate.totalRamStake - output.amount)) +
      -output.amount + 0 = held := by ring
  rw [back] at hs
  rcases fee with ⟨-, _, -, charged⟩ | ⟨-, rfl⟩
  · exact hs.payElsewhere distinct.symm (by decide) charged
  · exact hs

/-! ## Supply -/

theorem Accounted.setram (hs : Accounted core quote held s) {size : Nat}
    (h : setram c s size = .ok s') :
    Accounted core quote held s' := by
  obtain ⟨m, found, listed, offered, staked⟩ := hs.market
  simp only [System.setram, bind_eq_ok, Ctx.requireAuth_eq_ok, require_eq_ok,
    exists_const, pure_eq_ok, State.market_eq_ok, found, Option.some.injEq] at h
  obtain ⟨-, -, -, -, _, rfl, rfl⟩ := h
  refine ⟨hs.token, ⟨_, rfl, ⟨listed.supply, listed.base, listed.quote⟩, ?_, staked⟩, hs.reserved,
    hs.balance, hs.stake, hs.price, hs.refunds⟩
  simp only [offered, i64_add_i64, i64_add_i64_right, i64_sub_i64, i64_sub_i64_right]
  exact congrArg i64 (by ring)

theorem Accounted.setramrate (hs : Accounted core quote held s) {rate : Nat}
    (h : setramrate c s rate = .ok s') : Accounted core quote held s' := by
  simp only [System.setramrate, bind_eq_ok, Ctx.requireAuth_eq_ok, exists_const, pure_eq_ok] at h
  obtain ⟨-, raised, supplied, rfl⟩ := h
  replace hs := hs.updateRamSupply supplied
  exact ⟨hs.token, hs.market, hs.reserved, hs.balance, hs.stake, hs.price, hs.refunds⟩

/-! ## Staking -/

theorem updateTotals_ram {userres userres' : Table Name UserResources} {net cpu : Asset}
    (h : updateTotals userres receiver net cpu = .ok userres') :
    ramOf userres' = ramOf userres := by
  simp only [updateTotals, bind_eq_ok, require_eq_ok, exists_const, ite_eq_ok, pure_eq_ok] at h
  obtain ⟨row, sum, -, -, written⟩ := h
  have same : row.ramBytes = userres.weightAt (fun _ r => r.ramBytes) receiver := by
    cases found : userres.lookup receiver with
    | none =>
      simp only [found, pure_eq_ok] at sum
      rw [← sum, Table.weightAt_none found]
    | some old =>
      simp only [found, bind_eq_ok, pure_eq_ok] at sum
      obtain ⟨_, -, _, -, rfl⟩ := sum
      rw [Table.weightAt_some found]
  rcases written with ⟨⟨-, -, none⟩, rfl⟩ | ⟨-, rfl⟩
  · rw [ramOf, Table.total_erase, ← same, none, sub_zero]
    rfl
  · rw [ramOf, Table.total_insert, ← same, sub_add_cancel]
    rfl

/-- What has not to do with RAM may change. -/
theorem Accounted.frame {e : Election D} {userres : Table Name UserResources}
    {delband : Table (Name × Name) DelegatedBandwidth} {refunds : Table Name RefundRequest}
    (hs : Accounted core quote held s) (owing : Owing refunds)
    (same : ramOf userres = ramOf s.userres)
    (size : e.gstate.maxRamSize = s.gstate.maxRamSize)
    (reserved : e.gstate.totalRamBytesReserved = s.gstate.totalRamBytesReserved)
    (stake : e.gstate.totalRamStake = s.gstate.totalRamStake) :
    Accounted core quote held { s with toElection := e, userres, delband, refunds } := by
  obtain ⟨m, found, listed, offered, staked⟩ := hs.market
  refine ⟨hs.token, ⟨m, found, listed, ?_, ?_⟩, ?_, ?_, ?_, hs.price, owing⟩
  · simp only [size, reserved, offered]
  · simp only [stake, staked]
  · simp only [reserved, same, hs.reserved]
  · simp only [stake]
    exact hs.balance
  · simp only [stake, hs.stake]

theorem drainRefund_owing {due balance left rest : Asset}
    (h : drainRefund due balance = .ok (left, rest)) :
    0 ≤ left.amount ∧ (0 ≤ due.amount → balance.amount ≤ 0 → rest.amount ≤ 0) := by
  simp only [drainRefund, bind_eq_ok, Asset.sub_eq_ok, ite_eq_ok, pure_eq_ok, Prod.mk.injEq, not_lt]
    at h
  obtain ⟨_, ⟨-, -, -, rfl⟩, ⟨short, rfl, rfl⟩ | ⟨enough, rfl, rfl⟩⟩ := h
  · refine ⟨le_refl 0, fun owed less => ?_⟩
    simp only at short
    omega
  · exact ⟨enough, fun _ _ => le_refl 0⟩

theorem openRefund_owing {balance amount rest : Asset}
    (h : openRefund core balance = .ok (amount, rest)) :
    0 ≤ amount.amount ∧ (balance.amount ≤ 0 → rest.amount ≤ 0) := by
  simp only [openRefund, ite_eq_ok, bind_eq_ok, Asset.make_eq_ok, pure_eq_ok, Prod.mk.injEq, not_lt]
    at h
  obtain ⟨negative, rfl, rfl⟩ | ⟨-, _, ⟨-, -, rfl⟩, rfl, rfl⟩ := h
  · refine ⟨?_, fun _ => le_refl 0⟩
    simp only [Asset.neg]
    omega
  · exact ⟨le_refl 0, id⟩

/-- Nothing is to be paid for stake that is taken back. -/
theorem updateRefund_owing {owner : Name} {net cpu netBalance cpuBalance : Asset} {toSelf : Bool}
    {refunds : Table Name RefundRequest} (hs : Owing s.refunds)
    (h : updateRefund c s owner net cpu toSelf = .ok (refunds, netBalance, cpuBalance)) :
    Owing refunds ∧
      (net.amount ≤ 0 → cpu.amount ≤ 0 → netBalance.amount + cpuBalance.amount ≤ 0) := by
  unfold updateRefund at h
  obtain ⟨-, h⟩ | ⟨-, h⟩ := ite_eq_ok.mp h
  · cases found : s.refunds.lookup owner with
    | some req =>
      obtain ⟨netDue, cpuDue⟩ := hs _ _ found
      simp only [found, bind_eq_ok, require_eq_ok, exists_const, pure_eq_ok, Prod.exists,
        Prod.mk.injEq] at h
      obtain ⟨netAmount, _, netDrained, cpuAmount, _, cpuDrained, netLeft, cpuLeft, rfl,
        rfl, rfl⟩ := h
      refine ⟨?_, fun netBack cpuBack => ?_⟩
      · split
        · exact Table.All.erase hs _
        · exact Table.All.insert hs ⟨netLeft, cpuLeft⟩
      · exact add_nonpos ((drainRefund_owing netDrained).2 netDue netBack)
          ((drainRefund_owing cpuDrained).2 cpuDue cpuBack)
    | none =>
      simp only [found, ite_eq_ok, bind_eq_ok, pure_eq_ok, Prod.exists, Prod.mk.injEq] at h
      obtain ⟨-, _, -, netAmount, _, netOpened, cpuAmount, _, cpuOpened, rfl, rfl, rfl⟩ |
        ⟨-, rfl, rfl, rfl⟩ := h
      · obtain ⟨netOwed, netRest⟩ := openRefund_owing netOpened
        obtain ⟨cpuOwed, cpuRest⟩ := openRefund_owing cpuOpened
        exact ⟨Table.All.insert hs ⟨netOwed, cpuOwed⟩,
          fun netBack cpuBack => add_nonpos (netRest netBack) (cpuRest cpuBack)⟩
      · exact ⟨hs, add_nonpos⟩
  · simp only [pure_eq_ok, Prod.mk.injEq] at h
    obtain ⟨rfl, rfl, rfl⟩ := h
    exact ⟨hs, add_nonpos⟩

/-- Stake is paid for by another account, or it is taken back. -/
theorem Accounted.changebw (hs : Accounted core quote held s) {net cpu : Asset} {transfer : Bool}
    (outside : source ≠ RAM_ACCOUNT ∨ (net.amount ≤ 0 ∧ cpu.amount ≤ 0))
    (h : changebw c s source receiver net cpu transfer = .ok s') :
    Accounted core quote held s' := by
  obtain ⟨delband, userres, paid, -, -, -, totals, settled, voted⟩ := changebw_ok h
  have kept := updateTotals_ram totals
  have hs : Accounted core quote held paid := by
    rcases settled with ⟨-, settled⟩ | ⟨-, rfl⟩
    · obtain ⟨refunds, netBalance, cpuBalance, left, -, moved⟩ := settleStake_ok settled
      obtain ⟨owing, back⟩ := updateRefund_owing hs.refunds left
      have due : Accounted core quote held { s with delband, userres, refunds } :=
        hs.frame owing kept rfl rfl rfl
      rcases moved with ⟨positive, sent⟩ | ⟨-, rfl⟩
      · rcases outside with outside | ⟨netBack, cpuBack⟩
        · exact due.payElsewhere outside (by decide) sent
        · exact absurd positive (not_lt.mpr (back netBack cpuBack))
      · exact due
    · exact hs.frame hs.refunds kept rfl rfl rfl
  obtain ⟨e, -, reweighed, rfl⟩ := updateVotingPower_ok voted
  obtain ⟨_, _, _, gstate⟩ := reweighed.gstate
  exact hs.frame hs.refunds rfl (by rw [gstate]) (by rw [gstate]) (by rw [gstate])

theorem Accounted.refund (hs : Accounted core quote held s) {owner : Name}
    (outside : owner ≠ RAM_ACCOUNT)
    (h : refund c s owner = .ok s') : Accounted core quote held s' := by
  simp only [System.refund, bind_eq_ok, Ctx.requireAuth_eq_ok, find_eq_ok,
    require_eq_ok, pure_eq_ok, exists_const] at h
  obtain ⟨-, _, -, -, _, -, paid, sent, rfl⟩ := h
  have hs := hs.payElsewhere (by decide) outside sent
  exact hs.frame (Table.All.erase hs.refunds _) rfl rfl rfl rfl

/-! ## Every run -/

/-- Trade in RAM, its supply, and staking for which `eosio.ram` neither pays nor is paid. -/
def Action.tradesRam : Action → Bool
  | .buyram .. | .buyrambytes .. | .sellram .. | .setram .. | .setramrate .. | .undelegatebw .. =>
    true
  | .delegatebw source .. | .refund source => decide (source ≠ RAM_ACCOUNT)
  | _ => false

theorem Accounted.apply (hs : Accounted core quote held s) (other : core ≠ RAM_SYMBOL)
    (apart : core ≠ RAMCORE_SYMBOL) (nonneg : 0 ≤ held) {a : Action} (trades : a.tradesRam = true)
    (h : a.apply c s = .ok s') : Accounted core quote held s' := by
  cases a <;> try cases trades
  case buyram payer receiver quant => exact hs.buyram other apart nonneg h
  case buyrambytes payer receiver bytes => exact hs.buyrambytes other apart nonneg h
  case sellram account bytes => exact hs.sellram other apart nonneg h
  case setram size => exact hs.setram h
  case setramrate rate => exact hs.setramrate h
  case delegatebw source receiver net cpu transfer =>
    obtain ⟨-, -, -, -, -, -, changed⟩ := delegatebw_ok h
    exact hs.changebw (Or.inl (of_decide_eq_true trades)) changed
  case undelegatebw source receiver net cpu =>
    obtain ⟨-, -, -, netStake, cpuStake, changed⟩ := undelegatebw_ok h
    exact hs.changebw (Or.inr ⟨neg_nonpos.mpr netStake, neg_nonpos.mpr cpuStake⟩) changed
  case refund owner => exact hs.refund (of_decide_eq_true trades) h

/-- No RAM is reserved. -/
structure Unreserved (s : State D) : Prop where
  token : Token.Conserved s.token
  reserved : s.gstate.totalRamBytesReserved = 0
  stake : s.gstate.totalRamStake = 0
  userres : s.userres.All fun _ r => r.ramBytes = 0
  refunds : Owing s.refunds

theorem Unreserved.init (hs : Unreserved s) {version : Nat} (h : init c s version core = .ok s') :
    ∃ m, s'.rammarket = some m ∧ m.supply = ⟨RAMCORE_SUPPLY, RAMCORE_SYMBOL⟩ ∧
      s'.gstate.totalRamStake = 0 ∧
      Accounted core m.quote.balance.amount (s'.balance RAM_ACCOUNT core.code) s' := by
  simp only [System.init, State.getSupply, bind_eq_ok, Ctx.requireAuth_eq_ok,
    require_eq_ok, find_eq_ok, exists_const, pure_eq_ok] at h
  obtain ⟨-, -, -, supply, ⟨st, issued, rfl⟩, rfl, positive, rfl⟩ := h
  have none : ramOf s.userres = 0 := Table.total_zero hs.userres
  have sound := hs.token.stats _ _ issued
  have atMost := sound.capped.trans sound.range
  have price : 0 ≤ st.supply.amount.tdiv 1000 ∧ st.supply.amount.tdiv 1000 ≤ Asset.maxAmount := by
    rw [Int.tdiv_eq_ediv_of_nonneg sound.nonneg]
    omega
  refine ⟨_, rfl, rfl, hs.stake, hs.token, ⟨_, rfl, ⟨rfl, rfl, rfl⟩, ?_, ?_⟩, ?_, ?_, ?_, price,
    hs.refunds⟩
  · simp only [GlobalState.freeRam, i64_u64]
  · simp only [hs.stake, add_zero]
  · have zero := u64_of_lt (le_refl 0) (by decide)
    simp only [hs.reserved, none]
    omega
  · simp only [hs.stake, add_zero]
  · exact hs.stake.ge

theorem ram_accounted (self : Name) (s₀ : State D) (unreserved : Unreserved s₀) (version : Nat)
    (opened : init c s₀ version core = .ok s) (other : core ≠ RAM_SYMBOL)
    (apart : core ≠ RAMCORE_SYMBOL)
    (calls : List (Call D)) (trades : ∀ call ∈ calls, call.action.tradesRam = true) :
    let t := run (step self) s calls
    ∃ m₀ m, s.rammarket = some m₀ ∧ t.rammarket = some m ∧
      m.base.balance.amount = i64 ((t.gstate.maxRamSize : Int) - t.gstate.totalRamBytesReserved) ∧
      t.gstate.totalRamBytesReserved = u64 (ramOf t.userres) ∧
      m.quote.balance.amount - t.gstate.totalRamStake =
        m₀.quote.balance.amount - s.gstate.totalRamStake ∧
      m.supply = m₀.supply ∧
      t.balance RAM_ACCOUNT core.code - s.balance RAM_ACCOUNT core.code =
        t.gstate.totalRamStake - s.gstate.totalRamStake := by
  intro t
  obtain ⟨m₀, found₀, supply, none, accounted⟩ := unreserved.init opened
  have nonneg : 0 ≤ s.balance RAM_ACCOUNT core.code := accounted.token.rows.held _ _
  have reached : Accounted core m₀.quote.balance.amount (s.balance RAM_ACCOUNT core.code) t := by
    refine run_invariant (I := Accounted core _ _) (fun s call hs trading => ?_) accounted
      (along_of_forall trades s)
    exact step_keeps hs fun s' done => hs.apply other apart nonneg trading (perform_ok done).2
  obtain ⟨m, found, listed, base, quote⟩ := reached.market
  have balance := reached.balance
  exact ⟨m₀, m, found₀, found, base, reached.reserved, by omega, listed.supply.trans supply.symm,
    by omega⟩

section

open Sample

/-- The chain on which `core` is the symbol the contract is set up with. -/
def opening (s : State Int) (core : Symbol) : State Int :=
  step eosio s (call eosio 0 (.init 0 core))

theorem opening_ok {s : State Int}
    (ok : (perform eosio s (call eosio 0 (.init 0 core))).isOk = true) :
    init ⟨eosio, [eosio], 0, whole⟩ s 0 core = .ok (opening s core) := by
  unfold opening step
  cases done : perform eosio s (call eosio 0 (.init 0 core)) with
  | ok s' => exact (perform_ok done).2
  | error _ =>
    rw [done] at ok
    cases ok

/-- The chain is active before anything is set up. -/
def founded : State Int :=
  { genesis with gstate := { genesis.gstate with totalActivatedStake := MIN_ACTIVATED_STAKE } }

theorem founded_unreserved : Unreserved founded :=
  ⟨ledger_conserved, rfl, rfl, Table.All.empty _, Table.All.empty _⟩

/-- `dick` buys RAM for `nick`, who sells some of it; the supply grows, and stake comes and goes. -/
def trading : List (Call Int) :=
  [⟨[dick], 100000000, always 5000, .buyram dick nick (eos 1000)⟩,
    ⟨[nick], 101000000, always 30, .sellram nick 2000⟩,
    call eosio 102 (.setram (65 * 1024 ^ 3)),
    call eosio 103 (.setramrate 16),
    call dick 104 (.delegatebw dick nick (eos 100) (eos 0) true),
    call nick 105 (.undelegatebw nick nick (eos 40) (eos 0)),
    ⟨[rick], 106000000, always 700, .buyrambytes rick rick 600⟩]

theorem trading_accounted :
    let s := opening founded EOS
    let t := run (step eosio) s trading
    t.gstate.totalRamBytesReserved = 3700 ∧ t.gstate.totalRamStake = 1661 ∧
      t.balance RAM_ACCOUNT EOS.code - s.balance RAM_ACCOUNT EOS.code = 1661 := by
  intro s t
  have opened :=
    opening_ok (show (perform eosio founded (call eosio 0 (.init 0 EOS))).isOk = true by
    decide +kernel)
  obtain ⟨-, -, -, -, -, -, -, -, moved⟩ := ram_accounted eosio founded founded_unreserved 0
    opened (by decide) (by decide) trading (by decide)
  have before : s.gstate.totalRamStake = 0 := by decide +kernel
  have after : t.gstate.totalRamStake = 1661 := by decide +kernel
  refine ⟨by decide +kernel, after, ?_⟩
  rw [moved, after, before, sub_zero]

/-- `dick` has a part of the only token there is. -/
def minted (symbol : Symbol) : State Int :=
  let call account action : Token.Call Token.EosioToken.Action :=
    ⟨[account], fun name => decide (name ∈ users), .ledger action⟩
  let token := Token.after Token.EosioToken.apply TOKEN_ACCOUNT
    [call TOKEN_ACCOUNT (.create eosio ⟨100000000000000, symbol⟩),
      call eosio (.issue eosio ⟨10000000000000, symbol⟩ []),
      call eosio (.transfer eosio dick ⟨1000000000000, symbol⟩ [])]
  { founded with token }

/-- `dick` buys as much RAM for each of `receivers` as an amount can be. -/
def hoarding (receivers : List Name) : List (Call Int) :=
  receivers.map fun receiver =>
    ⟨[dick], 100000000, always Asset.maxAmount, .buyram dick receiver (eos 1000)⟩

/-- Accounts for RAM that do not add up: `eosio.ram` delegates; it is refunded what it was given;
the words for the market's bytes, and for those reserved, are too short; the token of the chain has
the symbol of RAM, or of the market. -/
theorem ram_miscounted :
    let s := opening founded EOS
    let lent := run (step eosio) s
      [call RAM_ACCOUNT 100 (.delegatebw RAM_ACCOUNT dick (eos 1000) (eos 0) false)]
    let refunded := run (step eosio) s
      [call dick 100 (.delegatebw dick RAM_ACCOUNT (eos 1000) (eos 0) true),
        call RAM_ACCOUNT 101 (.undelegatebw RAM_ACCOUNT RAM_ACCOUNT (eos 1000) (eos 0)),
        call RAM_ACCOUNT 500000 (.refund RAM_ACCOUNT)]
    let hoarded := run (step eosio) s (hoarding [dick, nick, rick])
    let flooded := run (step eosio) s (hoarding [dick, nick, rick, eosio, STAKE_ACCOUNT])
    let bought (symbol : Symbol) := run (step eosio) (opening (minted symbol) symbol)
      [⟨[dick], 100000000, always 5000, .buyram dick nick ⟨1000, symbol⟩⟩]
    (lent.balance RAM_ACCOUNT EOS.code - s.balance RAM_ACCOUNT EOS.code ≠
        lent.gstate.totalRamStake - s.gstate.totalRamStake) ∧
      (refunded.balance RAM_ACCOUNT EOS.code - s.balance RAM_ACCOUNT EOS.code ≠
        refunded.gstate.totalRamStake - s.gstate.totalRamStake) ∧
      hoarded.rammarket.map (fun m => m.base.balance.amount) ≠
        some ((hoarded.gstate.maxRamSize : Int) - hoarded.gstate.totalRamBytesReserved) ∧
      (flooded.gstate.totalRamBytesReserved : Int) ≠ ramOf flooded.userres ∧
      (bought RAM_SYMBOL).rammarket.map (fun m =>
          m.quote.balance.amount - (bought RAM_SYMBOL).gstate.totalRamStake) ≠
        (opening (minted RAM_SYMBOL) RAM_SYMBOL).rammarket.map (fun m => m.quote.balance.amount) ∧
      (bought RAMCORE_SYMBOL).rammarket.map (fun m => m.supply) ≠
        (opening (minted RAMCORE_SYMBOL) RAMCORE_SYMBOL).rammarket.map fun m => m.supply := by
  decide +kernel

end

end DecentralBank.System
