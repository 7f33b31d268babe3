import DecentralBank.Lib.Bonding
import DecentralBank.System.Limits
import DecentralBank.System.Reserves

/-!
# The RAM market without rounding

If doubles were exact, so that only the conversions to integers cut, no trade
would take from the product of what the market holds of either token: whoever
takes tokens out leaves RAM in their place, at a price that gives nothing away.
-/

namespace DecentralBank.System

open Checked Runs

/-! ## Exact arithmetic -/

/-- Doubles that are not rounded. -/
noncomputable def Doubles.exact : Doubles ℝ where
  ofInt n := n
  literal m d := m / 10 ^ d
  trunc x := if 0 ≤ x then ⌊x⌋ else ⌈x⌉
  add x y := x + y
  sub x y := x - y
  mul x y := x * y
  div x y := x / y
  neg x := -x
  fabs x := |x|
  pow x y := x ^ y
  lt x y := decide (x < y)
  le x y := decide (x ≤ y)

/-- A conversion cuts toward zero. -/
theorem toI64_exact {x : ℝ} (least : 0 ≤ x) (most : x < 2 ^ 63) :
    0 ≤ Doubles.exact.toI64 x ∧ (Doubles.exact.toI64 x : ℝ) ≤ x := by
  have floored : Doubles.exact.trunc x = ⌊x⌋ := if_pos least
  have nonneg : 0 ≤ ⌊x⌋ := Int.floor_nonneg.mpr least
  have small : ⌊x⌋ < 2 ^ 63 := Int.floor_lt.mpr (by exact_mod_cast most)
  rw [Doubles.toI64, floored, i64_of_lt (by omega) small]
  exact ⟨nonneg, Int.floor_le x⟩

variable {D : Type} {c : Ctx ℝ} {s s' : State ℝ} {m m' n : ExchangeState ℝ} {core : Symbol}
  {input output issue : Asset} {side other : Side} {product : Int}

/-- What a connector holds. -/
def ExchangeState.held (m : ExchangeState D) (side : Side) : Int :=
  (m.connector side).balance.amount

theorem convertToExchange_exact (exact : c.fp = .exact) (supply : m.supply.amount = RAMCORE_SUPPLY)
    (weighs : (m.connector side).weight = 1 / 2) (some : 0 < m.held side)
    (positive : 0 < input.amount) (fits : m.held side + input.amount < 2 ^ 63)
    (h : convertToExchange c m side input = .ok (issue, n)) :
    0 ≤ issue.amount ∧ (issue.amount : ℝ) ≤
      Bonding.issued RAMCORE_SUPPLY (m.held side) input.amount (1 / 2) := by
  have sum : i64 (m.held side + input.amount) = m.held side + input.amount :=
    i64_of_lt (by omega) fits
  simp only [convertToExchange, bind_eq_ok, Asset.make_eq_ok, pure_eq_ok, Prod.mk.injEq] at h
  obtain ⟨_, ⟨-, -, rfl⟩, rfl, -⟩ := h
  have held : (0 : ℝ) < m.held side := by exact_mod_cast some
  have put : (0 : ℝ) ≤ input.amount := by exact_mod_cast positive.le
  have minted : (0 : ℝ) < RAMCORE_SUPPLY := by unfold RAMCORE_SUPPLY; norm_num
  have value : c.fp.mul (c.fp.neg (c.fp.ofInt m.supply.amount)) (c.fp.sub (c.fp.ofInt 1)
      (c.fp.pow (c.fp.add (c.fp.ofInt 1) (c.fp.div (c.fp.ofInt input.amount)
        (c.fp.ofInt (i64 (m.held side + input.amount))))) (m.connector side).weight)) =
      Bonding.issued RAMCORE_SUPPLY (m.held side) input.amount (1 / 2) := by
    rw [exact, supply, weighs, sum]
    simp only [Doubles.exact, Bonding.issued, Int.cast_one, Int.cast_add]
    ring
  have least : 0 ≤ Bonding.issued RAMCORE_SUPPLY (m.held side) input.amount (1 / 2) :=
    Bonding.issued_nonneg minted held put (by norm_num)
  have most : Bonding.issued RAMCORE_SUPPLY (m.held side) input.amount (1 / 2) ≤ RAMCORE_SUPPLY :=
    Bonding.issued_le minted held put (by norm_num)
  have word : (RAMCORE_SUPPLY : ℝ) < 2 ^ 63 := by unfold RAMCORE_SUPPLY; norm_num
  have cut := toI64_exact least (most.trans_lt word)
  unfold ExchangeState.held at value cut ⊢
  rw [exact] at value ⊢
  rw [value]
  exact cut

theorem convertFromExchange_exact (exact : c.fp = .exact)
    (supply : n.supply.amount = RAMCORE_SUPPLY + issue.amount)
    (weighs : (n.connector other).weight = 1 / 2) (some : 0 < n.held other)
    (fits : n.held other < 2 ^ 63) (nonneg : 0 ≤ issue.amount)
    {share : ℝ} (small : share ≤ 1)
    (part : Bonding.released RAMCORE_SUPPLY (n.held other) issue.amount (1 / 2) ≤
      n.held other * share)
    (h : convertFromExchange c n other issue = .ok (output, m')) :
    0 ≤ output.amount ∧ (output.amount : ℝ) ≤ n.held other * share := by
  have rest : i64 (RAMCORE_SUPPLY + issue.amount - issue.amount) = RAMCORE_SUPPLY := by
    rw [add_sub_cancel_right]
    exact i64_of_lt (by decide) (by decide)
  simp only [convertFromExchange, bind_eq_ok, Asset.make_eq_ok, pure_eq_ok, Prod.mk.injEq] at h
  obtain ⟨-, -, _, ⟨-, -, rfl⟩, rfl, -⟩ := h
  have held : (0 : ℝ) ≤ n.held other := by exact_mod_cast some.le
  have minted : (0 : ℝ) < RAMCORE_SUPPLY := by unfold RAMCORE_SUPPLY; norm_num
  have least : (0 : ℝ) ≤ issue.amount := by exact_mod_cast nonneg
  have value : c.fp.mul (c.fp.ofInt (n.held other)) (c.fp.sub
      (c.fp.pow (c.fp.add (c.fp.ofInt 1) (c.fp.div (c.fp.ofInt issue.amount)
        (c.fp.ofInt (i64 (n.supply.amount - issue.amount)))))
        (c.fp.div (c.fp.ofInt 1) (n.connector other).weight)) (c.fp.ofInt 1)) =
      Bonding.released RAMCORE_SUPPLY (n.held other) issue.amount (1 / 2) := by
    rw [exact, supply, weighs, rest]
    simp only [Doubles.exact, Bonding.released, Int.cast_one]
  have positive : 0 ≤ Bonding.released RAMCORE_SUPPLY (n.held other) issue.amount (1 / 2) :=
    Bonding.released_nonneg minted held least (by norm_num)
  have short : Bonding.released RAMCORE_SUPPLY (n.held other) issue.amount (1 / 2) < 2 ^ 63 := by
    calc Bonding.released RAMCORE_SUPPLY (n.held other) issue.amount (1 / 2)
        ≤ n.held other * share := part
      _ ≤ n.held other * 1 := mul_le_mul_of_nonneg_left small held
      _ < 2 ^ 63 := by rw [mul_one]; exact_mod_cast fits
  have cut := toI64_exact positive short
  unfold ExchangeState.held at value cut part ⊢
  rw [exact] at value ⊢
  rw [value]
  exact ⟨cut.1, cut.2.trans part⟩

/-- What a connector is given keeps the product with what the other gives. -/
structure Exchanged (m m' : ExchangeState ℝ) (side other : Side) (input output : Int) : Prop where
  nonneg : 0 ≤ output
  left : output < m.held other
  kept : m.held side * m.held other ≤ (m.held side + input) * (m.held other - output)
  weights : m'.base.weight = m.base.weight ∧ m'.quote.weight = m.quote.weight

theorem rebalance_weights (m : ExchangeState ℝ) (side : Side) (supply balance : Int) :
    (m.rebalance side supply balance).base.weight = m.base.weight ∧
      (m.rebalance side supply balance).quote.weight = m.quote.weight := by
  cases side with
  | base => exact ⟨rfl, rfl⟩
  | quote => exact ⟨rfl, rfl⟩

theorem connector_rebalance (m : ExchangeState ℝ) {supply balance : Int} (apart : side ≠ other) :
    (m.rebalance side supply balance).connector other = m.connector other := by
  cases side with
  | base =>
    cases other with
    | base => exact absurd rfl apart
    | quote => rfl
  | quote =>
    cases other with
    | base => rfl
    | quote => exact absurd rfl apart

theorem exchanged (exact : c.fp = .exact) (supply : m.supply.amount = RAMCORE_SUPPLY)
    (weighs : ∀ side, (m.connector side).weight = 1 / 2) (apart : side ≠ other)
    (some : ∀ side, 0 < m.held side) (positive : 0 < input.amount)
    (fits : m.held side + input.amount < 2 ^ 63) (word : m.held other < 2 ^ 63)
    (first : convertToExchange c m side input = .ok (issue, n))
    (second : convertFromExchange c n other issue = .ok (output, m')) :
    Exchanged m m' side other input.amount output.amount := by
  obtain ⟨nonneg, rounded⟩ :=
    convertToExchange_exact exact supply (weighs side) (some side) positive fits first
  obtain ⟨-, grown⟩ := convertToExchange_ok first
  obtain ⟨-, -, shrunk⟩ := convertFromExchange_ok second
  have minted : (0 : ℝ) < RAMCORE_SUPPLY := by unfold RAMCORE_SUPPLY; norm_num
  have held : (0 : ℝ) < m.held side := by exact_mod_cast some side
  have others : (0 : ℝ) < m.held other := by exact_mod_cast some other
  have put : (0 : ℝ) ≤ input.amount := by exact_mod_cast positive.le
  have issued : (0 : ℝ) ≤ issue.amount := by exact_mod_cast nonneg
  have most : issue.amount ≤ RAMCORE_SUPPLY := by
    have most := rounded.trans (Bonding.issued_le minted held put (by norm_num))
    exact_mod_cast most
  have same : n.connector other = m.connector other := by
    rw [grown]
    exact connector_rebalance m apart
  have kept : n.held other = m.held other := by rw [ExchangeState.held, same, ExchangeState.held]
  have minting : n.supply.amount = RAMCORE_SUPPLY + issue.amount := by
    have grown : n.supply.amount = i64 (m.supply.amount + issue.amount) := by
      rw [grown]
      cases side with
      | base => rfl
      | quote => rfl
    have room : RAMCORE_SUPPLY + RAMCORE_SUPPLY < 2 ^ 63 := by decide
    have least : 0 < RAMCORE_SUPPLY := by decide
    rw [grown, supply]
    exact i64_of_lt (by omega) (by omega)
  have part := Bonding.released_le minted held others.le put (by norm_num) issued rounded
  obtain ⟨least, released⟩ := convertFromExchange_exact exact minting (same ▸ weighs other)
    (kept ▸ some other) (kept ▸ word) nonneg (Bonding.share_le_one held put)
    (by rw [kept]; exact part) second
  rw [kept] at released
  refine ⟨least, ?_, ?_, ?_⟩
  · exact_mod_cast Bonding.released_lt held others put released
  · exact_mod_cast Bonding.product_kept held put released
  · rw [shrunk, grown]
    have inner := rebalance_weights m side (i64 (m.supply.amount + issue.amount))
      (i64 ((m.connector side).balance.amount + input.amount))
    have outer := rebalance_weights (m.rebalance side (i64 (m.supply.amount + issue.amount))
      (i64 ((m.connector side).balance.amount + input.amount))) other
    exact ⟨(outer _ _).1.trans inner.1, (outer _ _).2.trans inner.2⟩

/-! ## The market -/

/-- A market with something to trade, whose connectors weigh the same. -/
structure Stocked (m : ExchangeState ℝ) : Prop where
  weighs : ∀ side, (m.connector side).weight = 1 / 2
  some : ∀ side, 0 < m.held side

/-- Tokens are sold for RAM. -/
theorem Listed.buys (hm : Listed core m) (stocked : Stocked m) (exact : c.fp = .exact)
    (other : core ≠ RAM_SYMBOL) (apart : core ≠ RAMCORE_SYMBOL)
    (h : convert c m input RAM_SYMBOL = .ok (output, m')) (symbol : input.symbol = core)
    (positive : 0 < input.amount) (fits : m.held .quote + input.amount < 2 ^ 63)
    (word : m.held .base < 2 ^ 63) :
    Exchanged m m' .quote .base input.amount output.amount := by
  obtain ⟨supply, base, quote⟩ := hm
  simp only [convert, bind_eq_ok, Prod.exists] at h
  obtain ⟨issue, n, first, second⟩ := h
  rw [convertOnce, supply, base, quote, symbol, if_pos apart, if_neg other, if_pos rfl] at first
  obtain ⟨issueSymbol, grown⟩ := convertToExchange_ok first
  rw [supply] at issueSymbol
  rw [issueSymbol, if_pos ram_ne_ramcore, convertOnce] at second
  simp only [grown, ExchangeState.rebalance, supply, base, issueSymbol, ne_eq, not_true_eq_false,
    if_false, if_true] at second
  exact exchanged exact (by rw [supply]) stocked.weighs (by decide) stocked.some positive fits word first
    (by simpa only [grown, ExchangeState.rebalance, supply] using second)

/-- RAM is sold for tokens. -/
theorem Listed.sells (hm : Listed core m) (stocked : Stocked m) (exact : c.fp = .exact)
    (other : core ≠ RAM_SYMBOL) (apart : core ≠ RAMCORE_SYMBOL)
    (h : convert c m input core = .ok (output, m')) (symbol : input.symbol = RAM_SYMBOL)
    (positive : 0 < input.amount) (fits : m.held .base + input.amount < 2 ^ 63)
    (word : m.held .quote < 2 ^ 63) :
    Exchanged m m' .base .quote input.amount output.amount := by
  obtain ⟨supply, base, quote⟩ := hm
  simp only [convert, bind_eq_ok, Prod.exists] at h
  obtain ⟨issue, n, first, second⟩ := h
  rw [convertOnce, supply, base, symbol, if_pos ram_ne_ramcore, if_pos rfl] at first
  obtain ⟨issueSymbol, grown⟩ := convertToExchange_ok first
  rw [supply] at issueSymbol
  rw [issueSymbol, if_pos apart, convertOnce] at second
  simp only [grown, ExchangeState.rebalance, supply, base, quote, issueSymbol, ne_eq,
    not_true_eq_false, if_false, other, if_true] at second
  exact exchanged exact (by rw [supply]) stocked.weighs (by decide) stocked.some positive fits word first
    (by simpa only [grown, ExchangeState.rebalance, supply, base] using second)

theorem Exchanged.stocked {side : Side} {input output : Int} (stocked : Stocked m)
    (exchanged : Exchanged m m' side other input output) (given : m'.held side = m.held side + input)
    (positive : 0 < input) (taken : m'.held other = m.held other - output)
    (sides : side ≠ other) : Stocked m' ∧
      m.held side * m.held other ≤ m'.held side * m'.held other := by
  have weighs := exchanged.weights
  have left := exchanged.left
  have some := stocked.some side
  refine ⟨⟨fun x => ?_, fun x => ?_⟩, ?_⟩
  · rw [← stocked.weighs x]
    cases x with
    | base => exact weighs.1
    | quote => exact weighs.2
  · by_cases here : x = side
    · rw [here, given]
      omega
    · have there : x = other := by
        cases x <;> cases side <;> cases other <;> first | rfl | exact absurd rfl here | exact absurd rfl sides
      rw [there, taken]
      omega
  · rw [given, taken]
    exact exchanged.kept

/-! ## The tables -/

/-- The supply grows by so many bytes in each slot, and grew last in such a slot. -/
def growth (e : Election D) : Nat × Nat := (e.gstate2.newRamPerBlock, e.gstate2.lastRamIncrease)

/-- RAM of `size` bytes, which grows by `rate` in each slot after `last`, stays below 2^51 bytes
until slots are used up. -/
structure Ample (size rate last : Nat) : Prop where
  short : rate < 2 ^ 16
  word : last < 2 ^ 32
  room : size + (2 ^ 32 - last) * 2 ^ 16 < 2 ^ 51

theorem Ample.grow {size rate last slot more : Nat} (ample : Ample size rate last) (later : last < slot)
    (word : slot < 2 ^ 32) (most : more ≤ (slot - last) * rate) : Ample (size + more) rate slot := by
  have bytes : (slot - last) * rate ≤ (slot - last) * 2 ^ 16 :=
    Nat.mul_le_mul_left _ ample.short.le
  have room := ample.room
  exact ⟨ample.short, word, by omega⟩

/-- The market is stocked, every byte that it does not offer is some account's, and what it holds
multiplies to at least `product`. -/
structure Priced (core : Symbol) (product : Int) (s : State ℝ) : Prop where
  market : ∃ m, s.rammarket = some m ∧ Listed core m ∧ Stocked m ∧
    product ≤ m.held .quote * m.held .base ∧ m.held .base + ramOf s.userres = s.gstate.maxRamSize
  rows : s.userres.All fun _ r => 0 ≤ r.ramBytes
  ample : Ample s.gstate.maxRamSize s.gstate2.newRamPerBlock s.gstate2.lastRamIncrease

variable {quote held : Int} {payer receiver account : Name} {quant : Asset}

theorem Priced.size (hs : Priced core product s) : s.gstate.maxRamSize < 2 ^ 51 := by
  have room := hs.ample.room
  omega

/-- What an action does that has not to do with the market. -/
structure Aside (s s' : State D) : Prop where
  market : s'.rammarket = s.rammarket
  size : s'.gstate.maxRamSize = s.gstate.maxRamSize
  growth : growth s'.toElection = growth s.toElection
  bytes : ramOf s'.userres = ramOf s.userres
  rows : s.userres.All (fun _ r => 0 ≤ r.ramBytes) → s'.userres.All fun _ r => 0 ≤ r.ramBytes

theorem Priced.aside (hs : Priced core product s) (aside : Aside s s') : Priced core product s' := by
  obtain ⟨m, found, listed, stocked, least, whole⟩ := hs.market
  obtain ⟨rate, last⟩ := Prod.mk.inj aside.growth
  refine ⟨⟨m, aside.market.trans found, listed, stocked, least, ?_⟩, aside.rows hs.rows, ?_⟩
  · rw [aside.bytes, aside.size, whole]
  · rw [aside.size, rate, last]
    exact hs.ample

/-- The market is given RAM. -/
theorem Priced.supplied (hs : Priced core product s) {m : ExchangeState ℝ} {size : Nat}
    {amount : Int} (found : s.rammarket = some m) (more : s.gstate.maxRamSize ≤ size)
    (last : GlobalState2 ℝ) (ample : Ample size last.newRamPerBlock last.lastRamIncrease)
    (given : amount = m.held .base + (size - s.gstate.maxRamSize)) :
    Priced core product { s with
      gstate := { s.gstate with maxRamSize := size }
      gstate2 := last
      rammarket := some { m with
        base := { m.base with balance := ⟨amount, m.base.balance.symbol⟩ } } } := by
  obtain ⟨_, same, listed, stocked, least, whole⟩ := hs.market
  cases found.symm.trans same
  have base := stocked.some .base
  have quote := stocked.some .quote
  have grown : m.held .base ≤ amount := by omega
  refine ⟨⟨_, rfl, ⟨listed.supply, listed.base, listed.quote⟩, ⟨fun side => ?_, fun side => ?_⟩, ?_,
    ?_⟩, hs.rows, ample⟩
  · rw [← stocked.weighs side]
    cases side with
    | base => rfl
    | quote => rfl
  · cases side with
    | base => exact lt_of_lt_of_le base grown
    | quote => exact quote
  · calc product ≤ m.held .quote * m.held .base := least
      _ ≤ m.held .quote * amount := mul_le_mul_of_nonneg_left grown quote.le
  · have there : amount + ramOf s.userres = size := by omega
    exact there

theorem u32_le {x : Int} (least : 0 ≤ x) : (u32 x : Int) ≤ x := by
  unfold u32
  omega

theorem Priced.updateRamSupply (hs : Priced core product s) (h : updateRamSupply c s = .ok s') :
    Priced core product s' := by
  obtain ⟨m, found, -, stocked, -, whole⟩ := hs.market
  simp only [System.updateRamSupply, State.market, found, ite_eq_ok, bind_eq_ok, pure_eq_ok, not_le]
    at h
  obtain ⟨-, rfl⟩ | ⟨later, m', rfl, rfl⟩ := h
  · exact hs
  · have word : c.slot < 2 ^ 32 := u32_lt _
    have elapsed : u32 ((c.slot : Int) - s.gstate2.lastRamIncrease) =
        c.slot - s.gstate2.lastRamIncrease := by
      have same := u32_of_lt (x := (c.slot : Int) - s.gstate2.lastRamIncrease) (by omega) (by omega)
      omega
    rw [elapsed]
    generalize grown : u32 (((c.slot - s.gstate2.lastRamIncrease : Nat) : Int) *
      s.gstate2.newRamPerBlock) = newRam
    have least : 0 ≤ ((c.slot - s.gstate2.lastRamIncrease : Nat) : Int) * s.gstate2.newRamPerBlock :=
      by positivity
    have most : newRam ≤ (c.slot - s.gstate2.lastRamIncrease) * s.gstate2.newRamPerBlock := by
      have cut := u32_le least
      rw [grown] at cut
      exact_mod_cast cut
    have ample := hs.ample.grow later word most
    have room := ample.room
    have bytes : 0 ≤ ramOf s.userres := Table.total_nonneg hs.rows
    have some : 0 < m.held .base := stocked.some .base
    have size : u64 ((s.gstate.maxRamSize : Int) + newRam) = s.gstate.maxRamSize + newRam := by
      have same := u64_of_lt (x := (s.gstate.maxRamSize : Int) + newRam) (by omega) (by omega)
      omega
    have wide : i64 (m.held .base + newRam) = m.held .base + newRam :=
      i64_of_lt (by omega) (by omega)
    rw [size]
    exact hs.supplied found (by omega) { s.gstate2 with lastRamIncrease := c.slot } ample
      (wide.trans (by push_cast; ring))

/-! ## Trade -/

/-- The market and the accounts may exchange tokens for bytes. -/
theorem Priced.trade (hs : Priced core product s) (found : s.rammarket = some m)
    (listed : Listed core m') (stocked : Stocked m')
    (kept : m.held .quote * m.held .base ≤ m'.held .quote * m'.held .base)
    {userres : Table Name UserResources} (rows : userres.All fun _ r => 0 ≤ r.ramBytes)
    (bytes : m'.held .base + ramOf userres = m.held .base + ramOf s.userres) (reserved : Nat)
    (stake : Int) : Priced core product { s with
      rammarket := some m'
      userres
      gstate := { s.gstate with totalRamBytesReserved := reserved, totalRamStake := stake } } := by
  obtain ⟨_, same, -, -, least, whole⟩ := hs.market
  cases found.symm.trans same
  exact ⟨⟨m', rfl, listed, stocked, least.trans kept, bytes.trans whole⟩, rows, hs.ample⟩

/-- A payment has not to do with RAM. -/
theorem Priced.pay {source target : Name} {quantity : Asset} {memo : String}
    (hs : Priced core product s) (h : s.pay source target quantity memo = .ok s') :
    Priced core product s' := by
  obtain ⟨token, -, rfl⟩ := State.pay_ok h
  exact hs.aside ⟨rfl, rfl, rfl, rfl, id⟩

/-- An account has no more bytes than all have. -/
theorem bytes_le {userres : Table Name UserResources} {row : UserResources}
    (rows : userres.All fun _ r => 0 ≤ r.ramBytes) (found : userres.lookup account = some row) :
    row.ramBytes ≤ ramOf userres := by
  have part := Table.weightAt_le_total rows account
  rwa [Table.weightAt_some found] at part

/-- A row that changes by `bytes`, which it has room for, changes the sum by as much. -/
theorem ramOf_change {userres : Table Name UserResources} {row : UserResources} {bytes : Int}
    (rows : userres.All fun _ r => 0 ≤ r.ramBytes) (found : userres.lookup account = some row)
    (nonneg : 0 ≤ row.ramBytes + bytes) (fits : row.ramBytes + bytes < 2 ^ 63) :
    Table.All (userres.insert account { row with ramBytes := i64 (row.ramBytes + bytes) })
        (fun _ r => 0 ≤ r.ramBytes) ∧
      ramOf (userres.insert account { row with ramBytes := i64 (row.ramBytes + bytes) }) =
        ramOf userres + bytes := by
  have exact : i64 (row.ramBytes + bytes) = row.ramBytes + bytes := i64_of_lt (by omega) fits
  rw [exact]
  refine ⟨rows.insert nonneg, ?_⟩
  rw [ramOf, Table.total_insert, Table.weightAt_some found, ramOf]
  ring

theorem grantRam_bytes {userres userres' : Table Name UserResources} {bytes : Int}
    (rows : userres.All fun _ r => 0 ≤ r.ramBytes) (nonneg : 0 ≤ bytes)
    (fits : ramOf userres + bytes < 2 ^ 63)
    (h : grantRam userres core receiver bytes = .ok userres') :
    userres'.All (fun _ r => 0 ≤ r.ramBytes) ∧ ramOf userres' = ramOf userres + bytes := by
  unfold grantRam at h
  cases found : userres.lookup receiver with
  | none =>
    simp only [found, bind_eq_ok, Asset.make_eq_ok, pure_eq_ok] at h
    obtain ⟨_, -, rfl⟩ := h
    refine ⟨rows.insert nonneg, ?_⟩
    rw [ramOf, Table.total_insert, Table.weightAt_none found, sub_zero]
    rfl
  | some row =>
    simp only [found, pure_eq_ok] at h
    subst h
    have part := bytes_le rows found
    have least : 0 ≤ row.ramBytes := rows _ _ found
    have room : 0 ≤ row.ramBytes + bytes ∧ row.ramBytes + bytes < 2 ^ 63 := by omega
    exact ramOf_change rows found room.1 room.2

theorem Priced.buyram (hs : Priced core product s) (ram : Accounted core quote held s)
    (exact : c.fp = .exact) (other : core ≠ RAM_SYMBOL) (apart : core ≠ RAMCORE_SYMBOL)
    (nonneg : 0 ≤ held)
    (h : buyram c s payer receiver quant = .ok s') : Priced core product s' := by
  simp only [System.buyram, bind_eq_ok, Ctx.requireAuth_eq_ok, require_eq_ok,
    exists_const, ite_eq_ok, pure_eq_ok, Prod.exists] at h
  obtain ⟨-, raised, supplied, core', known, symbol, -, paid, sent, charged, fee, m,
    listing, output, m', converted, -, userres, granted, rfl⟩ := h
  replace hs := hs.updateRamSupply supplied
  replace ram := ram.updateRamSupply supplied
  cases ram.coreSymbol.symm.trans known
  replace hs := hs.pay sent
  obtain ⟨distinct, positive, ram⟩ := ram.pay sent symbol
  rw [if_neg distinct, if_pos rfl, add_zero] at ram
  generalize i64 (quant.amount - ramFee quant.amount) = rest at *
  replace positive : 0 < rest := positive
  have charging : Priced core product charged ∧ Accounted core quote (held + rest) charged := by
    rcases fee with ⟨-, fee⟩ | ⟨-, rfl⟩
    · exact ⟨hs.pay fee, ram.payElsewhere distinct (by decide) fee⟩
    · exact ⟨hs, ram⟩
  obtain ⟨hs, ram⟩ := charging
  obtain ⟨_, found, -, -, staked⟩ := ram.market
  obtain ⟨m₀, same, listed, stocked, -, whole⟩ := hs.market
  cases found.symm.trans same
  rw [State.market_eq_ok, found] at listing
  cases listing
  have atMost := ram.token.atMost RAM_ACCOUNT core.code
  have balance := ram.balance
  have stake := ram.stake
  have price := ram.price
  have size := hs.size
  have bytes : 0 ≤ ramOf charged.userres := Table.total_nonneg hs.rows
  have max : Asset.maxAmount < 2 ^ 62 := by decide
  unfold State.balance at balance
  have quoted : m.held .quote + rest < 2 ^ 63 := by
    have staked : m.held .quote = quote + charged.gstate.totalRamStake := staked
    omega
  have exchanged := listed.buys stocked exact other apart converted symbol positive quoted (by omega)
  obtain ⟨listed', base, sold⟩ := listed.buy other apart converted symbol
  have least := exchanged.nonneg
  have left := exchanged.left
  have some := stocked.some .quote
  replace base : m'.held .base = i64 (m.held .base - output.amount) := base
  replace sold : m'.held .quote = i64 (m.held .quote + rest) := sold
  rw [i64_of_lt (by omega) (by omega)] at base
  rw [i64_of_lt (by omega) quoted] at sold
  obtain ⟨stocked', kept⟩ := exchanged.stocked stocked sold positive base (by decide)
  obtain ⟨rows, more⟩ := grantRam_bytes hs.rows least (by omega) granted
  exact hs.trade found listed' stocked' kept rows (by omega) _ _

theorem Priced.buyrambytes {bytes : Nat} (hs : Priced core product s)
    (ram : Accounted core quote held s) (exact : c.fp = .exact) (other : core ≠ RAM_SYMBOL)
    (apart : core ≠ RAMCORE_SYMBOL) (nonneg : 0 ≤ held)
    (h : buyrambytes c s payer receiver bytes = .ok s') : Priced core product s' := by
  simp only [System.buyrambytes, bind_eq_ok, Prod.exists] at h
  obtain ⟨_, -, _, -, _, -, eosout, _, -, bought⟩ := h
  exact hs.buyram ram exact other apart nonneg bought

theorem Priced.sellram {bytes : Int} (hs : Priced core product s)
    (ram : Accounted core quote held s) (exact : c.fp = .exact) (other : core ≠ RAM_SYMBOL)
    (apart : core ≠ RAMCORE_SYMBOL) (nonneg : 0 ≤ held)
    (h : sellram c s account bytes = .ok s') : Priced core product s' := by
  simp only [System.sellram, bind_eq_ok, Ctx.requireAuth_eq_ok, require_eq_ok,
    exists_const, ite_eq_ok, pure_eq_ok, Prod.exists, find_eq_ok, Asset.make_eq_ok,
    State.market_eq_ok] at h
  obtain ⟨-, raised, supplied, positive, row, owned, enough, m, listing, core', known, _,
    ⟨-, -, rfl⟩, output, m', converted, worth, rest, paid, sent, fee⟩ := h
  replace hs := hs.updateRamSupply supplied
  replace ram := ram.updateRamSupply supplied
  cases ram.coreSymbol.symm.trans known
  obtain ⟨_, found, -, -, staked⟩ := ram.market
  obtain ⟨m₀, same, listed, stocked, -, whole⟩ := hs.market
  cases found.symm.trans same
  rw [found] at listing
  cases listing
  have atMost := ram.token.atMost RAM_ACCOUNT core.code
  have balance := ram.balance
  have price := ram.price
  have size := hs.size
  have part := bytes_le hs.rows owned
  have max : Asset.maxAmount < 2 ^ 62 := by decide
  unfold State.balance at balance
  have quoted : m.held .quote < 2 ^ 63 := by
    have staked : m.held .quote = quote + raised.gstate.totalRamStake := staked
    omega
  have based : m.held .base + bytes < 2 ^ 63 := by omega
  have exchanged := listed.sells stocked exact other apart converted rfl positive based quoted
  obtain ⟨listed', -, -, base, sold⟩ := listed.sell other apart converted rfl
  have least := exchanged.nonneg
  have left := exchanged.left
  have some := stocked.some .base
  replace base : m'.held .base = i64 (m.held .base + bytes) := base
  replace sold : m'.held .quote = i64 (m.held .quote - output.amount) := sold
  rw [i64_of_lt (by omega) based] at base
  rw [i64_of_lt (by omega) (by omega)] at sold
  obtain ⟨stocked', kept⟩ := exchanged.stocked stocked base positive sold (by decide)
  rw [mul_comm, mul_comm (m'.held .base)] at kept
  have within : 0 ≤ row.ramBytes + -bytes := by omega
  obtain ⟨rows, fewer⟩ := ramOf_change hs.rows owned within (by omega)
  simp only [← sub_eq_add_neg] at rows fewer
  have traded := (hs.trade found listed' stocked' kept rows (by omega) _ _).pay sent
  rcases fee with ⟨-, _, -, charged⟩ | ⟨-, rfl⟩
  · exact traded.pay charged
  · exact traded

theorem Priced.setram {size : Nat} (hs : Priced core product s)
    (h : setram c s size = .ok s') : Priced core product s' := by
  obtain ⟨m, found, -, stocked, -, whole⟩ := hs.market
  simp only [System.setram, bind_eq_ok, Ctx.requireAuth_eq_ok, require_eq_ok,
    exists_const, pure_eq_ok, State.market_eq_ok, found, Option.some.injEq] at h
  obtain ⟨-, more, less, -, _, rfl, rfl⟩ := h
  have bytes : 0 ≤ ramOf s.userres := Table.total_nonneg hs.rows
  have before : i64 (s.gstate.maxRamSize : Int) = s.gstate.maxRamSize :=
    i64_of_lt (by omega) (by omega)
  have after : i64 (size : Int) = size := i64_of_lt (by omega) (by omega)
  have delta : i64 ((size : Int) - s.gstate.maxRamSize) = size - s.gstate.maxRamSize :=
    i64_of_lt (by omega) (by omega)
  have some : 0 < m.held .base := stocked.some .base
  have wide : i64 (m.held .base + (size - s.gstate.maxRamSize)) =
      m.held .base + (size - s.gstate.maxRamSize) := i64_of_lt (by omega) (by omega)
  have room := hs.ample.room
  have ample : Ample size s.gstate2.newRamPerBlock s.gstate2.lastRamIncrease :=
    ⟨hs.ample.short, hs.ample.word, by omega⟩
  refine hs.supplied found (by omega) s.gstate2 ample ?_
  rw [before, after, delta]
  exact wide

theorem Priced.setramrate {rate : Nat} (hs : Priced core product s) (short : rate < 2 ^ 16)
    (h : setramrate c s rate = .ok s') : Priced core product s' := by
  simp only [System.setramrate, bind_eq_ok, Ctx.requireAuth_eq_ok, exists_const, pure_eq_ok] at h
  obtain ⟨-, raised, supplied, rfl⟩ := h
  have raised := hs.updateRamSupply supplied
  exact ⟨raised.market, raised.rows, ⟨short, raised.ample.word, raised.ample.room⟩⟩

/-! ## Other actions -/

section

variable {c : Ctx D} {s s' : State D} {e e' : Election D}

theorem Reweighed.growth (h : Reweighed e e') : growth e' = growth e := by
  obtain ⟨_, gstate2⟩ := h.gstate2
  simp only [System.growth, gstate2]

theorem updateProducerVotepayShare_growth (owner : Name) (prod2 : ProducerInfo2 D) (rate : D)
    (reset : Bool) : growth (updateProducerVotepayShare c e owner prod2 rate reset).2 = growth e := by
  unfold updateProducerVotepayShare
  split
  · rfl
  · rfl

theorem settleClaim_growth (owner : Name) (prod : ProducerInfo D) :
    growth (settleClaim c e owner prod).2.2 = growth e := by
  have paid (e : Election D) (share : D) (crossed : Bool) :
      growth (perVotePay c e prod share crossed).2 = growth e := by
    unfold perVotePay
    simp only
    split
    · split
      · rfl
      · rfl
    · split
      · rfl
      · rfl
  unfold settleClaim
  cases e.producers2.lookup owner with
  | none => exact (paid _ _ _).trans (updateProducerVotepayShare_growth _ _ _ _)
  | some prod2 => exact (paid _ _ _).trans (updateProducerVotepayShare_growth _ _ _ _)

theorem claimrewards_growth {owner : Name} (h : claimrewards c s owner = .ok s') :
    growth s'.toElection = growth s.toElection := by
  simp only [claimrewards, bind_eq_ok, find_eq_ok] at h
  obtain ⟨-, -, prod, -, -, -, -, -, -, -, filled, filling, core, -, blocked, blockPaid, votePaid⟩ :=
    h
  obtain ⟨token₁, rfl, -⟩ := payPositive_outgoing
    (s := { filled with toElection := (settleClaim c filled.toElection owner prod).2.2 })
    blockPaid
  obtain ⟨token₂, rfl, -⟩ := payPositive_outgoing votePaid
  refine (settleClaim_growth owner prod).trans ?_
  simp only [fillBuckets, bind_eq_ok, ite_eq_ok, pure_eq_ok] at filling
  obtain ⟨core, -, supply, -, ⟨-, issued, -, minted, issuing, saved, saving, blocks, blocked, votes,
    voted, rfl⟩ | ⟨-, rfl⟩⟩ := filling
  · obtain ⟨token₁, rfl, -⟩ := payCore_outgoing (s := { s with token := minted }) saving
    obtain ⟨token₂, rfl, -⟩ := payCore_outgoing blocked
    obtain ⟨token₃, rfl, -⟩ := payCore_outgoing voted
    rfl
  · rfl

theorem onblock_growth {slot : Nat} {producer : Name} (h : onblock c s slot producer = .ok s') :
    growth s'.toElection = growth s.toElection ∧ s'.gstate.maxRamSize = s.gstate.maxRamSize := by
  simp only [onblock, bind_eq_ok, ite_eq_ok, pure_eq_ok] at h
  obtain ⟨-, -, ⟨-, rfl⟩ | ⟨-, rfl⟩⟩ := h
  · exact ⟨rfl, rfl⟩
  · cases found : s.producers.lookup producer with
    | none =>
      simp only [countBlock, found]
      obtain ⟨update, close, bids, -, same⟩ := everyMinute_ok (c := c) slot
      rw [same]
      exact ⟨rfl, rfl⟩
    | some prod =>
      simp only [countBlock, found]
      obtain ⟨update, close, bids, -, same⟩ := everyMinute_ok (c := c) slot
      rw [same]
      exact ⟨rfl, rfl⟩

theorem governs_growth {a : Action} (governs : a.governs = true) (h : a.apply c s = .ok s') :
    growth s'.toElection = growth s.toElection := by
  cases a <;> try cases governs
  case voteproducer voter proxy producers =>
    simp only [Action.apply, voteproducer, bind_eq_ok, pure_eq_ok] at h
    obtain ⟨-, -, e, voted, rfl⟩ := h
    obtain ⟨_, settled, weight, -, reweighed, -, rfl⟩ := updateVotes_ok voted
    exact reweighed.growth
  case regproxy proxy isProxy =>
    obtain ⟨e, rfl, ⟨-, rfl⟩ | ⟨voter, -, -, passed⟩⟩ := regproxy_ok h
    · rfl
    · exact (propagate_reweighed passed).growth
  case regproducer producer key url location =>
    obtain ⟨e, rfl, registers⟩ := regproducer_ok h
    cases registers with
    | new | again | late => rfl
  case unregprod producer =>
    simp only [Action.apply, unregprod, bind_eq_ok, find_eq_ok, pure_eq_ok] at h
    obtain ⟨-, -, prod, -, rfl⟩ := h
    rfl
  case rmvproducer producer =>
    simp only [Action.apply, rmvproducer, bind_eq_ok, find_eq_ok, pure_eq_ok] at h
    obtain ⟨-, -, prod, -, rfl⟩ := h
    rfl
  case updtrevision revision =>
    simp only [Action.apply, updtrevision, bind_eq_ok, require_eq_ok, pure_eq_ok] at h
    obtain ⟨-, -, -, -, -, -, -, -, rfl⟩ := h
    rfl

theorem updateTotals_rows {userres userres' : Table Name UserResources} {net cpu : Asset}
    {receiver : Name} (rows : userres.All fun _ r => 0 ≤ r.ramBytes)
    (h : updateTotals userres receiver net cpu = .ok userres') :
    userres'.All fun _ r => 0 ≤ r.ramBytes := by
  simp only [updateTotals, bind_eq_ok, require_eq_ok, exists_const, ite_eq_ok, pure_eq_ok] at h
  obtain ⟨row, sum, -, -, written⟩ := h
  have least : 0 ≤ row.ramBytes := by
    cases found : userres.lookup receiver with
    | none =>
      simp only [found, pure_eq_ok] at sum
      subst sum
      exact le_refl 0
    | some old =>
      simp only [found, bind_eq_ok, pure_eq_ok] at sum
      obtain ⟨_, -, _, -, rfl⟩ := sum
      have least : 0 ≤ old.ramBytes := rows _ _ found
      exact least
  rcases written with ⟨-, rfl⟩ | ⟨-, rfl⟩
  · exact rows.erase _
  · exact rows.insert least

theorem changebw_aside {source receiver : Name} {net cpu : Asset} {transfer : Bool}
    (h : changebw c s source receiver net cpu transfer = .ok s') : Aside s s' := by
  have totals := changebw_totals h
  have size := (Holdings.mk.inj (changebw_stakes h).holdings).1
  obtain ⟨delband, userres, paid, -, -, -, -, settled, voted⟩ := changebw_ok h
  have same : paid.toElection = s.toElection ∧ paid.rammarket = s.rammarket := by
    rcases settled with ⟨-, settled⟩ | ⟨-, rfl⟩
    · obtain ⟨refunds, token, rfl, -⟩ := settleStake_moves settled
      exact ⟨rfl, rfl⟩
    · exact ⟨rfl, rfl⟩
  obtain ⟨e, -, reweighed, rfl⟩ := updateVotingPower_ok voted
  refine ⟨same.2, size, reweighed.growth.trans ?_, updateTotals_ram totals, fun rows =>
    updateTotals_rows rows totals⟩
  have kept : growth paid.toElection = growth s.toElection := congrArg growth same.1
  exact kept

/-- Trade in RAM, its supply, and the set-up. -/
def Action.marketed : Action → Bool
  | .init .. | .buyram .. | .buyrambytes .. | .sellram .. | .setram .. | .setramrate .. => true
  | _ => false

theorem apply_aside {a : Action} (quiet : a.marketed = false) (h : a.apply c s = .ok s') :
    Aside s s' := by
  have governed (governs : a.governs = true) : Aside s s' := by
    have kept := governs_growth governs h
    obtain ⟨e, rfl, governed⟩ := apply_governs True governs h
    exact ⟨rfl, (Holdings.mk.inj governed.holdings).1, kept, rfl, id⟩
  cases a <;> try cases quiet
  case newaccount creator newact =>
    obtain ⟨none, namebids, fresh, -, -, rfl⟩ := newaccount_ok h
    refine ⟨rfl, rfl, rfl, ?_, fun rows => rows.insert (le_refl 0)⟩
    rw [ramOf, Table.total_insert, Table.weightAt_none fresh]
    simp only [sub_zero, add_zero, ramOf]
  case bidname bidder newname bid =>
    obtain ⟨_, _, _, rfl, -⟩ := bidname_moves h
    exact ⟨rfl, rfl, rfl, rfl, id⟩
  case bidrefund bidder newname =>
    obtain ⟨_, _, rfl, -⟩ := bidrefund_moves h
    exact ⟨rfl, rfl, rfl, rfl, id⟩
  case delegatebw source receiver net cpu transfer =>
    obtain ⟨-, -, -, -, -, -, changed⟩ := delegatebw_ok h
    exact changebw_aside changed
  case undelegatebw source receiver net cpu =>
    obtain ⟨-, -, -, -, -, changed⟩ := undelegatebw_ok h
    exact changebw_aside changed
  case refund owner =>
    simp only [Action.apply, System.refund, bind_eq_ok, pure_eq_ok] at h
    obtain ⟨-, -, req, -, -, -, amount, -, paid, sent, rfl⟩ := h
    obtain ⟨token, rfl, -⟩ := pay_outgoing sent
    exact ⟨rfl, rfl, rfl, rfl, id⟩
  case claimrewards owner =>
    have kept := claimrewards_growth h
    have claims := claimrewards_claims h
    obtain ⟨size, -, -⟩ := claims.ram
    obtain ⟨_, _, rfl, -⟩ := claims.rest
    exact ⟨rfl, size, kept, rfl, id⟩
  case onblock slot producer =>
    obtain ⟨kept, size⟩ := onblock_growth h
    obtain ⟨e, bids, -, -, rfl⟩ := onblock_ok h
    exact ⟨rfl, size, kept, rfl, id⟩
  all_goals exact governed rfl

end

/-! ## Every run -/

/-- The rate is of its type. -/
def Action.typed : Action → Bool
  | .setramrate rate => decide (rate < 2 ^ 16)
  | _ => true

theorem typed_refunds (_ : State D) (call : Call D) (refunds : call.action.refunds = true) :
    call.action.typed = true := by
  cases action : call.action <;> first | rfl | (rw [action] at refunds; cases refunds)

theorem Priced.apply {a : Action} (hs : Priced core product s) (ram : Accounted core quote held s)
    (exact : c.fp = .exact) (other : core ≠ RAM_SYMBOL) (apart : core ≠ RAMCORE_SYMBOL)
    (nonneg : 0 ≤ held) (typed : a.typed = true) (h : a.apply c s = .ok s') :
    Priced core product s' := by
  cases a with
  | init version symbol =>
    simp only [Action.apply, System.init, bind_eq_ok, require_eq_ok, Option.isNone_iff_eq_none] at h
    obtain ⟨-, -, -, -, -, unlisted, -⟩ := h
    obtain ⟨m, found, -⟩ := hs.market
    cases unlisted.symm.trans found
  | buyram payer receiver quant => exact hs.buyram ram exact other apart nonneg h
  | buyrambytes payer receiver bytes => exact hs.buyrambytes ram exact other apart nonneg h
  | sellram account bytes => exact hs.sellram ram exact other apart nonneg h
  | setram size => exact hs.setram h
  | setramrate rate => exact hs.setramrate (of_decide_eq_true typed) h
  | newaccount | rmvproducer | updtrevision | bidname | bidrefund | delegatebw | undelegatebw
  | refund | regproducer | unregprod | voteproducer | regproxy | onblock | claimrewards =>
    exact hs.aside (apply_aside rfl h)

/-- The contract can pay, and the market is as it should be. -/
structure Trading (core : Symbol) (product : Int) (s : State ℝ) : Prop where
  solvent : Solvent core False s
  priced : Priced core product s

variable {self : Name} {ch : Blockchain ℝ}

theorem Trading.moves (hs : Trading core product s) (other : core ≠ RAM_SYMBOL)
    (apart : core ≠ RAMCORE_SYMBOL) (own : self ∉ RESERVES)
    (moved : Moves outsider (fun _ call => call.action.typed) self .exact s s') :
    Trading core product s' := by
  refine ⟨hs.solvent.moves other apart own False.elim moved, ?_⟩
  cases moved with
  | @act auth now a s' size known signs allowed done =>
    obtain ⟨quote, held, nonneg, ram⟩ := hs.solvent.ram
    have applied : Priced core product s' := hs.priced.apply (c := ⟨self, auth, now, .exact⟩) ram rfl
      other apart nonneg allowed done
    exact applied.aside ⟨rfl, rfl, rfl, rfl, id⟩
  | params => exact hs.priced.aside ⟨rfl, rfl, rfl, rfl, id⟩
  | token signs done => exact hs.priced.aside ⟨rfl, rfl, rfl, rfl, id⟩
  | stay => exact hs.priced

/-- Accounts have no RAM, and there is some for the market, which can grow for as long as there are
slots. -/
structure Unsold (s : State D) (core : Symbol) : Prop where
  some : 0 < s.gstate.maxRamSize
  ample : Ample s.gstate.maxRamSize s.gstate2.newRamPerBlock s.gstate2.lastRamIncrease
  issued : 1000 ≤ s.supply core.code

/-- What the market holds of tokens and of RAM, one times the other. -/
def State.worth (s : State D) : Int :=
  match s.rammarket with
  | some m => m.held .quote * m.held .base
  | none => 0

theorem worth_eq {s : State D} {m : ExchangeState D} (found : s.rammarket = some m) :
    s.worth = m.held .quote * m.held .base := by
  rw [State.worth, found]

/-- A market is worth at least what it holds. -/
theorem Priced.start (found : s.rammarket = some m) (listed : Listed core m) (stocked : Stocked m)
    (whole : m.held .base + ramOf s.userres = s.gstate.maxRamSize)
    (rows : s.userres.All fun _ r => 0 ≤ r.ramBytes)
    (ample : Ample s.gstate.maxRamSize s.gstate2.newRamPerBlock s.gstate2.lastRamIncrease) :
    Priced core s.worth s :=
  ⟨⟨m, found, listed, stocked, (worth_eq found).le, whole⟩, rows, ample⟩

theorem Fresh.trading {version : Nat} (fresh : Fresh s) (unsold : Unsold s core)
    (exact : c.fp = .exact) (h : init c s version core = .ok s') : Trading core s'.worth s' := by
  refine ⟨fresh.solvent False.elim h, ?_⟩
  have nothing : ramOf s.userres = 0 := Table.total_zero fresh.unreserved.userres
  have rows : s.userres.All fun _ r => 0 ≤ r.ramBytes := fun k r found =>
    (fresh.unreserved.userres k r found).ge
  simp only [System.init, State.getSupply, bind_eq_ok, Ctx.requireAuth_eq_ok,
    require_eq_ok, find_eq_ok, exists_const, pure_eq_ok] at h
  obtain ⟨-, -, -, supply, ⟨st, issued, rfl⟩, rfl, -, opened⟩ := h
  have room := unsold.ample.room
  have some := unsold.some
  have offered : i64 s.gstate.freeRam = s.gstate.maxRamSize := by
    rw [GlobalState.freeRam, fresh.unreserved.reserved, i64_u64, Nat.cast_zero, sub_zero]
    exact i64_of_lt (by omega) (by omega)
  have tokens : 0 < st.supply.amount.tdiv 1000 := by
    have least := unsold.issued
    rw [State.supply, Ledger.held_some issued] at least
    rw [Int.tdiv_eq_ediv_of_nonneg (by omega)]
    omega
  have half : c.fp.literal 5 1 = (1 / 2 : ℝ) := by
    rw [exact]
    norm_num [Doubles.exact]
  rw [offered, half] at opened
  generalize st.supply.amount.tdiv 1000 = price at opened tokens
  subst opened
  refine Priced.start rfl ⟨rfl, rfl, rfl⟩ ⟨fun side => ?_, fun side => ?_⟩ ?_ rows unsold.ample
  · cases side with
    | base => rfl
    | quote => rfl
  · cases side with
    | base => exact Int.natCast_pos.mpr some
    | quote => exact tokens
  · rw [nothing, add_zero]
    rfl

/-- What the market holds never gets less worth: its product does not fall, so that nobody gives it
back its RAM and keeps tokens of it. -/
structure Kept (s t : State ℝ) : Prop where
  product : s.worth ≤ t.worth
  market : ∃ m n, s.rammarket = some m ∧ t.rammarket = some n ∧
    0 < n.held .base ∧ n.held .base + ramOf t.userres = t.gstate.maxRamSize ∧
    (n.held .base ≤ m.held .base → m.held .quote ≤ n.held .quote)

theorem Priced.kept {t : State ℝ} (hs : Priced core product s) (ht : Priced core s.worth t) :
    Kept s t := by
  obtain ⟨m, found, -, before, -, -⟩ := hs.market
  obtain ⟨n, found', -, stocked, least, whole⟩ := ht.market
  have some := stocked.some .base
  refine ⟨least.trans_eq (worth_eq found').symm, m, n, found, found', some, whole, fun back => ?_⟩
  have grown : m.held .quote * n.held .base ≤ n.held .quote * n.held .base := by
    calc m.held .quote * n.held .base
        ≤ m.held .quote * m.held .base := mul_le_mul_of_nonneg_left back (before.some .quote).le
      _ = s.worth := (worth_eq found).symm
      _ ≤ n.held .quote * n.held .base := least
  exact le_of_mul_le_mul_right grown some

theorem market_keeps (self : Name) (ch : Blockchain ℝ) (known : self ∈ ch.accounts)
    (own : self ∉ RESERVES) (idle : ch.deferred = ∅) (s₀ : State ℝ) (fresh : Fresh s₀)
    (unsold : Unsold s₀ core) (version : Nat) (exact : c.fp = .exact)
    (opened : init c s₀ version core = .ok ch.toState) (other : core ≠ RAM_SYMBOL)
    (apart : core ≠ RAMCORE_SYMBOL) (events later : List Event)
    (outside : ∀ e ∈ events ++ later, e.signedBy outsider = true)
    (typed : Along (Blockchain.step self .exact)
      (fun ch e => e.allowed (fun _ call => call.action.typed) .exact ch = true) ch
      (events ++ later)) :
    let reached := run (Blockchain.step self .exact) ch events
    Kept reached.toState (run (Blockchain.step self .exact) reached later).toState := by
  intro reached
  obtain ⟨before, after⟩ := along_append.mp typed
  have queued : Queued outsider self ch := .idle known (decide_eq_true own) idle
  have kept (product : Int) (s s' : State ℝ) (hs : Trading core product s)
      (moved : Moves outsider (fun _ call => call.action.typed) self .exact s s') :
      Trading core product s' := hs.moves other apart own moved
  obtain ⟨waiting, traded⟩ := moves_invariant typed_refunds (kept _) queued
    (fresh.trading unsold exact opened) (fun e there => outside e (List.mem_append_left _ there))
    before
  have now : Trading core reached.toState.worth reached.toState := by
    obtain ⟨m, found, listed, stocked, -, whole⟩ := traded.priced.market
    exact ⟨traded.solvent, .start found listed stocked whole traded.priced.rows traded.priced.ample⟩
  obtain ⟨-, gained⟩ := moves_invariant typed_refunds (kept _) waiting now
    (fun e there => outside e (List.mem_append_right _ there)) after
  exact traded.priced.kept gained.priced

section

open Sample

/-- The chain on which `founded` is set up, with doubles that are not rounded. -/
noncomputable def unrounded : State ℝ where
  voters := ∅
  producers := ∅
  producers2 := ∅
  gstate := ⟨parameters, 64 * 1024 ^ 3, 0, 0, 0, 0, 0, 0, 0, 0, 0, 0, 0, 0, 0, 0, 0⟩
  gstate2 := ⟨0, 0, 0, 0, 0⟩
  gstate3 := ⟨0, 0⟩
  rammarket := none
  userres := ∅
  delband := ∅
  refunds := ∅
  namebids := ∅
  bidrefunds := ∅
  accounts := users
  token := ledger

theorem unrounded_fresh : Fresh unrounded :=
  ⟨⟨rfl, rfl, Table.All.empty _, Table.All.empty _⟩,
    ⟨ledger_conserved, rfl, rfl, Table.All.empty _, Table.All.empty _⟩,
    ⟨rfl, Table.All.empty _, rfl, rfl⟩, rfl, rfl⟩

/-- `unrounded` after `init`. -/
noncomputable def market : State ℝ :=
  { unrounded with rammarket := some {
      supply := ⟨100000000000000, RAMCORE_SYMBOL⟩
      base := ⟨⟨i64 unrounded.gstate.freeRam, RAM_SYMBOL⟩, Doubles.exact.literal 5 1⟩
      quote := ⟨eos 10000000000, Doubles.exact.literal 5 1⟩ } }

theorem eos_issued : ledger.stats.lookup EOS.code =
    some ⟨eos 10000000000000, eos 100000000000000, eosio⟩ := by
  decide +kernel

theorem market_opened : init ⟨eosio, [eosio], 0, .exact⟩ unrounded 0 EOS = .ok market := by
  simp only [init, State.getSupply, bind_eq_ok, Ctx.requireAuth_eq_ok, require_eq_ok, find_eq_ok,
    exists_const, pure_eq_ok]
  exact ⟨List.mem_singleton_self _, trivial, rfl, eos 10000000000000, ⟨_, eos_issued, rfl⟩, rfl,
    by decide, rfl⟩

theorem trading_keeps :
    let reached := run (Blockchain.step eosio .exact) ⟨market, ⟨parameters, unlimited, ∅, []⟩⟩
      [signed dick 106 (.buyram dick nick (eos 1000)), signed nick 107 (.sellram nick 2000),
        signed eosio 108 (.setramrate 16)]
    Kept reached.toState (run (Blockchain.step eosio .exact) reached
      [signed rick 200 (.buyrambytes rick rick 600), signed eosio 201 (.setram (65 * 1024 ^ 3)),
        signed rick 202 (.sellram rick 600)]).toState :=
  market_keeps eosio ⟨market, ⟨parameters, unlimited, ∅, []⟩⟩ (by decide) (by decide) rfl unrounded
    unrounded_fresh ⟨by decide, ⟨by decide, by decide, by decide⟩, by decide +kernel⟩ 0 rfl
    market_opened (by decide) (by decide) _ _ (by decide +kernel) (by decide +kernel)

end

end DecentralBank.System
