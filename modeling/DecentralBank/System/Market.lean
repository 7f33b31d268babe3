import DecentralBank.System.Tables

/-!
# The RAM market

`exchange_state.cpp`, the RAM half of `delegate_bandwidth.cpp` and the actions
of `eosio.system.cpp` that set up the market and its supply. Limits on
resources, which the chain keeps, are in `Blockchain`.
-/

namespace DecentralBank.System

open Checked

variable {D : Type} (c : Ctx D)

/-! ## The exchange -/

inductive Side
  | base
  | quote
  deriving DecidableEq

def ExchangeState.connector (m : ExchangeState D) : Side → Connector D
  | .base => m.base
  | .quote => m.quote

/-- The market with other balances of a connector and in all. -/
def ExchangeState.rebalance (m : ExchangeState D) (side : Side) (supply balance : Int) :
    ExchangeState D :=
  let m := { m with supply := ⟨supply, m.supply.symbol⟩ }
  match side with
  | .base => { m with base := { m.base with balance := ⟨balance, m.base.balance.symbol⟩ } }
  | .quote => { m with quote := { m.quote with balance := ⟨balance, m.quote.balance.symbol⟩ } }

def convertToExchange (m : ExchangeState D) (side : Side) (input : Asset) :
    Checked (Asset × ExchangeState D) := do
  let fp := c.fp
  let k := m.connector side
  let one := fp.ofInt 1
  let total := fp.ofInt (i64 (k.balance.amount + input.amount))
  let growth := fp.pow (fp.add one (fp.div (fp.ofInt input.amount) total)) k.weight
  let issued := fp.toI64 (fp.mul (fp.neg (fp.ofInt m.supply.amount)) (fp.sub one growth))
  let output ← Asset.make issued m.supply.symbol
  pure (output,
    m.rebalance side (i64 (m.supply.amount + issued)) (i64 (k.balance.amount + input.amount)))

def convertFromExchange (m : ExchangeState D) (side : Side) (input : Asset) :
    Checked (Asset × ExchangeState D) := do
  require (input.symbol = m.supply.symbol) "unexpected asset symbol input"
  let fp := c.fp
  let k := m.connector side
  let one := fp.ofInt 1
  let rest := fp.ofInt (i64 (m.supply.amount - input.amount))
  let growth := fp.pow (fp.add one (fp.div (fp.ofInt input.amount) rest)) (fp.div one k.weight)
  let out := fp.toI64 (fp.mul (fp.ofInt k.balance.amount) (fp.sub growth one))
  let output ← Asset.make out k.balance.symbol
  pure (output,
    m.rebalance side (i64 (m.supply.amount - input.amount)) (i64 (k.balance.amount - out)))

/-- One turn of `convert`. -/
def convertOnce (m : ExchangeState D) (input : Asset) (target : Symbol) :
    Checked (Asset × ExchangeState D) :=
  if input.symbol ≠ m.supply.symbol then
    if input.symbol = m.base.balance.symbol then convertToExchange c m .base input
    else if input.symbol = m.quote.balance.symbol then convertToExchange c m .quote input
    else .error "invalid sell"
  else
    if target = m.base.balance.symbol then convertFromExchange c m .base input
    else if target = m.quote.balance.symbol then convertFromExchange c m .quote input
    else .error "invalid conversion"

/-- The recursion ends with the second turn, which has the symbol of the exchange to sell. -/
def convert (m : ExchangeState D) (input : Asset) (target : Symbol) :
    Checked (Asset × ExchangeState D) := do
  let (output, m) ← convertOnce c m input target
  if target ≠ output.symbol then convertOnce c m output target else pure (output, m)

/-! ## Trade -/

def State.market (s : State D) (message : String) : Checked (ExchangeState D) :=
  match s.rammarket with
  | some market => pure market
  | none => .error message

def updateRamSupply (s : State D) : Checked (State D) :=
  if c.slot ≤ s.gstate2.lastRamIncrease then pure s
  else do
    let newRam := u32 (u32 ((c.slot : Int) - s.gstate2.lastRamIncrease) * s.gstate2.newRamPerBlock)
    let m ← s.market "cannot pass end iterator to modify"
    let amount := i64 (m.base.balance.amount + newRam)
    pure { s with
      gstate := { s.gstate with maxRamSize := u64 ((s.gstate.maxRamSize : Int) + newRam) }
      gstate2 := { s.gstate2 with lastRamIncrease := c.slot }
      rammarket := some { m with
        base := { m.base with balance := ⟨amount, m.base.balance.symbol⟩ } } }

/-- `.5%`, rounded up. -/
def ramFee (amount : Int) : Int := (i64 (amount + 199)).tdiv 200

/-- The RAM of `receiver` grows. -/
def grantRam (userres : Table Name UserResources) (core : Symbol) (receiver : Name) (bytes : Int) :
    Checked (Table Name UserResources) :=
  match userres.lookup receiver with
  | none => do
    let none ← Asset.make 0 core
    pure (userres.insert receiver ⟨none, none, bytes⟩)
  | some row => pure (userres.insert receiver { row with ramBytes := i64 (row.ramBytes + bytes) })

def buyram (s : State D) (payer receiver : Name) (quant : Asset) : Checked (State D) := do
  c.requireAuth payer
  let s ← updateRamSupply c s
  let core ← s.coreSymbol
  require (quant.symbol = core) "must buy ram with core token"
  require (0 < quant.amount) "must purchase a positive amount"
  let fee := ramFee quant.amount
  let rest : Asset := ⟨i64 (quant.amount - fee), quant.symbol⟩
  let s ← s.pay payer RAM_ACCOUNT rest "buy ram"
  let s ← (if 0 < fee then s.pay payer RAMFEE_ACCOUNT ⟨fee, quant.symbol⟩ "ram fee" else pure s)
  let m ← s.market "ram market does not exist"
  let (bytesOut, m) ← convert c m rest RAM_SYMBOL
  require (0 < bytesOut.amount) "must reserve a positive amount"
  let userres ← grantRam s.userres core receiver bytesOut.amount
  pure { s with
    rammarket := some m
    userres
    gstate := { s.gstate with
      totalRamBytesReserved := u64 ((s.gstate.totalRamBytesReserved : Int) + bytesOut.amount)
      totalRamStake := i64 (s.gstate.totalRamStake + rest.amount) } }

def buyrambytes (s : State D) (payer receiver : Name) (bytes : Nat) : Checked (State D) := do
  let m ← s.market "cannot dereference end iterator"
  let core ← s.coreSymbol
  let input ← Asset.make bytes RAM_SYMBOL
  -- A copy of the market is converted; the market is left as it is.
  let (eosout, _) ← convert c m input core
  buyram c s payer receiver eosout

def sellram (s : State D) (account : Name) (bytes : Int) : Checked (State D) := do
  c.requireAuth account
  let s ← updateRamSupply c s
  require (0 < bytes) "cannot sell negative byte"
  let row ← find s.userres account "no resource row"
  require (bytes ≤ row.ramBytes) "insufficient quota"
  let m ← s.market "cannot pass end iterator to modify"
  let core ← s.coreSymbol
  let input ← Asset.make bytes RAM_SYMBOL
  let (tokensOut, m) ← convert c m input core
  require (1 < tokensOut.amount) "token amount received from selling ram is too low"
  let stake := i64 (s.gstate.totalRamStake - tokensOut.amount)
  require (0 ≤ stake) "error, attempt to unstake more tokens than previously staked"
  let s : State D := { s with
    rammarket := some m
    userres := s.userres.insert account { row with ramBytes := i64 (row.ramBytes - bytes) }
    gstate := { s.gstate with
      totalRamBytesReserved := u64 ((s.gstate.totalRamBytesReserved : Int) - bytes)
      totalRamStake := stake } }
  let s ← s.pay RAM_ACCOUNT account tokensOut "sell ram"
  let fee := ramFee tokensOut.amount
  if 0 < fee then do
    let fee ← Asset.make fee core
    s.pay account RAMFEE_ACCOUNT fee "sell ram fee"
  else pure s

/-! ## Set-up -/

def setram (s : State D) (maxRamSize : Nat) : Checked (State D) := do
  c.requireAuth c.self
  require (s.gstate.maxRamSize < maxRamSize) "ram may only be increased"
  require (maxRamSize < 1024 * 1024 * 1024 * 1024 * 1024) "ram size is unrealistic"
  require (s.gstate.totalRamBytesReserved < maxRamSize) "attempt to set max below reserved"
  let delta := i64 (i64 maxRamSize - i64 s.gstate.maxRamSize)
  let m ← s.market "cannot pass end iterator to modify"
  let amount := i64 (m.base.balance.amount + delta)
  pure { s with
    gstate := { s.gstate with maxRamSize }
    rammarket := some { m with
      base := { m.base with balance := ⟨amount, m.base.balance.symbol⟩ } } }

def setramrate (s : State D) (bytesPerBlock : Nat) : Checked (State D) := do
  c.requireAuth c.self
  let s ← updateRamSupply c s
  pure { s with gstate2 := { s.gstate2 with newRamPerBlock := bytesPerBlock } }

/-- `eosio::token::get_supply`. -/
def State.getSupply (s : State D) (code : SymbolCode) : Checked Asset := do
  let st ← find s.token.stats code "unable to find key"
  pure st.supply

def init (s : State D) (version : Nat) (core : Symbol) : Checked (State D) := do
  c.requireAuth c.self
  require (version = 0) "unsupported version for init action"
  require s.rammarket.isNone "system contract has already been initialized"
  let supply ← s.getSupply core.code
  require (supply.symbol = core) "specified core symbol does not exist (precision mismatch)"
  require (0 < supply.amount) "system token supply must be greater than 0"
  let weight := c.fp.literal 5 1
  pure { s with rammarket := some {
    supply := ⟨100000000000000, RAMCORE_SYMBOL⟩
    base := ⟨⟨i64 s.gstate.freeRam, RAM_SYMBOL⟩, weight⟩
    quote := ⟨⟨supply.amount.tdiv 1000, core⟩, weight⟩ } }

end DecentralBank.System
