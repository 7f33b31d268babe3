import DecentralBank.Maker.Tables

/-!
# Actions on a CDP by its owner

`daiqcontract.cpp` from `open` to `settle`. Each action computes every new row
before it writes any: an aborted action changes nothing.
-/

namespace DecentralBank.Maker

def openCdp (c : Ctx) (s : State) (owner : Name) (symbl : SymbolCode) (ramPayer : Name) :
    Checked State := do
  c.requireAuth ramPayer
  Checked.require symbl.isValid "invalid symbol name"
  let st ← Checked.find s.stats (c.self, symbl) "cdp type doesnt exst"
  Checked.require st.live "cdp type not yet live, or in global settlement"
  let fc ← Checked.find s.feeds st.totalCollateral.quantity.symbol.code
    "collateral feed doesn't exist"
  Checked.require (c.freshSince ≤ fc.stamp) "collateral price feed data too stale"
  Checked.require (s.cdps.lookup (symbl, owner)).isNone
    "cdp of this type already exists for owner"
  let collateral ← Asset.make 0 st.totalCollateral.quantity.symbol
  let stablecoin ← Asset.make 0 st.totalStablecoin.symbol
  pure { s with cdps := s.cdps.insert (symbl, owner) ⟨c.now, collateral, stablecoin, true⟩ }

/-- `amt` in `bail`. -/
def bailRatio (st : Stat) (fc : Feed) (it : Cdp) (quantity : Asset) : Checked Nat :=
  if it.stablecoin.amount = 0 then pure st.liquid8Ratio
  else do
    let perDebt ← divI64 (i64 (fc.price.amount * 100)) it.stablecoin.amount
    let amt ← divI64 (i64 (perDebt * i64 (it.collateral.amount - quantity.amount))) 10000
    pure (u64 amt)

def bail (c : Ctx) (s : State) (owner : Name) (symbl : SymbolCode) (quantity : Asset) :
    Checked State := do
  c.requireAuth owner
  Checked.require quantity.isValid "invalid quantity"
  Checked.require symbl.isValid "invalid symbol name"
  Checked.require (0 < quantity.amount) "must use positive quantity"
  let st ← Checked.find s.stats (c.self, symbl) "cdp type doesn't exist"
  Checked.require (quantity.symbol = st.totalCollateral.quantity.symbol)
    "(cdp type, collateral symbol) mismatch"
  let it ← Checked.find s.cdps (symbl, owner) "(cdp type, owner) mismatch"
  Checked.require it.live "cdp is in liquidation"
  let more ← it.collateral.gt quantity
  Checked.require more "can't free this much collateral, try shut?"
  let fc ← Checked.find s.feeds quantity.symbol.code "feed doesn't exist"
  Checked.require (c.freshSince ≤ fc.stamp ∨ st.live = false)
    "collateral price feed data too stale"
  let amt ← bailRatio st fc it quantity
  Checked.require (st.liquid8Ratio ≤ amt) "can't go below liquidation ratio"
  let accounts ← addBalance s.accounts owner quantity st.totalCollateral.contract
  let collateral ← it.collateral.sub quantity
  let locked ← st.totalCollateral.quantity.sub quantity
  let total ← fc.total.add quantity
  pure { s with
    accounts
    cdps := s.cdps.insert (symbl, owner) { it with collateral }
    stats := s.stats.insert (c.self, symbl)
      { st with totalCollateral := { st.totalCollateral with quantity := locked } }
    feeds := s.feeds.insert quantity.symbol.code { fc with total } }

/-- `liq` in `draw`, for the debt `amt` after it. -/
def drawRatio (fc : Feed) (it : Cdp) (amt : Nat) : Checked Nat := do
  let perDebt ← divU64 (u64 (fc.price.amount * 100)) amt
  pure (u64 (perDebt * u64 it.collateral.amount) / 10000)

def draw (c : Ctx) (s : State) (owner : Name) (symbl : SymbolCode) (quantity : Asset) :
    Checked State := do
  c.requireAuth owner
  Checked.require quantity.isValid "invalid quantity"
  Checked.require symbl.isValid "invalid symbol name"
  Checked.require (0 < quantity.amount) "must use positive quantity"
  let st ← Checked.find s.stats (c.self, symbl) "cdp type doesn't exist"
  Checked.require (quantity.symbol = st.totalStablecoin.symbol)
    "(cdp type, stablecoin symbol) mismatch"
  Checked.require st.live "cdp type not yet live, or in global settlement"
  let it ← Checked.find s.cdps (symbl, owner) "(cdp type, owner) mismatch"
  Checked.require it.live "cdp is in liquidation"
  let amt := u64 (it.stablecoin.amount + quantity.amount)
  let gmt := u64 (st.totalStablecoin.amount + quantity.amount)
  Checked.require (amt ≤ st.debtCeiling) "can't reach the debt ceiling"
  Checked.require (gmt ≤ st.globalCeil) "can't reac the global debt ceiling"
  let fc ← Checked.find s.feeds it.collateral.symbol.code "feed doesn't exist"
  Checked.require (c.freshSince ≤ fc.stamp) "collateral price feed data too stale"
  let liq ← drawRatio fc it amt
  Checked.require (st.liquid8Ratio ≤ liq) "can't go below liquidation ratio"
  let fs ← Checked.find s.feeds quantity.symbol.code "feed doesn't exist"
  let accounts ← addBalance s.accounts owner quantity c.self
  let stablecoin ← it.stablecoin.add quantity
  let totalStablecoin ← st.totalStablecoin.add quantity
  let total ← fs.total.add quantity
  pure { s with
    accounts
    cdps := s.cdps.insert (symbl, owner) { it with stablecoin }
    stats := s.stats.insert (c.self, symbl) { st with totalStablecoin }
    feeds := s.feeds.insert quantity.symbol.code { fs with total } }

/-- `apr` in `wipe`, for a CDP `age` seconds old. -/
def stabilityFee (st : Stat) (age : Nat) (quantity price : Asset) : Checked Nat := do
  let worth ← divI64 (i64 (quantity.amount * 100)) price.amount
  let accrued := u64 (u64 (1000000 * st.stabilityFee) * age) / SECYR
  pure (u64 (accrued * u64 worth) / 100000)

def wipe (c : Ctx) (s : State) (owner : Name) (symbl : SymbolCode) (quantity : Asset) :
    Checked State := do
  c.requireAuth owner
  Checked.require symbl.isValid "invalid symbol name"
  Checked.require quantity.isValid "invalid quantity"
  Checked.require (0 < quantity.amount) "must use positive quantity"
  let st ← Checked.find s.stats (c.self, symbl) "cdp type does not exist"
  Checked.require (quantity.symbol = st.totalStablecoin.symbol) "(cdp type, symbol) mismatch"
  let it ← Checked.find s.cdps (symbl, owner) "(cdp type, owner) mismatch"
  Checked.require it.live "cdp in liquidation"
  let more ← it.stablecoin.gt quantity
  Checked.require more "can't wipe this much, try shut?"
  let fv ← Checked.find s.feeds IQ_SYMBOL.code "no price data"
  let apr ← stabilityFee st (c.since it.created) quantity fv.price
  let fee ← Asset.make (i64 apr) IQ_SYMBOL
  let (feePaid, _) ← subBalance s.accounts owner fee
  let (accounts, _) ← subBalance feePaid owner quantity
  let feeBalance ← st.feeBalance.add fee
  let totalStablecoin ← st.totalStablecoin.sub quantity
  let stablecoin ← it.stablecoin.sub quantity
  let fs ← Checked.find s.feeds quantity.symbol.code "no price data"
  let total ← fs.total.sub quantity
  pure { s with
    accounts
    cdps := s.cdps.insert (symbl, owner) { it with stablecoin }
    stats := s.stats.insert (c.self, symbl) { st with feeBalance, totalStablecoin }
    feeds := s.feeds.insert quantity.symbol.code { fs with total } }

def lock (c : Ctx) (s : State) (owner : Name) (symbl : SymbolCode) (quantity : Asset) :
    Checked State := do
  c.requireAuth owner
  Checked.require quantity.isValid "invalid quantity"
  Checked.require symbl.isValid "invalid symbol name"
  Checked.require (0 < quantity.amount) "must use positive quantity"
  let st ← Checked.find s.stats (c.self, symbl) "cdp type doesn't exist"
  Checked.require st.live "cdp type not yet live, or in global settlement"
  Checked.require (st.totalCollateral.quantity.symbol = quantity.symbol)
    "(cdp type, collateral symbol) mismatch"
  let it ← Checked.find s.cdps (symbl, owner) "this cdp doesn't exist"
  Checked.require it.live "cdp in liquidation"
  let (accounts, contract) ← subBalance s.accounts owner quantity
  Checked.require (st.totalCollateral.contract = contract) "no using tokens from fake contracts"
  let locked ← st.totalCollateral.quantity.add quantity
  let collateral ← it.collateral.add quantity
  let fc ← Checked.find s.feeds quantity.symbol.code "no price data"
  let total ← fc.total.sub quantity
  pure { s with
    accounts
    cdps := s.cdps.insert (symbl, owner) { it with collateral }
    stats := s.stats.insert (c.self, symbl)
      { st with totalCollateral := { st.totalCollateral with quantity := locked } }
    feeds := s.feeds.insert quantity.symbol.code { fc with total } }

/-- The debt `shut` collects: the accounts and the type's stablecoin total after it. -/
def shutDebt (accounts : Accounts) (owner : Name) (st : Stat) (it : Cdp) :
    Checked (Accounts × Asset) :=
  if 0 < it.stablecoin.amount then do
    let (accounts, _) ← subBalance accounts owner it.stablecoin
    let newTotalStabl ← st.totalStablecoin.sub it.stablecoin
    pure (accounts, newTotalStabl)
  else pure (accounts, st.totalStablecoin)

/-- The collateral `shut` hands back, which it adds to the type's total. -/
def shutCollateral (accounts : Accounts) (owner : Name) (st : Stat) (it : Cdp) :
    Checked (Accounts × Asset) :=
  if 0 < it.collateral.amount then do
    let accounts ← addBalance accounts owner it.collateral st.totalCollateral.contract
    let newTotalClatrl ← st.totalCollateral.quantity.add it.collateral
    pure (accounts, newTotalClatrl)
  else pure (accounts, st.totalCollateral.quantity)

def shut (c : Ctx) (s : State) (owner : Name) (symbl : SymbolCode) : Checked State := do
  c.requireAuth owner
  Checked.require symbl.isValid "invalid symbol name"
  let st ← Checked.find s.stats (c.self, symbl) "cdp type doesn't exist"
  let it ← Checked.find s.cdps (symbl, owner) "this cdp doesn't exist"
  Checked.require it.live "cdp in liquidation"
  let (paid, newTotalStabl) ← shutDebt s.accounts owner st it
  let (accounts, newTotalClatrl) ← shutCollateral paid owner st it
  pure { s with
    accounts
    stats := s.stats.insert (c.self, symbl)
      { st with
        totalStablecoin := newTotalStabl
        totalCollateral := { st.totalCollateral with quantity := newTotalClatrl } }
    cdps := s.cdps.erase (symbl, owner) }

/-- `liq` in `settle`. -/
def settleRatio (st : Stat) (fc : Feed) : Checked Nat := do
  let liq ← divI64 (i64 (i64 (fc.price.amount * 100) * st.totalCollateral.quantity.amount))
    (i64 (st.totalStablecoin.amount * 10000))
  pure (u64 liq)

def settle (c : Ctx) (s : State) (feeder : Name) (symbl : SymbolCode) : Checked State := do
  c.requireAuth feeder
  Checked.require symbl.isValid "invalid symbol name"
  let st ← Checked.find s.stats (c.self, symbl) "cdp type doesn't exist"
  Checked.require (0 < st.totalStablecoin.amount ∧ st.live = true)
    "cdp type already settled, or has 0 debt"
  Checked.require (st.feeder = feeder) "only feeder can trigger global settlement"
  let fc ← Checked.find s.feeds st.totalCollateral.quantity.symbol.code "no price data"
  let liq ← settleRatio st fc
  Checked.require (liq ≤ st.liquid8Ratio) "no liquidation hazard for settlement"
  pure { s with stats := s.stats.insert (c.self, symbl) { st with live := false } }

end DecentralBank.Maker
