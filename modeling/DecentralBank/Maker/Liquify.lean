import DecentralBank.Maker.Tables

/-!
# Liquidation auctions

`liquify` of `daiqcontract.cpp`. The references `it` and `bt` of the source
denote eosiolib's cached rows, which every `modify` changes in place: a read
after a `modify` sees the new value. Here the rows are passed along and written
back when the action ends.
-/

namespace DecentralBank.Maker

/-- `liq` in the opening test. -/
def liquifyRatio (fc : Feed) (it : Cdp) : Checked Nat := do
  let perDebt ← divI64 (i64 (fc.price.amount * 100)) it.stablecoin.amount
  let liq ← divI64 (i64 (perDebt * it.collateral.amount)) 10000
  pure (u64 liq)

/-- The debt with the penalty; the sum is not range-checked. -/
def penalised (st : Stat) (debt : Int) : Int :=
  i64 (debt + u64 (u64 debt * st.penaltyRatio) / 100)

/-- A live CDP below its ratio goes into liquidation; one that is not live is in it. -/
def openAuction (c : Ctx) (s : State) (st : Stat) (it : Cdp) : Checked Cdp :=
  if it.live then do
    Checked.require (0 < it.stablecoin.amount) "can't liquify this cdp"
    let fc ← Checked.find s.feeds it.collateral.symbol.code "no price data"
    Checked.require (c.freshSince ≤ fc.stamp ∨ st.live = false)
      "collateral price feed data too stale"
    let liq ← liquifyRatio fc it
    Checked.require (liq < st.liquid8Ratio) "must exceed liquidation ratio"
    pure { it with
      live := false
      stablecoin := ⟨penalised st it.stablecoin.amount, it.stablecoin.symbol⟩ }
  else pure it

/-- Neither the bid nor the round has run out. -/
def roundOpen (c : Ctx) (st : Stat) (bt : Bid) : Bool :=
  decide (c.since bt.lastbid < st.ttl ∧ c.since bt.started < st.tau)

/-- The tables and rows that an auction step changes. -/
structure Lot where
  accounts : Accounts
  stat : Stat
  feeds : Table SymbolCode Feed
  it : Cdp
  bt : Bid

/-- The contract that collateral sold at auction is credited under. -/
def collateralContract (c : Ctx) (st : Stat) (collateral : Asset) : Name :=
  if collateral.symbol = IQ_SYMBOL then IQ_NAME
  else if collateral.symbol = st.totalCollateral.quantity.symbol then st.totalCollateral.contract
  else c.self

def firstBid (c : Ctx) (s : State) (st : Stat) (it : Cdp) (bidder : Name) (bidamt : Asset) :
    Checked Lot := do
  Checked.require (bidamt.symbol = it.stablecoin.symbol) "bid is of wrong symbol"
  let (accounts, _) ← subBalance s.accounts bidder bidamt
  let stablecoin ← it.stablecoin.sub bidamt
  pure ⟨accounts, st, s.feeds, { it with stablecoin }, ⟨bidder, bidamt, c.now, c.now⟩⟩

/-- `min` for a bid on top of `standing`. -/
def minRaise (st : Stat) (standing : Int) : Nat :=
  u64 (u64 standing + u64 (u64 standing * st.beg) / 100)

def outbid (c : Ctx) (s : State) (st : Stat) (it : Cdp) (bt : Bid) (bidder : Name)
    (bidamt : Asset) : Checked Lot := do
  Checked.require (bidamt.symbol = it.stablecoin.symbol) "bid is of wrong symbol"
  Checked.require (minRaise st bt.bidamt.amount ≤ u64 bidamt.amount) "bid too small"
  let contract := if it.stablecoin.symbol = IQ_SYMBOL then IQ_NAME else c.self
  let (debited, _) ← subBalance s.accounts bidder bidamt
  let accounts ← addBalance debited bt.bidder bt.bidamt contract
  let difference ← bidamt.sub bt.bidamt
  let stablecoin ← it.stablecoin.sub difference
  pure ⟨accounts, st, s.feeds, { it with stablecoin }, { bt with bidder, bidamt, lastbid := c.now }⟩

/-- The type's collateral total when `collateral` leaves a CDP. -/
def lessCollateral (st : Stat) (collateral : Asset) : Checked Asset :=
  if collateral.symbol ≠ IQ_SYMBOL ∧ st.totalCollateral.quantity.symbol = collateral.symbol
  then st.totalCollateral.quantity.sub collateral
  else pure st.totalCollateral.quantity

/-- What the winner of an expired round gets. The collateral is taken out of
the CDP first, so `it.collateral` is zero in all that follows. -/
def awardCollateral (c : Ctx) (s : State) (st : Stat) (it : Cdp) (bt : Bid) : Checked Lot :=
  if it.collateral.amount = 0 then pure ⟨s.accounts, st, s.feeds, it, bt⟩
  else do
    let collateral ← it.collateral.sub it.collateral
    let fc ← Checked.find s.feeds collateral.symbol.code "feed doesn't exist"
    let total ← fc.total.add collateral
    let quantity ← lessCollateral st collateral
    let accounts ← addBalance s.accounts bt.bidder collateral (collateralContract c st collateral)
    pure ⟨accounts, { st with totalCollateral := { st.totalCollateral with quantity } },
      s.feeds.insert collateral.symbol.code { fc with total }, { it with collateral }, bt⟩

/-- The collateral and the debt of the next round, for the remainder left by
the last one at the price of IQ. -/
def convertRemainder (it : Cdp) (price : Asset) : Checked Cdp :=
  if 0 < it.stablecoin.amount then
    if it.stablecoin.symbol = IQ_SYMBOL then do
      let collateral ← Asset.make (i64 (it.stablecoin.amount * price.amount)) price.symbol
      pure { it with collateral }
    else do
      let worth ← divI64 (i64 (it.stablecoin.amount * 1000)) price.amount
      let collateral ← Asset.make worth IQ_SYMBOL
      pure { it with collateral }
  else
    if it.stablecoin.symbol = IQ_SYMBOL then do
      let stablecoin ← Asset.make (i64 (-i64 (it.stablecoin.amount * price.amount))) price.symbol
      pure { it with collateral := it.stablecoin.neg, stablecoin }
    else do
      let worth ← divI64 (i64 (it.stablecoin.amount * 1000)) price.amount
      let stablecoin ← Asset.make (i64 (-worth)) IQ_SYMBOL
      pure { it with collateral := it.stablecoin.neg, stablecoin }

/-- Offer the remainder of an expired round, if any, with `bidamt` as the first bid on it. -/
def offerRemainder (c : Ctx) (lot : Lot) (bidder : Name) (bidamt : Asset) : Checked Lot :=
  if lot.it.stablecoin.amount = 0 then pure lot
  else do
    let fv ← Checked.find lot.feeds IQ_SYMBOL.code "no price data"
    Checked.require (c.freshSince ≤ fv.stamp) "iq price feed data too stale"
    let it ← convertRemainder lot.it fv.price
    Checked.require (bidamt.symbol = it.stablecoin.symbol) "bid is of wrong symbol"
    let (accounts, _) ← subBalance lot.accounts bidder bidamt
    let fs ← Checked.find lot.feeds bidamt.symbol.code "no price data"
    let total ← fs.total.sub bidamt
    let stablecoin ← it.stablecoin.sub bidamt
    pure ⟨accounts, lot.stat, lot.feeds.insert bidamt.symbol.code { fs with total },
      { it with stablecoin }, ⟨bidder, bidamt, c.now, c.now⟩⟩

def rollover (c : Ctx) (s : State) (st : Stat) (it : Cdp) (bt : Bid) (bidder : Name)
    (bidamt : Asset) : Checked Lot := do
  let lot ← awardCollateral c s st it bt
  offerRemainder c lot bidder bidamt

/-- A bid on a standing one. -/
def nextBid (c : Ctx) (s : State) (st : Stat) (it : Cdp) (bt : Bid) (bidder : Name)
    (bidamt : Asset) : Checked Lot :=
  if roundOpen c st bt then outbid c s st it bt bidder bidamt
  else rollover c s st it bt bidder bidamt

/-- What the last bidder of a closed auction gets. -/
def settleLot (c : Ctx) (lot : Lot) : Checked (Accounts × Table SymbolCode Feed) :=
  if lot.it.collateral.amount = 0 then pure (lot.accounts, lot.feeds)
  else do
    let accounts ← addBalance lot.accounts lot.bt.bidder lot.it.collateral
      (collateralContract c lot.stat lot.it.collateral)
    let fc ← Checked.find lot.feeds lot.it.collateral.symbol.code "feed doesn't exist"
    let total ← fc.total.add lot.it.collateral
    pure (accounts, lot.feeds.insert lot.it.collateral.symbol.code { fc with total })

/-- Write an auction step back: an auction with nothing left to pay is closed. -/
def finish (c : Ctx) (s : State) (owner : Name) (symbl : SymbolCode) (lot : Lot) :
    Checked State :=
  if lot.it.stablecoin.amount = 0 then do
    let (accounts, feeds) ← settleLot c lot
    pure { s with
      accounts, feeds
      stats := s.stats.insert (c.self, symbl) lot.stat
      cdps := s.cdps.erase (symbl, owner)
      bids := s.bids.erase (symbl, owner) }
  else pure { s with
    accounts := lot.accounts, feeds := lot.feeds
    stats := s.stats.insert (c.self, symbl) lot.stat
    cdps := s.cdps.insert (symbl, owner) lot.it
    bids := s.bids.insert (symbl, owner) lot.bt }

def liquify (c : Ctx) (s : State) (bidder owner : Name) (symbl : SymbolCode) (bidamt : Asset) :
    Checked State := do
  c.requireAuth bidder
  Checked.require symbl.isValid "invalid cdp type symbol name"
  Checked.require (bidamt.isValid ∧ 0 < bidamt.amount) "bid is invalid"
  let st ← Checked.find s.stats (c.self, symbl) "cdp type doesn't exist"
  let row ← Checked.find s.cdps (symbl, owner) "this cdp doesn't exist"
  let it ← openAuction c s st row
  match s.bids.lookup (symbl, owner) with
  | none =>
    let lot ← firstBid c s st it bidder bidamt
    -- bt is still the end iterator that find returned, which erase refuses
    Checked.require (lot.it.stablecoin.amount ≠ 0) "cannot pass end iterator to erase"
    finish c s owner symbl lot
  | some bt =>
    let lot ← nextBid c s st it bt bidder bidamt
    finish c s owner symbl lot

end DecentralBank.Maker
