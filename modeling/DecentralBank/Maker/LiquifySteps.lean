import DecentralBank.Maker.Liquify

/-! # What a step of an auction does -/

namespace DecentralBank.Maker

variable {c : Ctx} {s s' : State} {st : Stat} {it : Cdp} {bt : Bid} {bidder owner : Name}
  {symbl : SymbolCode} {bidamt : Asset} {lot : Lot}

/-- A CDP is in liquidation already or is put there with the penalty. -/
theorem openAuction_ok {row : Cdp} (h : openAuction c s st row = .ok it) :
    (row.live = false ∧ it = row) ∨
      ∃ fc liq, row.live = true ∧ 0 < row.stablecoin.amount ∧
        s.feeds.lookup row.collateral.symbol.code = some fc ∧
        liquifyRatio fc row = .ok liq ∧ liq < st.liquid8Ratio ∧
        it = { row with
          live := false
          stablecoin := ⟨penalised st row.stablecoin.amount, row.stablecoin.symbol⟩ } := by
  simp only [openAuction, Checked.ite_eq_ok, Checked.bind_eq_ok, Checked.require_eq_ok,
    Checked.find_eq_ok, Checked.pure_eq_ok, exists_const, Bool.not_eq_true] at h
  rcases h with ⟨live, debt, fc, feed, -, liq, ratio, below, rfl⟩ | ⟨dead, rfl⟩
  · exact Or.inr ⟨fc, liq, live, debt, feed, ratio, below, rfl⟩
  · exact Or.inl ⟨dead, rfl⟩

theorem firstBid_ok (h : firstBid c s st it bidder bidamt = .ok lot) :
    ∃ accounts code, bidamt.symbol = it.stablecoin.symbol ∧
      subBalance s.accounts bidder bidamt = .ok (accounts, code) ∧
      lot = ⟨accounts, st, s.feeds,
        { it with stablecoin := ⟨it.stablecoin.amount - bidamt.amount, it.stablecoin.symbol⟩ },
        ⟨bidder, bidamt, c.now, c.now⟩⟩ := by
  simp only [firstBid, Checked.bind_eq_ok, Checked.require_eq_ok, Asset.sub_eq_ok,
    Checked.pure_eq_ok, exists_const, Prod.exists] at h
  obtain ⟨symbol, accounts, code, paid, _, ⟨-, -, -, rfl⟩, rfl⟩ := h
  exact ⟨accounts, code, symbol, paid, rfl⟩

/-- The tag under which a displaced bid is given back. -/
def refundContract (c : Ctx) (it : Cdp) : Name :=
  if it.stablecoin.symbol = IQ_SYMBOL then IQ_NAME else c.self

theorem outbid_ok (h : outbid c s st it bt bidder bidamt = .ok lot) :
    ∃ debited code accounts, bidamt.symbol = it.stablecoin.symbol ∧
      bt.bidamt.symbol = bidamt.symbol ∧ minRaise st bt.bidamt.amount ≤ u64 bidamt.amount ∧
      subBalance s.accounts bidder bidamt = .ok (debited, code) ∧
      Moved debited [credit bt.bidder bt.bidamt (refundContract c it)] accounts ∧
      lot = ⟨accounts, st, s.feeds,
        { it with stablecoin :=
          ⟨it.stablecoin.amount - (bidamt.amount - bt.bidamt.amount), it.stablecoin.symbol⟩ },
        { bt with bidder, bidamt, lastbid := c.now }⟩ := by
  simp only [outbid, Checked.bind_eq_ok, Checked.require_eq_ok, Asset.sub_eq_ok,
    Checked.pure_eq_ok, exists_const, Prod.exists] at h
  obtain ⟨symbol, raised, debited, code, paid, accounts, refunded, _, ⟨same, -, -, rfl⟩, _,
    ⟨-, -, -, rfl⟩, rfl⟩ := h
  exact ⟨debited, code, accounts, symbol, same, raised, paid, addBalance_moved refunded, rfl⟩

/-- Collateral that an expired round leaves behind goes to nobody: the winner
is credited zero. -/
theorem awardCollateral_ok (h : awardCollateral c s st it bt = .ok lot) :
    (it.collateral.amount = 0 ∧ lot = ⟨s.accounts, st, s.feeds, it, bt⟩) ∨
      ∃ fc accounts, it.collateral.amount ≠ 0 ∧
        s.feeds.lookup it.collateral.symbol.code = some fc ∧
        Moved s.accounts [credit bt.bidder ⟨0, it.collateral.symbol⟩
          (collateralContract c st ⟨0, it.collateral.symbol⟩)] accounts ∧
        lot = ⟨accounts, st, s.feeds.insert it.collateral.symbol.code fc,
          { it with collateral := ⟨0, it.collateral.symbol⟩ }, bt⟩ := by
  simp only [awardCollateral, Checked.ite_eq_ok, Checked.bind_eq_ok, Checked.find_eq_ok,
    Asset.add_eq_ok, Asset.sub_eq_ok, Checked.pure_eq_ok, lessCollateral, Int.sub_self] at h
  rcases h with ⟨zero, rfl⟩ | ⟨some, _, ⟨-, -, -, rfl⟩, fc, feed, _, ⟨-, -, -, rfl⟩, quantity, less,
    accounts, paid, rfl⟩
  · exact Or.inl ⟨zero, rfl⟩
  · have kept : quantity = st.totalCollateral.quantity := by
      rcases less with ⟨-, -, -, -, rfl⟩ | ⟨-, rfl⟩
      · simp only [Int.sub_zero]
      · rfl
    refine Or.inr ⟨fc, accounts, some, feed, addBalance_moved paid, ?_⟩
    simp only [kept, Int.add_zero]

/-- What is sold and what is asked in the next round, by the sign and the
symbol of the remainder. -/
inductive Converted (it : Cdp) (price : Asset) : Cdp → Prop
  | shortIQ (short : 0 < it.stablecoin.amount) (iq : it.stablecoin.symbol = IQ_SYMBOL) :
      Converted it price { it with
        collateral := ⟨i64 (it.stablecoin.amount * price.amount), price.symbol⟩ }
  | short {worth : Int} (short : 0 < it.stablecoin.amount)
      (other : it.stablecoin.symbol ≠ IQ_SYMBOL) :
      Converted it price { it with collateral := ⟨worth, IQ_SYMBOL⟩ }
  | surplusIQ (surplus : it.stablecoin.amount < 0) (iq : it.stablecoin.symbol = IQ_SYMBOL) :
      Converted it price { it with
        collateral := it.stablecoin.neg
        stablecoin := ⟨i64 (-i64 (it.stablecoin.amount * price.amount)), price.symbol⟩ }
  | surplus {worth : Int} (surplus : it.stablecoin.amount < 0)
      (other : it.stablecoin.symbol ≠ IQ_SYMBOL) :
      Converted it price { it with
        collateral := it.stablecoin.neg, stablecoin := ⟨worth, IQ_SYMBOL⟩ }

theorem convertRemainder_ok {price : Asset} {next : Cdp} (debt : it.stablecoin.amount ≠ 0)
    (h : convertRemainder it price = .ok next) : Converted it price next := by
  simp only [convertRemainder, Checked.ite_eq_ok, Checked.bind_eq_ok, Asset.make_eq_ok,
    Checked.pure_eq_ok] at h
  rcases h with ⟨short, ⟨iq, _, ⟨-, -, rfl⟩, rfl⟩ | ⟨other, _, -, _, ⟨-, -, rfl⟩, rfl⟩⟩ |
    ⟨surplus, ⟨iq, _, ⟨-, -, rfl⟩, rfl⟩ | ⟨other, _, -, _, ⟨-, -, rfl⟩, rfl⟩⟩
  · exact .shortIQ short iq
  · exact .short short other
  · exact .surplusIQ (by omega) iq
  · exact .surplus (by omega) other

theorem Converted.live {price : Asset} {next : Cdp} (h : Converted it price next) :
    next.live = it.live := by
  cases h <;> rfl

theorem offerRemainder_ok {spent : Lot} (h : offerRemainder c spent bidder bidamt = .ok lot) :
    (spent.it.stablecoin.amount = 0 ∧ lot = spent) ∨
      ∃ fv next accounts code fs, spent.it.stablecoin.amount ≠ 0 ∧
        spent.feeds.lookup IQ_SYMBOL.code = some fv ∧
        convertRemainder spent.it fv.price = .ok next ∧
        bidamt.symbol = next.stablecoin.symbol ∧
        subBalance spent.accounts bidder bidamt = .ok (accounts, code) ∧
        spent.feeds.lookup bidamt.symbol.code = some fs ∧
        lot = ⟨accounts, spent.stat,
          spent.feeds.insert bidamt.symbol.code
            { fs with total := ⟨fs.total.amount - bidamt.amount, fs.total.symbol⟩ },
          { next with stablecoin :=
            ⟨next.stablecoin.amount - bidamt.amount, next.stablecoin.symbol⟩ },
          ⟨bidder, bidamt, c.now, c.now⟩⟩ := by
  simp only [offerRemainder, Checked.ite_eq_ok, Checked.bind_eq_ok, Checked.require_eq_ok,
    Checked.find_eq_ok, Asset.sub_eq_ok, Checked.pure_eq_ok, exists_const, Prod.exists] at h
  rcases h with ⟨zero, rfl⟩ | ⟨debt, fv, price, -, next, converted, symbol, accounts,
    code, paid, fs, feed, _, ⟨-, -, -, rfl⟩, _, ⟨-, -, -, rfl⟩, rfl⟩
  · exact Or.inl ⟨zero, rfl⟩
  · exact Or.inr ⟨fv, next, accounts, code, fs, debt, price, converted, symbol, paid, feed, rfl⟩

theorem settleLot_ok {accounts : Accounts} {feeds : Table SymbolCode Feed}
    (h : settleLot c lot = .ok (accounts, feeds)) :
    (lot.it.collateral.amount = 0 ∧ accounts = lot.accounts ∧ feeds = lot.feeds) ∨
      ∃ fc, lot.it.collateral.amount ≠ 0 ∧
        Moved lot.accounts [credit lot.bt.bidder lot.it.collateral
          (collateralContract c lot.stat lot.it.collateral)] accounts ∧
        lot.feeds.lookup lot.it.collateral.symbol.code = some fc ∧
        feeds = lot.feeds.insert lot.it.collateral.symbol.code { fc with
          total := ⟨fc.total.amount + lot.it.collateral.amount, fc.total.symbol⟩ } := by
  simp only [settleLot, Checked.ite_eq_ok, Checked.bind_eq_ok, Checked.find_eq_ok,
    Asset.add_eq_ok, Checked.pure_eq_ok, Prod.mk.injEq] at h
  rcases h with ⟨zero, rfl, rfl⟩ | ⟨some, _, paid, fc, feed, _, ⟨-, -, -, rfl⟩, rfl, rfl⟩
  · exact Or.inl ⟨zero, rfl, rfl⟩
  · exact Or.inr ⟨fc, some, addBalance_moved paid, feed, rfl⟩

/-- An auction step ends with the rows written back or, when nothing is left
to pay, with the auction closed. -/
theorem finish_ok (h : finish c s owner symbl lot = .ok s') :
    (lot.it.stablecoin.amount ≠ 0 ∧ s' = { s with
        accounts := lot.accounts, feeds := lot.feeds
        stats := s.stats.insert (c.self, symbl) lot.stat
        cdps := s.cdps.insert (symbl, owner) lot.it
        bids := s.bids.insert (symbl, owner) lot.bt }) ∨
      ∃ accounts feeds, lot.it.stablecoin.amount = 0 ∧ settleLot c lot = .ok (accounts, feeds) ∧
        s' = { s with
          accounts, feeds
          stats := s.stats.insert (c.self, symbl) lot.stat
          cdps := s.cdps.erase (symbl, owner)
          bids := s.bids.erase (symbl, owner) } := by
  simp only [finish, Checked.ite_eq_ok, Checked.bind_eq_ok, Checked.pure_eq_ok, Prod.exists] at h
  rcases h with ⟨paid, accounts, feeds, settled, rfl⟩ | ⟨left, rfl⟩
  · exact Or.inr ⟨accounts, feeds, paid, settled, rfl⟩
  · exact Or.inl ⟨left, rfl⟩

/-- The three ways a bid is taken. -/
inductive Bidding (c : Ctx) (s : State) (bidder owner : Name) (symbl : SymbolCode)
    (bidamt : Asset) (st : Stat) (it : Cdp) (lot : Lot) : Prop
  | first (none : s.bids.lookup (symbl, owner) = none)
      (taken : firstBid c s st it bidder bidamt = .ok lot)
      (left : lot.it.stablecoin.amount ≠ 0)
  | next (bt : Bid) (standing : s.bids.lookup (symbl, owner) = some bt)
      (running : roundOpen c st bt = true) (taken : outbid c s st it bt bidder bidamt = .ok lot)
  | roll (bt : Bid) (spent : Lot) (standing : s.bids.lookup (symbl, owner) = some bt)
      (expired : roundOpen c st bt = false) (awarded : awardCollateral c s st it bt = .ok spent)
      (taken : offerRemainder c spent bidder bidamt = .ok lot)

theorem liquify_ok (h : liquify c s bidder owner symbl bidamt = .ok s') :
    ∃ st row it lot, bidder ∈ c.auth ∧ 0 < bidamt.amount ∧
      s.stats.lookup (c.self, symbl) = some st ∧ s.cdps.lookup (symbl, owner) = some row ∧
      openAuction c s st row = .ok it ∧ Bidding c s bidder owner symbl bidamt st it lot ∧
      finish c s owner symbl lot = .ok s' := by
  simp only [liquify, Ctx.requireAuth_eq_ok, Checked.bind_eq_ok, Checked.require_eq_ok,
    Checked.find_eq_ok, exists_const] at h
  obtain ⟨auth, -, ⟨-, positive⟩, st, type, row, found, it, opened, h⟩ := h
  cases standing : s.bids.lookup (symbl, owner) with
  | none =>
    simp only [standing, Checked.bind_eq_ok, Checked.require_eq_ok, exists_const] at h
    obtain ⟨lot, taken, left, done⟩ := h
    exact ⟨st, row, it, lot, auth, positive, type, found, opened, .first standing taken left, done⟩
  | some bt =>
    simp only [standing, Checked.bind_eq_ok, nextBid, Checked.ite_eq_ok, rollover,
      Bool.not_eq_true] at h
    obtain ⟨lot, ⟨running, taken⟩ | ⟨expired, spent, awarded, taken⟩, done⟩ := h
    · exact ⟨st, row, it, lot, auth, positive, type, found, opened,
        .next bt standing running taken, done⟩
    · exact ⟨st, row, it, lot, auth, positive, type, found, opened,
        .roll bt spent standing expired awarded taken, done⟩

end DecentralBank.Maker
