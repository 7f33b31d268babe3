import DecentralBank.Maker.Sound

/-!
# What a call can do to the accounts

Except for `close`, taken to erase an empty row, and a decided referendum, a call
moves the accounts by postings. Each posting that takes is against an account
that authorised the call, and each label comes from one of five sources.
-/

namespace DecentralBank.Maker

/-- Where a label at a key comes from. -/
inductive Source (c : Ctx) (s : State) : Action → SymbolCode × Name → Symbol × Name → Prop
  /-- A row that stands. -/
  | standing {a k row} (found : s.accounts.lookup k = some row) : Source c s a k row.label
  /-- The contract's own issue. -/
  | issue {a k symbol} (foreign : symbol ≠ IQ_SYMBOL) : Source c s a k (symbol, c.self)
  | governance {a k} : Source c s a k (IQ_SYMBOL, IQ_NAME)
  /-- Collateral of a CDP that has some, or is in liquidation. -/
  | collateral {a k j st it} (type : s.stats.lookup (c.self, j.1) = some st)
      (found : s.cdps.lookup j = some it) (locked : it.live = false ∨ 0 < it.collateral.amount) :
      Source c s a k (st.totalCollateral.quantity.symbol, st.totalCollateral.contract)
  | deposit {k code source target quantity memo}
      (genuine : quantity.symbol = IQ_SYMBOL → code = IQ_NAME) :
      Source c s (.deposit code source target quantity memo) k (quantity.symbol, code)
  /-- A vote of an account that has no row under the type's symbol. -/
  | ballot {voter symbl against quantity} (absent : s.accounts.lookup (symbl, voter) = none) :
      Source c s (.vote voter symbl against quantity) (symbl, voter) (⟨symbl, 3⟩, NO_NAME)

/-- What every posting of a call satisfies. -/
structure Sane (c : Ctx) (s : State) (a : Action) (m : Move) : Prop where
  coded : m.label.1.code = m.key.1
  paid : m.amount < 0 → m.key.2 ∈ c.auth
  source : Source c s a m.key m.label
  fed : a.governs = false → Fed s.feeds m.key.1

/-- The accounts `b` come from the state's by sane postings. -/
def Ledgered (c : Ctx) (s : State) (a : Action) (b : Accounts) : Prop :=
  ∃ moves, Moved s.accounts moves b ∧ ∀ m ∈ moves, Sane c s a m

variable {c : Ctx} {s s' : State} {a : Action}

namespace Ledgered

theorem refl (c : Ctx) (s : State) (a : Action) : Ledgered c s a s.accounts :=
  ⟨[], Ledger.Posted.nil _, by simp⟩

theorem post {b b' : Accounts} {m : Move} (h : Ledgered c s a b) (moved : Moved b [m] b')
    (sane : Sane c s a m) : Ledgered c s a b' := by
  obtain ⟨moves, before, all⟩ := h
  refine ⟨moves ++ [m], before.append moved, fun p hp => ?_⟩
  rcases List.mem_append.mp hp with mem | mem
  · exact all p mem
  · cases List.mem_singleton.mp mem
    exact sane

/-- A row of the new accounts has a label of a known source. -/
theorem source {b : Accounts} (h : Ledgered c s a b) {k : SymbolCode × Name} {row : Account}
    (found : b.lookup k = some row) : Source c s a k row.label := by
  obtain ⟨moves, moved, all⟩ := h
  rcases moved.origin found with ⟨old, stood, label⟩ | ⟨p, mem, rfl, label⟩
  · exact label ▸ .standing stood
  · exact label ▸ (all p mem).source

theorem debit {b b' : Accounts} {owner code : Name} {value : Asset} (h : Ledgered c s a b)
    (paid : subBalance b owner value = .ok (b', code)) (auth : owner ∈ c.auth)
    (fed : a.governs = false → Fed s.feeds value.symbol.code) : Ledgered c s a b' := by
  obtain ⟨moved, row, found, tag, symbol, -⟩ := subBalance_ok paid
  have source := h.source found
  rw [Account.label, tag, symbol] at source
  exact h.post moved ⟨rfl, fun _ => auth, source, fed⟩

theorem credit {b b' : Accounts} {owner code : Name} {value : Asset} (h : Ledgered c s a b)
    (moved : Moved b [Maker.credit owner value code] b')
    (kept : value.amount < 0 → owner ∈ c.auth)
    (source : Source c s a (value.symbol.code, owner) (value.symbol, code))
    (fed : a.governs = false → Fed s.feeds value.symbol.code) : Ledgered c s a b' :=
  h.post moved ⟨rfl, kept, source, fed⟩

end Ledgered

section Auctions

variable {bidder owner : Name} {symbl : SymbolCode} {bidamt : Asset} {st : Stat} {it row : Cdp}
  {lot : Lot}

/-- Collateral sold at an auction comes from a CDP in liquidation. -/
theorem Source.sold {k : SymbolCode × Name} (type : s.stats.lookup (c.self, symbl) = some st)
    (found : s.cdps.lookup (symbl, owner) = some row)
    (locked : row.live = false ∨ 0 < row.collateral.amount) (collateral : Asset) :
    Source c s a k (collateral.symbol, collateralContract c st collateral) := by
  unfold collateralContract
  split
  · rename_i iq
    exact iq ▸ .governance
  · rename_i foreign
    split
    · rename_i same
      exact same ▸ .collateral type found locked
    · exact .issue foreign

theorem standing_dead (hs : Sound s) {bt : Bid} (standing : s.bids.lookup (symbl, owner) = some bt)
    (found : s.cdps.lookup (symbl, owner) = some row) : row.live = false := by
  obtain ⟨-, row', found', dead⟩ := hs.bids _ _ standing
  cases found.symm.trans found'
  exact dead

/-- A bid on a standing one finds the CDP as it is stored. -/
theorem standing_unopened (hs : Sound s) {bt : Bid}
    (standing : s.bids.lookup (symbl, owner) = some bt)
    (found : s.cdps.lookup (symbl, owner) = some row) (opened : openAuction c s st row = .ok it) :
    it = row := by
  rcases openAuction_ok opened with ⟨-, same⟩ | ⟨_, _, live, -⟩
  · exact same
  · rw [standing_dead hs standing found] at live
    cases live

/-- A round that has expired leaves something to pay. -/
theorem award_owing (hs : Sound s) {bt : Bid} {spent : Lot}
    (standing : s.bids.lookup (symbl, owner) = some bt)
    (found : s.cdps.lookup (symbl, owner) = some row) (opened : openAuction c s st row = .ok it)
    (awarded : awardCollateral c s st it bt = .ok spent) : spent.it.stablecoin.amount ≠ 0 := by
  rw [(award_rows awarded).1, standing_unopened hs standing found opened]
  exact (hs.cdps _ row found).left (standing_dead hs standing found)

/-- In the next round the remainder is converted and the first bid is taken off it. -/
theorem roll_ok (hs : Sound s) {bt : Bid} {spent : Lot}
    (standing : s.bids.lookup (symbl, owner) = some bt)
    (found : s.cdps.lookup (symbl, owner) = some row) (opened : openAuction c s st row = .ok it)
    (awarded : awardCollateral c s st it bt = .ok spent)
    (taken : offerRemainder c spent bidder bidamt = .ok lot) :
    ∃ fv next accounts code fs, it.stablecoin.amount ≠ 0 ∧
      s.feeds.lookup IQ_SYMBOL.code = some fv ∧ convertRemainder it fv.price = .ok next ∧
      bidamt.symbol = next.stablecoin.symbol ∧
      subBalance spent.accounts bidder bidamt = .ok (accounts, code) ∧
      s.feeds.lookup bidamt.symbol.code = some fs ∧
      lot = ⟨accounts, st,
        spent.feeds.insert bidamt.symbol.code
          { fs with total := ⟨fs.total.amount - bidamt.amount, fs.total.symbol⟩ },
        { next with stablecoin :=
          ⟨next.stablecoin.amount - bidamt.amount, next.stablecoin.symbol⟩ },
        ⟨bidder, bidamt, c.now, c.now⟩⟩ := by
  have owing := award_owing hs standing found opened awarded
  obtain ⟨none, -⟩ | ⟨fv, next, accounts, code, fs, -, iq, converted, symbol, paid, feed, rfl⟩ :=
    offerRemainder_ok taken
  · exact absurd none owing
  · rw [award_feeds awarded] at iq feed
    rw [convert_award awarded] at converted
    rw [(award_rows awarded).1] at owing
    exact ⟨fv, next, accounts, code, fs, owing, iq, converted, symbol, paid, feed,
      by rw [award_stat awarded]⟩

/-- A bid moves the accounts by sane postings. -/
theorem Bidding.ledgered (hs : Sound s)
    (h : Bidding c s bidder owner symbl bidamt st it lot) (auth : bidder ∈ c.auth)
    (type : s.stats.lookup (c.self, symbl) = some st)
    (found : s.cdps.lookup (symbl, owner) = some row)
    (owed : Fed s.feeds it.stablecoin.symbol.code) :
    Ledgered c s (.liquify bidder owner symbl bidamt) lot.accounts := by
  have start := Ledgered.refl c s (.liquify bidder owner symbl bidamt)
  cases h with
  | first _ taken _ =>
    obtain ⟨_, _, symbol, paid, rfl⟩ := firstBid_ok taken
    exact start.debit paid auth fun _ => symbol ▸ owed
  | next bt standing _ taken =>
    obtain ⟨_, _, _, symbol, same, -, paid, refunded, rfl⟩ := outbid_ok taken
    have debited := start.debit paid auth fun _ => symbol ▸ owed
    refine debited.credit refunded ?_ ?_ fun _ => same ▸ symbol ▸ owed
    · have := (hs.bids _ _ standing).1
      omega
    · unfold refundContract
      split
      · rename_i iq
        rw [same, symbol, iq]
        exact .governance
      · rename_i foreign
        exact .issue (by rw [same, symbol]; exact foreign)
  | roll bt spent standing _ awarded taken =>
    have dead := standing_dead hs standing found
    have award : Ledgered c s (.liquify bidder owner symbl bidamt) spent.accounts := by
      rcases awardCollateral_ok awarded with ⟨-, rfl⟩ | ⟨fc, _, -, feed, moved, rfl⟩
      · exact start
      · exact start.credit moved (by simp) (.sold type found (Or.inl dead) _)
          fun _ => .of_lookup feed
    rcases offerRemainder_ok taken with ⟨-, rfl⟩ | ⟨_, _, _, _, _, -, -, -, -, paid, feed, rfl⟩
    · exact award
    · refine award.debit paid auth fun _ => ?_
      rw [fed_iff_quote, ← award_quote awarded, ← fed_iff_quote]
      exact .of_lookup feed

/-- Only an auction that was under way ends. -/
theorem Bidding.ends_dead (hs : Sound s) (h : Bidding c s bidder owner symbl bidamt st it lot)
    (found : s.cdps.lookup (symbl, owner) = some row) (paid : lot.it.stablecoin.amount = 0) :
    row.live = false := by
  cases h with
  | first _ _ left => exact absurd paid left
  | next bt standing => exact standing_dead hs standing found
  | roll bt spent standing => exact standing_dead hs standing found

/-- What is left to hand out at the end goes to the bidder. -/
theorem Bidding.winner (h : Bidding c s bidder owner symbl bidamt st it lot)
    (left : lot.it.collateral.amount ≠ 0) : lot.bt.bidder = bidder := by
  cases h with
  | first _ taken _ =>
    obtain ⟨_, _, -, -, rfl⟩ := firstBid_ok taken
    rfl
  | next bt _ _ taken =>
    obtain ⟨_, _, _, -, -, -, -, -, rfl⟩ := outbid_ok taken
    rfl
  | roll bt spent _ _ awarded taken =>
    rcases offerRemainder_ok taken with ⟨-, rfl⟩ | ⟨_, _, _, _, _, -, -, -, -, -, -, rfl⟩
    · rcases awardCollateral_ok awarded with ⟨none, rfl⟩ | ⟨_, _, -, -, -, rfl⟩
      · exact absurd none left
      · exact absurd rfl left
    · rfl

end Auctions

/-- The three ways a call changes the accounts. -/
inductive AccountsStep (c : Ctx) (s s' : State) : Action → Prop
  | moved {action} (ledgered : Ledgered c s action s'.accounts) : AccountsStep c s s' action
  | closed {owner symbl row} (auth : owner ∈ c.auth)
      (found : s.accounts.lookup (symbl, owner) = some row) (zero : row.balance.amount = 0)
      (erased : s'.accounts = s.accounts.erase (symbl, owner)) :
      AccountsStep c s s' (.close owner symbl)
  | refunded {proposer symbl prop} (auth : c.self ∈ c.auth)
      (session : s.props.lookup symbl = some prop) (split : prop.yay.amount ≠ prop.nay.amount)
      (refunded : refundVotes s.accounts symbl = .ok s'.accounts)
      (props : s'.props = s.props.erase symbl) :
      AccountsStep c s s' (.referended proposer symbl)

theorem apply_accounts (hs : Sound s) (h : apply c s a = .ok s') : AccountsStep c s s' a := by
  have start := Ledgered.refl c s a
  cases a with
  | upfeed feeder price cdpType symbol =>
    obtain ⟨-, rfl⟩ := upfeed_ok h
    exact .moved start
  | openCdp owner symbl ramPayer =>
    obtain ⟨_, _, -, -, -, -, rfl⟩ := openCdp_ok h
    exact .moved start
  | close owner symbl =>
    obtain ⟨row, auth, found, zero, rfl⟩ := close_ok h
    exact .closed auth found zero rfl
  | shut owner symbl =>
    obtain ⟨st, it, paid, _, _, _, auth, type, found, live, debt, back, rfl⟩ := shut_ok h
    have row := hs.cdps _ _ found
    have repaid : Ledgered c s (.shut owner symbl) paid := by
      rcases shutDebt_ok debt with ⟨_, positive, debited, -, -⟩ | ⟨-, rfl, -⟩
      · exact start.debit debited auth fun _ => row.owed (Or.inr (by omega))
      · exact start
    rcases shutCollateral_ok back with ⟨positive, moved, symbol, -⟩ | ⟨-, rfl, -⟩
    · refine .moved (repaid.credit moved (fun _ => auth) ?_ fun _ => row.secured live)
      rw [symbol]
      exact .collateral type found (Or.inr positive)
    · exact .moved repaid
  | lock owner symbl quantity =>
    obtain ⟨_, _, fc, _, auth, -, -, -, -, -, -, paid, -, feed, rfl⟩ := lock_ok h
    exact .moved (start.debit paid auth fun _ => .of_lookup feed)
  | bail owner symbl quantity =>
    obtain ⟨st, it, fc, _, _, auth, positive, type, symbol, found, -, -, less, feed, -, -, moved,
      rfl⟩ := bail_ok h
    refine .moved (start.credit moved (fun _ => auth) ?_ fun _ => .of_lookup feed)
    rw [symbol]
    exact .collateral type found (Or.inr (by omega))
  | draw owner symbl quantity =>
    obtain ⟨st, _, _, _, fs, _, auth, -, type, symbol, -, -, -, -, -, -, -, feed, moved, rfl⟩ :=
      draw_ok h
    refine .moved (start.credit moved (fun _ => auth) (.issue ?_) fun _ => .of_lookup feed)
    intro iq
    have cents := (hs.stats _ _ type).cents
    rw [← symbol, iq] at cents
    cases cents
  | wipe owner symbl quantity =>
    obtain ⟨_, _, fv, _, _, _, _, fs, _, auth, -, -, -, -, -, -, -, iq, -, fee, paid, feed, rfl⟩ :=
      wipe_ok h
    exact .moved ((start.debit fee auth fun _ => .of_lookup iq).debit paid auth
      fun _ => .of_lookup feed)
  | settle feeder symbl =>
    obtain ⟨_, -, rfl⟩ := settle_ok h
    exact .moved start
  | vote voter symbl against quantity =>
    obtain ⟨_, paid, _, _, _, auth, positive, -, -, debited, escrowed, -, rfl⟩ := vote_ok h
    have spent := start.debit debited auth nofun
    obtain ⟨code, moved, tag⟩ := escrow_ok escrowed
    refine .moved (spent.post moved ⟨rfl, by simp only; omega, ?_, nofun⟩)
    rcases tag with ⟨absent, rfl⟩ | ⟨row, found, label⟩
    · refine .ballot ?_
      cases stood : s.accounts.lookup (symbl, voter) with
      | none => rfl
      | some row =>
        obtain ⟨_, kept, -⟩ := (subBalance_ok debited).1.keeps stood
        cases absent.symm.trans kept
    · have source := spent.source found
      rwa [label] at source
  | propose proposer symbl terms =>
    obtain ⟨_, -, -, -, -, -, -, -, rfl⟩ := propose_ok h
    exact .moved start
  | referended proposer symbl =>
    obtain ⟨auth, prop, session, -, ⟨-, -, rfl⟩ | ⟨_, _, split, -, refunded, rfl⟩⟩ :=
      referended_ok h
    · exact .moved start
    · exact .refunded auth session split refunded rfl
  | liquify bidder owner symbl bidamt =>
    obtain ⟨st, row, it, lot, auth, -, type, found, opened, bidding, done⟩ := liquify_ok h
    have owed := openAuction_owed opened (hs.cdps _ _ found)
    have moves := bidding.ledgered hs auth type found owed
    rcases finish_ok done with ⟨-, rfl⟩ | ⟨_, _, paid, settled, rfl⟩
    · exact .moved moves
    · rcases settleLot_ok settled with ⟨-, rfl, -⟩ | ⟨fc, left, moved, feed, -⟩
      · exact .moved moves
      · refine .moved (moves.credit moved (fun _ => bidding.winner left ▸ auth) ?_ fun _ => ?_)
        · rw [bidding.stat_eq]
          exact .sold type found (Or.inl (bidding.ends_dead hs found paid)) _
        · rw [fed_iff_quote, ← bidding.quote_eq, ← fed_iff_quote]
          exact .of_lookup feed
  | withdraw owner quantity memo =>
    obtain ⟨_, _, fc, _, auth, -, paid, -, feed, rfl⟩ := withdraw_ok h
    exact .moved (start.debit paid auth fun _ => .of_lookup feed)
  | deposit code source target quantity memo =>
    obtain ⟨-, positive, ⟨-, rfl⟩ | ⟨fc, _, -, genuine, feed, moved, rfl⟩⟩ :=
      deposit_ok (apply_deposit_ok h).2
    · exact .moved start
    · exact .moved (start.credit moved (by omega) (.deposit genuine) fun _ => .of_lookup feed)

end DecentralBank.Maker
