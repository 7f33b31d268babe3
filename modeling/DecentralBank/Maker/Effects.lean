import DecentralBank.Maker.Dispatch
import DecentralBank.Maker.PositionSteps
import DecentralBank.Maker.CustodySteps
import DecentralBank.Maker.ReferendumSteps
import DecentralBank.Maker.LiquifySteps

/-!
# What a call can do to each table

A call keeps every quote unless it updates a price, keeps the kind of every
type unless the contract erases it, and changes at most one CDP.
-/

namespace DecentralBank.Maker

/-- The price of a feed and the time it is from. -/
def quote (feeds : Table SymbolCode Feed) (k : SymbolCode) : Option (Asset × Nat) :=
  (feeds.lookup k).map fun f => (f.price, f.stamp)

def Fed (feeds : Table SymbolCode Feed) (k : SymbolCode) : Prop := (feeds.lookup k).isSome = true

instance (feeds : Table SymbolCode Feed) (k : SymbolCode) : Decidable (Fed feeds k) :=
  inferInstanceAs (Decidable (_ = true))

/-- What a type keeps for life. -/
structure Kind where
  collateral : Symbol
  contract : Name
  stablecoin : Symbol
  deriving DecidableEq

def Stat.kind (st : Stat) : Kind :=
  ⟨st.totalCollateral.quantity.symbol, st.totalCollateral.contract, st.totalStablecoin.symbol⟩

def kindOf (self : Name) (stats : Table (Name × SymbolCode) Stat) (symbl : SymbolCode) :
    Option Kind :=
  (stats.lookup (self, symbl)).map Stat.kind

theorem kindOf_lookup {self : Name} {stats : Table (Name × SymbolCode) Stat} {symbl : SymbolCode}
    {st : Stat} (type : stats.lookup (self, symbl) = some st) :
    kindOf self stats symbl = some st.kind := by
  rw [kindOf, type, Option.map_some]

variable {c : Ctx} {s s' : State} {a : Action}

theorem apply_deposit_ok {code source target : Name} {quantity : Asset} {memo : List UInt8}
    (h : apply c s (.deposit code source target quantity memo) = .ok s') :
    code ≠ c.self ∧ deposit c code s source target quantity memo = .ok s' := by
  simpa only [apply, Checked.bind_eq_ok, Checked.require_eq_ok, exists_const] using h

section Quotes

variable {feeds : Table SymbolCode Feed}

theorem fed_iff_quote (k : SymbolCode) : Fed feeds k ↔ (quote feeds k).isSome = true := by
  simp only [Fed, quote, Option.isSome_map]

theorem Fed.of_lookup {k : SymbolCode} {f : Feed} (h : feeds.lookup k = some f) : Fed feeds k := by
  simp only [Fed, h, Option.isSome_some]

theorem quote_of_lookup {k : SymbolCode} {f : Feed} (h : feeds.lookup k = some f) :
    quote feeds k = some (f.price, f.stamp) := by
  simp only [quote, h, Option.map_some]

/-- Moving a feed's total leaves every quote. -/
theorem quote_insert {j : SymbolCode} {f : Feed} (h : feeds.lookup j = some f) (total : Asset) :
    quote (feeds.insert j { f with total }) = quote feeds := by
  funext k
  simp only [quote, Table.lookup_insert]
  split
  · rename_i hk
    rw [hk, h]
    rfl
  · rfl

/-- An award adds zero to a feed. -/
theorem award_feeds {st : Stat} {it : Cdp} {bt : Bid} {spent : Lot}
    (h : awardCollateral c s st it bt = .ok spent) (k : SymbolCode) :
    spent.feeds.lookup k = s.feeds.lookup k := by
  rcases awardCollateral_ok h with ⟨-, rfl⟩ | ⟨fc, _, -, feed, -, rfl⟩
  · rfl
  · rw [Table.lookup_insert]
    split
    · rename_i here
      rw [here, feed]
    · rfl

theorem award_quote {st : Stat} {it : Cdp} {bt : Bid} {spent : Lot}
    (h : awardCollateral c s st it bt = .ok spent) : quote spent.feeds = quote s.feeds := by
  funext k
  rw [quote, award_feeds h, quote]

theorem Bidding.quote_eq {bidder owner : Name} {symbl : SymbolCode} {bidamt : Asset} {st : Stat}
    {it : Cdp} {lot : Lot} (h : Bidding c s bidder owner symbl bidamt st it lot) :
    quote lot.feeds = quote s.feeds := by
  cases h with
  | first _ taken _ =>
    obtain ⟨_, _, -, -, rfl⟩ := firstBid_ok taken
    rfl
  | next bt _ _ taken =>
    obtain ⟨_, _, _, -, -, -, -, -, rfl⟩ := outbid_ok taken
    rfl
  | roll bt spent _ _ awarded taken =>
    rcases offerRemainder_ok taken with ⟨-, rfl⟩ | ⟨_, _, _, _, fs, -, -, -, -, -, feed, rfl⟩
    · exact award_quote awarded
    · exact (quote_insert feed _).trans (award_quote awarded)

theorem award_stat {st : Stat} {it : Cdp} {bt : Bid} {spent : Lot}
    (h : awardCollateral c s st it bt = .ok spent) : spent.stat = st := by
  rcases awardCollateral_ok h with ⟨-, rfl⟩ | ⟨_, _, -, -, -, rfl⟩
  · rfl
  · rfl

/-- Selling collateral changes no total of the type. -/
theorem Bidding.stat_eq {bidder owner : Name} {symbl : SymbolCode} {bidamt : Asset} {st : Stat}
    {it : Cdp} {lot : Lot} (h : Bidding c s bidder owner symbl bidamt st it lot) :
    lot.stat = st := by
  cases h with
  | first _ taken _ =>
    obtain ⟨_, _, -, -, rfl⟩ := firstBid_ok taken
    rfl
  | next bt _ _ taken =>
    obtain ⟨_, _, _, -, -, -, -, -, rfl⟩ := outbid_ok taken
    rfl
  | roll bt spent _ _ awarded taken =>
    have award := award_stat awarded
    rcases offerRemainder_ok taken with ⟨-, rfl⟩ | ⟨_, _, _, _, _, -, -, -, -, -, -, rfl⟩
    · exact award
    · exact award

theorem finish_quote {owner : Name} {symbl : SymbolCode} {lot : Lot}
    (h : finish c s owner symbl lot = .ok s') : quote s'.feeds = quote lot.feeds := by
  rcases finish_ok h with ⟨-, rfl⟩ | ⟨_, _, -, settled, rfl⟩
  · rfl
  · rcases settleLot_ok settled with ⟨-, -, rfl⟩ | ⟨fc, -, -, feed, rfl⟩
    · rfl
    · exact quote_insert feed _

/-- Only `upfeed` changes a quote. -/
theorem apply_quote (h : apply c s a = .ok s') :
    quote s'.feeds = quote s.feeds ∨ ∃ feeder price cdpType symbol,
      a = .upfeed feeder price cdpType symbol ∧ 0 < price.amount ∧ s' = { s with
        feeds :=
          s.feeds.insert symbol.code (fed c price symbol (s.feeds.lookup symbol.code)) } := by
  cases a with
  | upfeed feeder price cdpType symbol =>
    obtain ⟨positive, rfl⟩ := upfeed_ok h
    exact Or.inr ⟨feeder, price, cdpType, symbol, rfl, positive, rfl⟩
  | openCdp owner symbl ramPayer =>
    obtain ⟨_, _, -, -, -, -, rfl⟩ := openCdp_ok h
    exact Or.inl rfl
  | close owner symbl =>
    obtain ⟨_, -, -, -, rfl⟩ := close_ok h
    exact Or.inl rfl
  | shut owner symbl =>
    obtain ⟨_, _, _, _, _, _, -, -, -, -, -, -, rfl⟩ := shut_ok h
    exact Or.inl rfl
  | lock owner symbl quantity =>
    obtain ⟨_, _, _, _, -, -, -, -, -, -, -, -, -, feed, rfl⟩ := lock_ok h
    exact Or.inl (quote_insert feed _)
  | bail owner symbl quantity =>
    obtain ⟨_, _, _, _, _, -, -, -, -, -, -, -, -, feed, -, -, -, rfl⟩ := bail_ok h
    exact Or.inl (quote_insert feed _)
  | draw owner symbl quantity =>
    obtain ⟨_, _, _, _, _, _, -, -, -, -, -, -, -, -, -, -, -, feed, -, rfl⟩ := draw_ok h
    exact Or.inl (quote_insert feed _)
  | wipe owner symbl quantity =>
    obtain ⟨_, _, _, _, _, _, _, _, _, -, -, -, -, -, -, -, -, -, -, -, -, feed, rfl⟩ := wipe_ok h
    exact Or.inl (quote_insert feed _)
  | settle feeder symbl =>
    obtain ⟨_, -, rfl⟩ := settle_ok h
    exact Or.inl rfl
  | vote voter symbl against quantity =>
    obtain ⟨_, _, _, _, _, -, -, -, -, -, -, -, rfl⟩ := vote_ok h
    exact Or.inl rfl
  | propose proposer symbl terms =>
    obtain ⟨_, -, -, -, -, -, -, -, rfl⟩ := propose_ok h
    exact Or.inl rfl
  | referended proposer symbl =>
    obtain ⟨-, _, -, -, ⟨-, -, rfl⟩ | ⟨_, _, -, -, -, rfl⟩⟩ := referended_ok h
    · exact Or.inl rfl
    · exact Or.inl rfl
  | liquify bidder owner symbl bidamt =>
    obtain ⟨_, _, _, _, -, -, -, -, -, bidding, done⟩ := liquify_ok h
    exact Or.inl ((finish_quote done).trans bidding.quote_eq)
  | withdraw owner quantity memo =>
    obtain ⟨_, _, _, _, -, -, -, -, feed, rfl⟩ := withdraw_ok h
    exact Or.inl (quote_insert feed _)
  | deposit code source target quantity memo =>
    obtain ⟨-, -, ⟨-, rfl⟩ | ⟨_, _, -, -, feed, -, rfl⟩⟩ := deposit_ok (apply_deposit_ok h).2
    · exact Or.inl rfl
    · exact Or.inl (quote_insert feed _)

/-- `upfeed` quotes the first price of a symbol as it is, and a later one as zero. -/
theorem upfed_quote {price : Asset} {symbol : Symbol} {k : SymbolCode} {q : Asset × Nat}
    (hq : quote (feeds.insert symbol.code (fed c price symbol (feeds.lookup symbol.code))) k =
        some q) :
    quote feeds k = some q ∨ k = symbol.code ∧
      ((feeds.lookup k = none ∧ q = (price, c.now)) ∨
        ∃ f, feeds.lookup k = some f ∧ q = (⟨0, f.price.symbol⟩, c.now)) := by
  obtain ⟨f', stored, rfl⟩ := Option.map_eq_some_iff.mp hq
  obtain ⟨rfl, rfl⟩ | ⟨-, old⟩ := Table.of_lookup_insert stored
  · refine Or.inr ⟨rfl, ?_⟩
    cases found : feeds.lookup symbol.code with
    | none => exact Or.inl ⟨rfl, rfl⟩
    | some f => exact Or.inr ⟨f, rfl, rfl⟩
  · exact Or.inl (quote_of_lookup old)

/-- A feed is never erased. -/
theorem Fed.apply {k : SymbolCode} (hk : Fed s.feeds k) (h : apply c s a = .ok s') :
    Fed s'.feeds k := by
  rcases apply_quote h with same | ⟨_, _, _, symbol, -, -, rfl⟩
  · rw [fed_iff_quote] at hk ⊢
    rwa [same]
  · simp only [Fed, Table.lookup_insert]
    split
    · rfl
    · exact hk

/-- A feed appears only by `upfeed`. -/
theorem Fed.of_apply {k : SymbolCode} (h : Maker.apply c s a = .ok s') (hk : Fed s'.feeds k) :
    Fed s.feeds k ∨ ∃ feeder price cdpType symbol,
      a = .upfeed feeder price cdpType symbol ∧ symbol.code = k := by
  rcases apply_quote h with same | ⟨feeder, price, cdpType, symbol, rfl, -, rfl⟩
  · rw [fed_iff_quote, same, ← fed_iff_quote] at hk
    exact Or.inl hk
  · by_cases hs : k = symbol.code
    · exact Or.inr ⟨feeder, price, cdpType, symbol, rfl, hs.symm⟩
    · rw [Fed, Table.lookup_insert, if_neg hs] at hk
      exact Or.inl hk

end Quotes

section Frames

/-- The actions that write bids. -/
def Action.auctions : Action → Bool
  | .liquify .. => true
  | _ => false

/-- The actions that write proposals. -/
def Action.governs : Action → Bool
  | .propose .. | .vote .. | .referended .. => true
  | _ => false

/-- Bids change by `liquify` alone, proposals and their pending decisions by the
three actions of a referendum. -/
theorem apply_frame (h : apply c s a = .ok s') :
    (a.auctions = false → s'.bids = s.bids) ∧
      (a.governs = false → s'.props = s.props ∧ s'.deferred = s.deferred) := by
  cases a with
  | upfeed feeder price cdpType symbol =>
    obtain ⟨-, rfl⟩ := upfeed_ok h
    exact ⟨fun _ => rfl, fun _ => ⟨rfl, rfl⟩⟩
  | openCdp owner symbl ramPayer =>
    obtain ⟨_, _, -, -, -, -, rfl⟩ := openCdp_ok h
    exact ⟨fun _ => rfl, fun _ => ⟨rfl, rfl⟩⟩
  | close owner symbl =>
    obtain ⟨_, -, -, -, rfl⟩ := close_ok h
    exact ⟨fun _ => rfl, fun _ => ⟨rfl, rfl⟩⟩
  | shut owner symbl =>
    obtain ⟨_, _, _, _, _, _, -, -, -, -, -, -, rfl⟩ := shut_ok h
    exact ⟨fun _ => rfl, fun _ => ⟨rfl, rfl⟩⟩
  | lock owner symbl quantity =>
    obtain ⟨_, _, _, _, -, -, -, -, -, -, -, -, -, -, rfl⟩ := lock_ok h
    exact ⟨fun _ => rfl, fun _ => ⟨rfl, rfl⟩⟩
  | bail owner symbl quantity =>
    obtain ⟨_, _, _, _, _, -, -, -, -, -, -, -, -, -, -, -, -, rfl⟩ := bail_ok h
    exact ⟨fun _ => rfl, fun _ => ⟨rfl, rfl⟩⟩
  | draw owner symbl quantity =>
    obtain ⟨_, _, _, _, _, _, -, -, -, -, -, -, -, -, -, -, -, -, -, rfl⟩ := draw_ok h
    exact ⟨fun _ => rfl, fun _ => ⟨rfl, rfl⟩⟩
  | wipe owner symbl quantity =>
    obtain ⟨_, _, _, _, _, _, _, _, _, -, -, -, -, -, -, -, -, -, -, -, -, -, rfl⟩ := wipe_ok h
    exact ⟨fun _ => rfl, fun _ => ⟨rfl, rfl⟩⟩
  | settle feeder symbl =>
    obtain ⟨_, -, rfl⟩ := settle_ok h
    exact ⟨fun _ => rfl, fun _ => ⟨rfl, rfl⟩⟩
  | vote voter symbl against quantity =>
    obtain ⟨_, _, _, _, _, -, -, -, -, -, -, -, rfl⟩ := vote_ok h
    exact ⟨fun _ => rfl, nofun⟩
  | propose proposer symbl terms =>
    obtain ⟨_, -, -, -, -, -, -, -, rfl⟩ := propose_ok h
    exact ⟨fun _ => rfl, nofun⟩
  | referended proposer symbl =>
    obtain ⟨-, _, -, -, ⟨-, -, rfl⟩ | ⟨_, _, -, -, -, rfl⟩⟩ := referended_ok h
    · exact ⟨fun _ => rfl, nofun⟩
    · exact ⟨fun _ => rfl, nofun⟩
  | liquify bidder owner symbl bidamt =>
    obtain ⟨_, _, _, _, -, -, -, -, -, -, done⟩ := liquify_ok h
    rcases finish_ok done with ⟨-, rfl⟩ | ⟨_, _, -, -, rfl⟩
    · exact ⟨nofun, fun _ => ⟨rfl, rfl⟩⟩
    · exact ⟨nofun, fun _ => ⟨rfl, rfl⟩⟩
  | withdraw owner quantity memo =>
    obtain ⟨_, _, _, _, -, -, -, -, -, rfl⟩ := withdraw_ok h
    exact ⟨fun _ => rfl, fun _ => ⟨rfl, rfl⟩⟩
  | deposit code source target quantity memo =>
    obtain ⟨-, -, ⟨-, rfl⟩ | ⟨_, _, -, -, -, -, rfl⟩⟩ := deposit_ok (apply_deposit_ok h).2
    · exact ⟨fun _ => rfl, fun _ => ⟨rfl, rfl⟩⟩
    · exact ⟨fun _ => rfl, fun _ => ⟨rfl, rfl⟩⟩

/-- An auction step writes the CDP and the bid it is on, or ends both. -/
theorem finish_lookup {owner : Name} {symbl : SymbolCode} {lot : Lot}
    (h : finish c s owner symbl lot = .ok s') (k : SymbolCode × Name) :
    (k ≠ (symbl, owner) ∧ s'.cdps.lookup k = s.cdps.lookup k ∧
        s'.bids.lookup k = s.bids.lookup k) ∨
      (k = (symbl, owner) ∧
        ((s'.cdps.lookup k = some lot.it ∧ s'.bids.lookup k = some lot.bt) ∨
          (s'.cdps.lookup k = none ∧ s'.bids.lookup k = none))) := by
  by_cases here : k = (symbl, owner)
  · subst here
    refine Or.inr ⟨rfl, ?_⟩
    rcases finish_ok h with ⟨-, rfl⟩ | ⟨_, _, -, -, rfl⟩
    · exact Or.inl ⟨AList.lookup_insert _, AList.lookup_insert _⟩
    · exact Or.inr ⟨AList.lookup_erase _ _, AList.lookup_erase _ _⟩
  · refine Or.inl ⟨here, ?_⟩
    rcases finish_ok h with ⟨-, rfl⟩ | ⟨_, _, -, -, rfl⟩
    · exact ⟨AList.lookup_insert_ne here, AList.lookup_insert_ne here⟩
    · exact ⟨AList.lookup_erase_ne here, AList.lookup_erase_ne here⟩

end Frames

section Types

/-- Writing a row of the same kind keeps the kinds of all types. -/
theorem kindOf_insert {stats : Table (Name × SymbolCode) Stat} {self : Name}
    {symbl T : SymbolCode} {st new : Stat} (h : stats.lookup (self, symbl) = some st)
    (same : new.kind = st.kind) :
    kindOf self (stats.insert (self, symbl) new) T = kindOf self stats T := by
  simp only [kindOf, Table.lookup_insert]
  split
  · rename_i hk
    rw [hk, h]
    exact congrArg some same
  · rfl

/-- A type keeps its kind until `referended` erases it from the contract's own scope. -/
theorem apply_kind (h : apply c s a = .ok s') {T : SymbolCode} {κ : Kind}
    (hk : kindOf c.self s.stats T = some κ) :
    kindOf c.self s'.stats T = some κ ∨ a = .referended c.self T := by
  cases a with
  | upfeed feeder price cdpType symbol =>
    obtain ⟨-, rfl⟩ := upfeed_ok h
    exact Or.inl hk
  | openCdp owner symbl ramPayer =>
    obtain ⟨_, _, -, -, -, -, rfl⟩ := openCdp_ok h
    exact Or.inl hk
  | close owner symbl =>
    obtain ⟨_, -, -, -, rfl⟩ := close_ok h
    exact Or.inl hk
  | shut owner symbl =>
    obtain ⟨st, it, _, _, _, _, -, type, -, -, debt, back, rfl⟩ := shut_ok h
    refine Or.inl ((kindOf_insert type ?_).trans hk)
    rcases shutDebt_ok debt with ⟨_, -, -, -, rfl⟩ | ⟨-, -, rfl⟩ <;>
      rcases shutCollateral_ok back with ⟨-, -, -, rfl⟩ | ⟨-, -, rfl⟩ <;> rfl
  | lock owner symbl quantity =>
    obtain ⟨_, _, _, _, -, -, type, -, -, -, -, -, -, -, rfl⟩ := lock_ok h
    refine Or.inl ((kindOf_insert type ?_).trans hk)
    rfl
  | bail owner symbl quantity =>
    obtain ⟨_, _, _, _, _, -, -, type, -, -, -, -, -, -, -, -, -, rfl⟩ := bail_ok h
    refine Or.inl ((kindOf_insert type ?_).trans hk)
    rfl
  | draw owner symbl quantity =>
    obtain ⟨_, _, _, _, _, _, -, -, type, -, -, -, -, -, -, -, -, -, -, rfl⟩ := draw_ok h
    refine Or.inl ((kindOf_insert type ?_).trans hk)
    rfl
  | wipe owner symbl quantity =>
    obtain ⟨_, _, _, _, _, _, _, _, _, -, -, type, -, -, -, -, -, -, -, -, -, -, rfl⟩ := wipe_ok h
    refine Or.inl ((kindOf_insert type ?_).trans hk)
    rfl
  | settle feeder symbl =>
    obtain ⟨_, type, rfl⟩ := settle_ok h
    refine Or.inl ((kindOf_insert type ?_).trans hk)
    rfl
  | vote voter symbl against quantity =>
    obtain ⟨_, _, _, _, _, -, -, -, -, -, -, -, rfl⟩ := vote_ok h
    exact Or.inl hk
  | propose proposer symbl terms =>
    obtain ⟨stats, -, -, free, -, -, filed, -, rfl⟩ := propose_ok h
    rcases fileTerms_ok filed with ⟨-, -, rfl, -⟩ | ⟨-, rfl⟩
    · exact Or.inl hk
    · refine Or.inl ?_
      have other : (c.self, T) ≠ (proposer, symbl) := by
        intro e
        rw [kindOf, e, free] at hk
        cases hk
      simpa only [kindOf, Table.lookup_insert, if_neg other] using hk
  | referended proposer symbl =>
    obtain ⟨-, _, -, -, ⟨-, -, rfl⟩ | ⟨stats, _, -, result, -, rfl⟩⟩ := referended_ok h
    · exact Or.inl hk
    · have enacted : (stats.lookup (c.self, T)).map Stat.kind = some κ := by
        rcases result with ⟨-, enacted⟩ | ⟨-, rfl⟩
        · obtain ⟨new, rfl, written⟩ := enact_ok enacted
          rw [Table.lookup_insert]
          split
          · rename_i e
            rcases written with ⟨st, found, debt, collateral, -⟩ | ⟨absent, -⟩
            · rw [kindOf, e, found, Option.map_some] at hk
              rw [← hk, Option.map_some, Stat.kind, debt, collateral]
              rfl
            · rw [kindOf, e, absent] at hk
              cases hk
          · exact hk
        · exact hk
      by_cases same : (c.self, T) = (proposer, symbl)
      · cases same
        exact Or.inr rfl
      · refine Or.inl ?_
        simp only [kindOf]
        split
        · rw [Table.lookup_erase, if_neg same]
          exact enacted
        · exact enacted
  | liquify bidder owner symbl bidamt =>
    obtain ⟨st, _, _, lot, -, -, type, -, -, bidding, done⟩ := liquify_ok h
    have same := bidding.stat_eq
    refine Or.inl ?_
    rcases finish_ok done with ⟨-, rfl⟩ | ⟨_, _, -, -, rfl⟩
    · exact (kindOf_insert type (by rw [same])).trans hk
    · exact (kindOf_insert type (by rw [same])).trans hk
  | withdraw owner quantity memo =>
    obtain ⟨_, _, _, _, -, -, -, -, -, rfl⟩ := withdraw_ok h
    exact Or.inl hk
  | deposit code source target quantity memo =>
    obtain ⟨-, -, ⟨-, rfl⟩ | ⟨_, _, -, -, -, -, rfl⟩⟩ := deposit_ok (apply_deposit_ok h).2
    · exact Or.inl hk
    · exact Or.inl hk

end Types

section Positions

/-- How a call changes the CDP at a key, `none` being no CDP. -/
inductive CdpStep (c : Ctx) (s : State) :
    Action → SymbolCode × Name → Option Cdp → Option Cdp → Prop
  | opened {owner symbl ramPayer st} (type : s.stats.lookup (c.self, symbl) = some st)
      (feed : Fed s.feeds st.totalCollateral.quantity.symbol.code) :
      CdpStep c s (.openCdp owner symbl ramPayer) (symbl, owner) none (some ⟨c.now,
        ⟨0, st.totalCollateral.quantity.symbol⟩, ⟨0, st.totalStablecoin.symbol⟩, true⟩)
  | freed {owner symbl quantity st it fc amt} (auth : owner ∈ c.auth)
      (positive : 0 < quantity.amount) (type : s.stats.lookup (c.self, symbl) = some st)
      (live : it.live = true) (symbol : it.collateral.symbol = quantity.symbol)
      (less : quantity.amount < it.collateral.amount)
      (feed : s.feeds.lookup it.collateral.symbol.code = some fc)
      (ratio : bailRatio st fc it quantity = .ok amt) (above : st.liquid8Ratio ≤ amt) :
      CdpStep c s (.bail owner symbl quantity) (symbl, owner) (some it) (some { it with
        collateral := ⟨it.collateral.amount - quantity.amount, it.collateral.symbol⟩ })
  | drawn {owner symbl quantity st it fc liq} (auth : owner ∈ c.auth)
      (positive : 0 < quantity.amount) (type : s.stats.lookup (c.self, symbl) = some st)
      (live : it.live = true)
      (symbol : it.stablecoin.symbol = quantity.symbol)
      (small : it.stablecoin.amount + quantity.amount ≤ Asset.maxAmount)
      (feed : s.feeds.lookup it.collateral.symbol.code = some fc)
      (ratio : drawRatio fc it (u64 (it.stablecoin.amount + quantity.amount)) = .ok liq)
      (above : st.liquid8Ratio ≤ liq) (stable : Fed s.feeds it.stablecoin.symbol.code) :
      CdpStep c s (.draw owner symbl quantity) (symbl, owner) (some it) (some { it with
        stablecoin := ⟨it.stablecoin.amount + quantity.amount, it.stablecoin.symbol⟩ })
  | wiped {owner symbl quantity it} (auth : owner ∈ c.auth) (positive : 0 < quantity.amount)
      (live : it.live = true) (symbol : it.stablecoin.symbol = quantity.symbol)
      (less : quantity.amount < it.stablecoin.amount) :
      CdpStep c s (.wipe owner symbl quantity) (symbl, owner) (some it) (some { it with
        stablecoin := ⟨it.stablecoin.amount - quantity.amount, it.stablecoin.symbol⟩ })
  | locked {owner symbl quantity st it accounts} (auth : owner ∈ c.auth)
      (positive : 0 < quantity.amount) (live : it.live = true)
      (symbol : it.collateral.symbol = quantity.symbol)
      (small : it.collateral.amount + quantity.amount ≤ Asset.maxAmount)
      (type : s.stats.lookup (c.self, symbl) = some st)
      (paid : subBalance s.accounts owner quantity = .ok (accounts, st.totalCollateral.contract)) :
      CdpStep c s (.lock owner symbl quantity) (symbl, owner) (some it) (some { it with
        collateral := ⟨it.collateral.amount + quantity.amount, it.collateral.symbol⟩ })
  | shut {owner symbl it} (auth : owner ∈ c.auth) (live : it.live = true) :
      CdpStep c s (.shut owner symbl) (symbl, owner) (some it) none
  | bid {bidder owner symbl bidamt st row it lot new}
      (type : s.stats.lookup (c.self, symbl) = some st) (opened : openAuction c s st row = .ok it)
      (bidding : Bidding c s bidder owner symbl bidamt st it lot)
      (written : (lot.it.stablecoin.amount ≠ 0 ∧ new = some lot.it) ∨
        (lot.it.stablecoin.amount = 0 ∧ new = none)) :
      CdpStep c s (.liquify bidder owner symbl bidamt) (symbl, owner) (some row) new

/-- The CDP that an action works on. -/
def Action.target : Action → Option (SymbolCode × Name)
  | .openCdp owner symbl _ | .shut owner symbl | .lock owner symbl _ | .bail owner symbl _
  | .draw owner symbl _ | .wipe owner symbl _ | .liquify _ owner symbl _ => some (symbl, owner)
  | _ => none

/-- A call leaves the CDPs alone or changes the one it works on. -/
theorem apply_cdps (h : apply c s a = .ok s') :
    (a.target = none ∧ s'.cdps = s.cdps) ∨ ∃ k, a.target = some k ∧
      (∀ j, j ≠ k → s'.cdps.lookup j = s.cdps.lookup j) ∧
      CdpStep c s a k (s.cdps.lookup k) (s'.cdps.lookup k) := by
  have at_insert (k : SymbolCode × Name) (it : Cdp) : ∀ j, j ≠ k →
      (s.cdps.insert k it).lookup j = s.cdps.lookup j := fun j hj => by
    rw [Table.lookup_insert, if_neg hj]
  have at_erase (k : SymbolCode × Name) : ∀ j, j ≠ k →
      (s.cdps.erase k).lookup j = s.cdps.lookup j := fun j hj => by
    rw [Table.lookup_erase, if_neg hj]
  cases a with
  | upfeed feeder price cdpType symbol =>
    obtain ⟨-, rfl⟩ := upfeed_ok h
    exact Or.inl ⟨rfl, rfl⟩
  | openCdp owner symbl ramPayer =>
    obtain ⟨st, fc, type, -, feed, free, rfl⟩ := openCdp_ok h
    refine Or.inr ⟨(symbl, owner), rfl, at_insert _ _, ?_⟩
    simp only [free, AList.lookup_insert]
    exact .opened type (.of_lookup feed)
  | close owner symbl =>
    obtain ⟨_, -, -, -, rfl⟩ := close_ok h
    exact Or.inl ⟨rfl, rfl⟩
  | shut owner symbl =>
    obtain ⟨_, it, _, _, _, _, auth, -, found, live, -, -, rfl⟩ := shut_ok h
    refine Or.inr ⟨(symbl, owner), rfl, at_erase _, ?_⟩
    simp only [found, AList.lookup_erase]
    exact .shut auth live
  | lock owner symbl quantity =>
    obtain ⟨st, it, _, _, auth, positive, type, -, found, live, symbol, paid, small, -, rfl⟩ :=
      lock_ok h
    refine Or.inr ⟨(symbl, owner), rfl, at_insert _ _, ?_⟩
    simp only [found, AList.lookup_insert]
    exact .locked auth positive live symbol small type paid
  | bail owner symbl quantity =>
    obtain ⟨st, it, fc, amt, _, auth, positive, type, -, found, live, symbol, less, feed, ratio,
      above, -, rfl⟩ := bail_ok h
    refine Or.inr ⟨(symbl, owner), rfl, at_insert _ _, ?_⟩
    simp only [found, AList.lookup_insert]
    exact .freed auth positive type live symbol less (symbol ▸ feed) ratio above
  | draw owner symbl quantity =>
    obtain ⟨st, it, fc, liq, fs, _, auth, positive, type, -, found, live, symbol,
      small, feed, ratio, above, stable, -, rfl⟩ := draw_ok h
    refine Or.inr ⟨(symbl, owner), rfl, at_insert _ _, ?_⟩
    simp only [found, AList.lookup_insert]
    exact .drawn auth positive type live symbol small feed ratio above (symbol ▸ .of_lookup stable)
  | wipe owner symbl quantity =>
    obtain ⟨_, it, _, _, _, _, _, _, _, auth, positive, -, -, found, live, symbol, less, -, -, -, -,
      -, rfl⟩ := wipe_ok h
    refine Or.inr ⟨(symbl, owner), rfl, at_insert _ _, ?_⟩
    simp only [found, AList.lookup_insert]
    exact .wiped auth positive live symbol less
  | settle feeder symbl =>
    obtain ⟨_, -, rfl⟩ := settle_ok h
    exact Or.inl ⟨rfl, rfl⟩
  | vote voter symbl against quantity =>
    obtain ⟨_, _, _, _, _, -, -, -, -, -, -, -, rfl⟩ := vote_ok h
    exact Or.inl ⟨rfl, rfl⟩
  | propose proposer symbl terms =>
    obtain ⟨_, -, -, -, -, -, -, -, rfl⟩ := propose_ok h
    exact Or.inl ⟨rfl, rfl⟩
  | referended proposer symbl =>
    obtain ⟨-, _, -, -, ⟨-, -, rfl⟩ | ⟨_, _, -, -, -, rfl⟩⟩ := referended_ok h
    · exact Or.inl ⟨rfl, rfl⟩
    · exact Or.inl ⟨rfl, rfl⟩
  | liquify bidder owner symbl bidamt =>
    obtain ⟨st, row, it, lot, -, -, type, found, opened, bidding, done⟩ := liquify_ok h
    rcases finish_ok done with ⟨left, rfl⟩ | ⟨_, _, paid, -, rfl⟩
    · refine Or.inr ⟨(symbl, owner), rfl, at_insert _ _, ?_⟩
      simp only [found, AList.lookup_insert]
      exact .bid type opened bidding (Or.inl ⟨left, rfl⟩)
    · refine Or.inr ⟨(symbl, owner), rfl, at_erase _, ?_⟩
      simp only [found, AList.lookup_erase]
      exact .bid type opened bidding (Or.inr ⟨paid, rfl⟩)
  | withdraw owner quantity memo =>
    obtain ⟨_, _, _, _, -, -, -, -, -, rfl⟩ := withdraw_ok h
    exact Or.inl ⟨rfl, rfl⟩
  | deposit code source target quantity memo =>
    obtain ⟨-, -, ⟨-, rfl⟩ | ⟨_, _, -, -, -, -, rfl⟩⟩ := deposit_ok (apply_deposit_ok h).2
    · exact Or.inl ⟨rfl, rfl⟩
    · exact Or.inl ⟨rfl, rfl⟩

/-- The same, seen from one key. -/
theorem apply_cdp (h : apply c s a = .ok s') (k : SymbolCode × Name) :
    (a.target ≠ some k ∧ s'.cdps.lookup k = s.cdps.lookup k) ∨
      (a.target = some k ∧ CdpStep c s a k (s.cdps.lookup k) (s'.cdps.lookup k)) := by
  rcases apply_cdps h with ⟨none, same⟩ | ⟨j, target, others, moved⟩
  · exact Or.inl ⟨by simp [none], by rw [same]⟩
  · by_cases hk : k = j
    · exact Or.inr ⟨hk ▸ target, hk ▸ moved⟩
    · exact Or.inl ⟨by simpa [target] using fun e => hk e.symm, others k hk⟩

end Positions

end DecentralBank.Maker
