import DecentralBank.Maker.Effects

/-!
# What every reachable state satisfies

Bounds on the rows that no action breaks, whoever calls it with whatever
arguments.
-/

namespace DecentralBank.Maker

open Runs

structure Stat.Sound (st : Stat) : Prop where
  cents : st.totalStablecoin.symbol.precision = 2
  ratio : 100 ≤ st.liquid8Ratio ∧ st.liquid8Ratio ≤ 1000
  fees : 0 ≤ st.feeBalance.amount

/-- A live CDP holds amounts in range, of a collateral with a feed; a debt is
in a symbol with a feed. A CDP in liquidation has something left to pay. -/
structure Cdp.Sound (feeds : Table SymbolCode Feed) (it : Cdp) : Prop where
  collateral : it.live = true → 0 ≤ it.collateral.amount ∧ it.collateral.amount ≤ Asset.maxAmount
  debt : it.live = true → 0 ≤ it.stablecoin.amount ∧ it.stablecoin.amount ≤ Asset.maxAmount
  secured : it.live = true → Fed feeds it.collateral.symbol.code
  owed : it.live = false ∨ it.stablecoin.amount ≠ 0 → Fed feeds it.stablecoin.symbol.code
  left : it.live = false → it.stablecoin.amount ≠ 0

structure Sound (s : State) : Prop where
  stats : s.stats.All fun _ st => st.Sound
  prices : ∀ k q, quote s.feeds k = some q → 0 ≤ q.1.amount
  cdps : s.cdps.All fun _ it => it.Sound s.feeds
  bids : s.bids.All fun k bt => 0 < bt.bidamt.amount ∧
    ∃ it, s.cdps.lookup k = some it ∧ it.live = false

variable {c : Ctx} {s s' : State} {a : Action}

theorem Sound.empty : Sound State.empty where
  stats := Table.All.empty _
  prices k q hq := by cases hq
  cdps := Table.All.empty _
  bids := Table.All.empty _

theorem Sound.queueless : Queueless Sound := fun _ _ h => ⟨h.1, h.2, h.3, h.4⟩

/-! ## Types -/

/-- The fee of a `wipe` is a quotient of a 64-bit word, far below 2^63. -/
theorem stabilityFee_range {st : Stat} {age apr : Nat} {quantity price : Asset}
    (h : stabilityFee st age quantity price = .ok apr) : i64 apr = apr := by
  simp only [stabilityFee, divI64, Checked.bind_eq_ok, Checked.require_eq_ok, Checked.pure_eq_ok,
    exists_const] at h
  obtain ⟨worth, -, rfl⟩ := h
  have word := u64_lt ((u64 (u64 (1000000 * st.stabilityFee) * age) / SECYR : Nat) * u64 worth)
  exact i64_of_lt (by omega) (by omega)

theorem Terms.draft_sound {t : Terms} (h : t.admitted = true) : t.draft.Sound := by
  simp only [Terms.admitted, decide_eq_true_eq] at h
  exact ⟨rfl, h.2.2.2.2.2.2.1.symm, le_refl 0⟩

theorem enact_sound {stats stats' : Table (Name × SymbolCode) Stat} {symbl : SymbolCode}
    {proposer : Name} (hs : stats.All fun _ st => st.Sound)
    (h : enact c stats symbl (stats.lookup (proposer, symbl)) = .ok stats') :
    stats'.All fun _ st => st.Sound := by
  obtain ⟨new, rfl, ⟨st, found, debt, -, fees, ratio⟩ | ⟨-, p, found, rfl⟩⟩ := enact_ok h
  · have old := hs _ _ found
    refine Table.All.insert hs ⟨debt ▸ old.cents, ?_, fees ▸ old.fees⟩
    rcases ratio with ratio | ⟨p, proposed, ratio⟩
    · exact ratio ▸ old.ratio
    · exact ratio ▸ (hs _ _ proposed).ratio
  · have old := hs _ _ found
    exact Table.All.insert hs ⟨old.cents, old.ratio, old.fees⟩

theorem apply_stats_sound (hs : s.stats.All fun _ st => st.Sound) (h : apply c s a = .ok s') :
    s'.stats.All fun _ st => st.Sound := by
  cases a with
  | upfeed feeder price cdpType symbol =>
    obtain ⟨-, rfl⟩ := upfeed_ok h
    exact hs
  | openCdp owner symbl ramPayer =>
    obtain ⟨_, _, -, -, -, -, rfl⟩ := openCdp_ok h
    exact hs
  | close owner symbl =>
    obtain ⟨_, -, -, -, rfl⟩ := close_ok h
    exact hs
  | shut owner symbl =>
    obtain ⟨st, it, _, stable, _, _, -, type, -, -, debt, -, rfl⟩ := shut_ok h
    have old := hs _ _ type
    refine Table.All.insert hs ⟨?_, old.ratio, old.fees⟩
    rcases shutDebt_ok debt with ⟨_, -, -, -, rfl⟩ | ⟨-, -, rfl⟩ <;> exact old.cents
  | lock owner symbl quantity =>
    obtain ⟨_, _, _, _, -, -, type, -, -, -, -, -, -, -, rfl⟩ := lock_ok h
    have old := hs _ _ type
    exact Table.All.insert hs ⟨old.cents, old.ratio, old.fees⟩
  | bail owner symbl quantity =>
    obtain ⟨_, _, _, _, _, -, -, type, -, -, -, -, -, -, -, -, -, rfl⟩ := bail_ok h
    have old := hs _ _ type
    exact Table.All.insert hs ⟨old.cents, old.ratio, old.fees⟩
  | draw owner symbl quantity =>
    obtain ⟨_, _, _, _, _, _, -, -, type, -, -, -, -, -, -, -, -, -, -, rfl⟩ := draw_ok h
    have old := hs _ _ type
    exact Table.All.insert hs ⟨old.cents, old.ratio, old.fees⟩
  | wipe owner symbl quantity =>
    obtain ⟨st, _, _, apr, _, _, _, _, _, -, -, type, -, -, -, -, -, -, fee, -, -, -, rfl⟩ :=
      wipe_ok h
    have old := hs _ _ type
    have paid := stabilityFee_range fee
    refine Table.All.insert hs ⟨old.cents, old.ratio, ?_⟩
    have := old.fees
    simp only [paid]
    omega
  | settle feeder symbl =>
    obtain ⟨_, type, rfl⟩ := settle_ok h
    have old := hs _ _ type
    exact Table.All.insert hs ⟨old.cents, old.ratio, old.fees⟩
  | vote voter symbl against quantity =>
    obtain ⟨_, _, _, _, _, -, -, -, -, -, -, -, rfl⟩ := vote_ok h
    exact hs
  | propose proposer symbl terms =>
    obtain ⟨_, -, -, -, -, -, filed, -, rfl⟩ := propose_ok h
    rcases fileTerms_ok filed with ⟨-, -, rfl, -⟩ | ⟨admitted, rfl⟩
    · exact hs
    · exact Table.All.insert hs (Terms.draft_sound admitted)
  | referended proposer symbl =>
    obtain ⟨-, _, -, -, ⟨-, -, rfl⟩ | ⟨stats, _, -, result, -, rfl⟩⟩ := referended_ok h
    · exact hs
    · have enacted : stats.All fun _ st => st.Sound := by
        rcases result with ⟨-, enacted⟩ | ⟨-, rfl⟩
        · exact enact_sound hs enacted
        · exact hs
      split
      · exact Table.All.erase enacted _
      · exact enacted
  | liquify bidder owner symbl bidamt =>
    obtain ⟨_, _, _, _, -, -, type, -, -, bidding, done⟩ := liquify_ok h
    have old := hs _ _ type
    rw [← bidding.stat_eq] at old
    rcases finish_ok done with ⟨-, rfl⟩ | ⟨_, _, -, -, rfl⟩
    · exact Table.All.insert hs old
    · exact Table.All.insert hs old
  | withdraw owner quantity memo =>
    obtain ⟨_, _, _, _, -, -, -, -, -, rfl⟩ := withdraw_ok h
    exact hs
  | deposit code source target quantity memo =>
    obtain ⟨-, -, ⟨-, rfl⟩ | ⟨_, _, -, -, -, -, rfl⟩⟩ := deposit_ok (apply_deposit_ok h).2
    · exact hs
    · exact hs

/-! ## Auctions -/

theorem openAuction_dead {st : Stat} {row it : Cdp} (h : openAuction c s st row = .ok it) :
    it.live = false := by
  rcases openAuction_ok h with ⟨dead, rfl⟩ | ⟨_, _, -, -, -, -, -, rfl⟩
  · exact dead
  · rfl

section Bidding

variable {bidder owner : Name} {symbl : SymbolCode} {bidamt : Asset} {st : Stat}
    {it : Cdp} {lot : Lot}

/-- Awarding the collateral leaves the debt and the bid. -/
theorem award_rows {bt : Bid} {spent : Lot} (h : awardCollateral c s st it bt = .ok spent) :
    spent.it.stablecoin = it.stablecoin ∧ spent.it.live = it.live ∧ spent.bt = bt := by
  rcases awardCollateral_ok h with ⟨-, rfl⟩ | ⟨_, _, -, -, -, rfl⟩
  · exact ⟨rfl, rfl, rfl⟩
  · exact ⟨rfl, rfl, rfl⟩

/-- The remainder is converted without a look at the collateral. -/
theorem convert_award {bt : Bid} {spent : Lot} (h : awardCollateral c s st it bt = .ok spent)
    (price : Asset) :
    convertRemainder spent.it price = convertRemainder it price := by
  rcases awardCollateral_ok h with ⟨-, rfl⟩ | ⟨_, _, -, -, -, rfl⟩
  · rfl
  · rfl

theorem Bidding.dead (h : Bidding c s bidder owner symbl bidamt st it lot) (hd : it.live = false) :
    lot.it.live = false := by
  cases h with
  | first _ taken _ =>
    obtain ⟨_, _, -, -, rfl⟩ := firstBid_ok taken
    exact hd
  | next bt _ _ taken =>
    obtain ⟨_, _, _, -, -, -, -, -, rfl⟩ := outbid_ok taken
    exact hd
  | roll bt spent _ _ awarded taken =>
    have award := (award_rows awarded).2.1.trans hd
    rcases offerRemainder_ok taken
      with ⟨-, rfl⟩ | ⟨_, next, _, _, _, debt, -, converted, -, -, -, rfl⟩
    · exact award
    · exact (convertRemainder_ok debt converted).live.trans award

/-- Whatever is owed after a bid is owed in a symbol with a feed. -/
theorem Bidding.owed (h : Bidding c s bidder owner symbl bidamt st it lot)
    (hf : Fed s.feeds it.stablecoin.symbol.code) : Fed s.feeds lot.it.stablecoin.symbol.code := by
  cases h with
  | first _ taken _ =>
    obtain ⟨_, _, -, -, rfl⟩ := firstBid_ok taken
    exact hf
  | next bt _ _ taken =>
    obtain ⟨_, _, _, -, -, -, -, -, rfl⟩ := outbid_ok taken
    exact hf
  | roll bt spent _ _ awarded taken =>
    rcases offerRemainder_ok taken with ⟨-, rfl⟩ | ⟨_, _, _, _, _, -, -, -, symbol, -, feed, rfl⟩
    · exact (award_rows awarded).1 ▸ hf
    · have fed := Fed.of_lookup (symbol ▸ feed)
      rwa [fed_iff_quote, award_quote awarded, ← fed_iff_quote] at fed

/-- The standing bid after a bid is a positive one. -/
theorem Bidding.positive (h : Bidding c s bidder owner symbl bidamt st it lot)
    (hb : 0 < bidamt.amount)
    (hs : ∀ bt, s.bids.lookup (symbl, owner) = some bt → 0 < bt.bidamt.amount) :
    0 < lot.bt.bidamt.amount := by
  cases h with
  | first _ taken _ =>
    obtain ⟨_, _, -, -, rfl⟩ := firstBid_ok taken
    exact hb
  | next bt _ _ taken =>
    obtain ⟨_, _, _, -, -, -, -, -, rfl⟩ := outbid_ok taken
    exact hb
  | roll bt spent standing _ awarded taken =>
    rcases offerRemainder_ok taken with ⟨-, rfl⟩ | ⟨_, _, _, _, _, -, -, -, -, -, -, rfl⟩
    · exact (award_rows awarded).2.2 ▸ hs bt standing
    · exact hb

end Bidding

/-- Opening a liquidation leaves the symbol of the debt. -/
theorem openAuction_owed {st : Stat} {row it : Cdp} (h : openAuction c s st row = .ok it)
    (hr : row.Sound s.feeds) : Fed s.feeds it.stablecoin.symbol.code := by
  rcases openAuction_ok h with ⟨dead, rfl⟩ | ⟨_, _, -, debt, -, -, -, rfl⟩
  · exact hr.owed (Or.inl dead)
  · exact hr.owed (Or.inr (by omega))

/-! ## Steps -/

theorem Cdp.Sound.apply {it : Cdp} (hi : it.Sound s.feeds) (h : Maker.apply c s a = .ok s') :
    it.Sound s'.feeds :=
  ⟨hi.collateral, hi.debt, fun live => (hi.secured live).apply h,
    fun owed => (hi.owed owed).apply h, hi.left⟩

/-- A step of a CDP keeps its bounds. -/
theorem CdpStep.sound {k : SymbolCode × Name} {old new : Option Cdp} (h : CdpStep c s a k old new)
    (ho : ∀ it, old = some it → it.Sound s.feeds) {it : Cdp} (hn : new = some it) :
    it.Sound s.feeds := by
  cases h with
  | opened type feed =>
    cases hn
    exact ⟨fun _ => ⟨le_refl 0, Asset.maxAmount_nonneg⟩,
      fun _ => ⟨le_refl 0, Asset.maxAmount_nonneg⟩, fun _ => feed, by simp, by simp⟩
  | @freed _ _ quantity _ row _ _ _ positive _ live _ less =>
    cases hn
    have row := ho row rfl
    have := row.collateral live
    exact ⟨fun _ => ⟨by simp only; omega, by simp only; omega⟩, row.debt, row.secured,
      row.owed, row.left⟩
  | @drawn _ _ quantity _ row _ _ _ positive _ live _ small _ _ _ stable =>
    cases hn
    have row := ho row rfl
    have := row.debt live
    exact ⟨row.collateral, fun _ => ⟨by simp only; omega, small⟩, row.secured, fun _ => stable,
      by simp [live]⟩
  | @wiped _ _ quantity row _ positive live _ less =>
    cases hn
    have row := ho row rfl
    have := row.debt live
    exact ⟨row.collateral, fun _ => ⟨by simp only; omega, by simp only; omega⟩, row.secured,
      fun _ => row.owed (Or.inr (by omega)), by simp [live]⟩
  | @locked _ _ quantity _ row _ _ positive live _ small =>
    cases hn
    have row := ho row rfl
    have := row.collateral live
    exact ⟨fun _ => ⟨by simp only; omega, small⟩, row.debt, row.secured, row.owed, row.left⟩
  | shut auth live => cases hn
  | @bid _ _ _ _ _ row _ lot _ _ opened bidding written =>
    rcases written with ⟨left, rfl⟩ | ⟨-, rfl⟩
    · cases hn
      have dead := bidding.dead (openAuction_dead opened)
      have owed := bidding.owed (openAuction_owed opened (ho row rfl))
      exact ⟨by simp [dead], by simp [dead], by simp [dead], fun _ => owed,
        fun _ => left⟩
    · cases hn

/-- Only `liquify` touches a CDP in liquidation. -/
theorem dead_kept (h : apply c s a = .ok s') {k : SymbolCode × Name} {it : Cdp}
    (hk : s.cdps.lookup k = some it) (dead : it.live = false) :
    s'.cdps.lookup k = some it ∨ ∃ bidder bidamt, a = .liquify bidder k.2 k.1 bidamt := by
  rcases apply_cdp h k with ⟨-, same⟩ | ⟨-, moved⟩
  · exact Or.inl (same.trans hk)
  · rw [hk] at moved
    generalize hn : s'.cdps.lookup k = new at moved
    cases moved with
    | freed _ _ _ live => simp [live] at dead
    | drawn _ _ _ live => simp [live] at dead
    | wiped _ _ live => simp [live] at dead
    | locked _ _ live => simp [live] at dead
    | shut _ live => simp [live] at dead
    | bid type opened bidding => exact Or.inr ⟨_, _, rfl⟩

theorem apply_bids_sound (hs : Sound s) (h : apply c s a = .ok s') :
    s'.bids.All fun k bt => 0 < bt.bidamt.amount ∧
      ∃ it, s'.cdps.lookup k = some it ∧ it.live = false := by
  intro k bt hk
  by_cases auction : a.auctions = false
  · rw [(apply_frame h).1 auction] at hk
    obtain ⟨positive, it, found, dead⟩ := hs.bids k bt hk
    rcases dead_kept h found dead with kept | ⟨bidder, bidamt, rfl⟩
    · exact ⟨positive, it, kept, dead⟩
    · cases auction
  · cases a with
    | liquify bidder owner symbl bidamt =>
      obtain ⟨st, row, it, lot, -, positive, -, found, opened, bidding, done⟩ := liquify_ok h
      have standing : 0 < lot.bt.bidamt.amount :=
        bidding.positive positive fun bt hb => (hs.bids _ _ hb).1
      obtain ⟨-, cdp, bid⟩ | ⟨rfl, ⟨cdp, bid⟩ | ⟨-, gone⟩⟩ := finish_lookup done k
      · rw [cdp]
        exact hs.bids k bt (bid ▸ hk)
      · cases bid.symm.trans hk
        exact ⟨standing, lot.it, cdp, bidding.dead (openAuction_dead opened)⟩
      · cases gone.symm.trans hk
    | _ => exact absurd rfl auction

theorem Sound.apply (hs : Sound s) (h : Maker.apply c s a = .ok s') : Sound s' where
  stats := apply_stats_sound hs.stats h
  prices k q hq := by
    rcases apply_quote h with same | ⟨_, price, _, symbol, -, positive, rfl⟩
    · exact hs.prices k q (same ▸ hq)
    · obtain old | ⟨-, ⟨-, rfl⟩ | ⟨_, -, rfl⟩⟩ := upfed_quote hq
      · exact hs.prices k q old
      · exact positive.le
      · exact le_refl 0
  cdps k it hk := by
    rcases apply_cdp h k with ⟨-, same⟩ | ⟨-, moved⟩
    · exact (hs.cdps k it (same ▸ hk)).apply h
    · exact (moved.sound (fun it hit => hs.cdps k it hit) hk).apply h
  bids := apply_bids_sound hs h

/-- Every reachable state is sound. -/
theorem sound_after (self : Name) (clock : Nat) (es : List Event) :
    Sound (after self clock es).state :=
  always Sound.queueless (fun _ _ _ _ _ hs h => hs.apply h) Sound.empty

end DecentralBank.Maker
