import DecentralBank.Lib.Ratio
import DecentralBank.Maker.Sound

/-!
# The collateral ratio

`bail`, `draw` and `liquify` each compute the ratio of a CDP. When no product
wraps the three agree, and what `draw` and `bail` admit `liquify` refuses for
as long as the price and the type's ratio stay.
-/

namespace DecentralBank.Maker

open Runs

/-- The ratio in percent: `price` is in stablecoin cents and `10000` the unit
that the code takes the collateral to be counted in. -/
def ratio (price debt collateral : Int) : Int := floored (price * 100) debt collateral 10000

/-- The products of the ratio stay below `2^63`. -/
def Fits (price debt collateral : Int) : Prop :=
  price * 100 < 2 ^ 63 ∧ price * 100 / debt * collateral < 2 ^ 63

instance (price debt collateral : Int) : Decidable (Fits price debt collateral) :=
  inferInstanceAs (Decidable (_ ∧ _))

section Formulas

variable {st : Stat} {fc : Feed} {it : Cdp}

/-- The two steps of the ratio in signed words. -/
theorem ratio_signed {price debt collateral : Int} (hp : 0 ≤ price) (hd : 0 < debt)
    (hc : 0 ≤ collateral) (fits : Fits price debt collateral) :
    divI64 (i64 (price * 100)) debt = .ok (price * 100 / debt) ∧
      divI64 (i64 (price * 100 / debt * collateral)) 10000 =
        .ok (price * 100 / debt * collateral / 10000) ∧
      0 ≤ price * 100 ∧ 0 ≤ price * 100 / debt * collateral := by
  have scaled : 0 ≤ price * 100 := by omega
  have product : 0 ≤ price * 100 / debt * collateral :=
    mul_nonneg (Int.ediv_nonneg scaled hd.le) hc
  rw [i64_of_lt (by omega) fits.1, i64_of_lt (by omega) fits.2]
  exact ⟨divI64_pos scaled hd, divI64_pos product (by omega), scaled, product⟩

theorem ratio_toNat {price debt collateral : Int} (hp : 0 ≤ price) (hd : 0 < debt)
    (hc : 0 ≤ collateral) (fits : Fits price debt collateral) :
    u64 (price * 100 / debt * collateral / 10000) = (ratio price debt collateral).toNat := by
  obtain ⟨-, -, -, product⟩ := ratio_signed hp hd hc fits
  have quotient := Int.ediv_nonneg product (show (0 : Int) ≤ 10000 by omega)
  have small := Int.ediv_le_self 10000 product
  have below := fits.2
  rw [u64_of_nonneg quotient (by omega)]
  rfl

theorem bailRatio_eq {quantity : Asset} (hp : 0 ≤ fc.price.amount) (hd : 0 < it.stablecoin.amount)
    (hc : 0 ≤ it.collateral.amount - quantity.amount)
    (hm : it.collateral.amount - quantity.amount ≤ Asset.maxAmount)
    (fits : Fits fc.price.amount it.stablecoin.amount (it.collateral.amount - quantity.amount)) :
    bailRatio st fc it quantity = .ok
      (ratio fc.price.amount it.stablecoin.amount
        (it.collateral.amount - quantity.amount)).toNat := by
  obtain ⟨first, second, -, -⟩ := ratio_signed hp hd hc fits
  have left : i64 (it.collateral.amount - quantity.amount) =
      it.collateral.amount - quantity.amount :=
    i64_of_lt (by omega) (by unfold Asset.maxAmount at hm; omega)
  simp only [bailRatio, if_neg (show it.stablecoin.amount ≠ 0 by omega), left,
    Checked.bind_eq_ok, Checked.pure_eq_ok]
  exact ⟨_, first, _, second, ratio_toNat hp hd hc fits⟩

theorem drawRatio_eq {debt : Int} (hp : 0 ≤ fc.price.amount) (hd : 0 < debt)
    (hm : debt ≤ Asset.maxAmount) (hc : 0 ≤ it.collateral.amount)
    (hcm : it.collateral.amount ≤ Asset.maxAmount)
    (fits : Fits fc.price.amount debt it.collateral.amount) :
    drawRatio fc it (u64 debt) = .ok (ratio fc.price.amount debt it.collateral.amount).toNat := by
  obtain ⟨-, -, scaled, positive⟩ := ratio_signed hp hd hc fits
  unfold Asset.maxAmount at hm hcm
  have owed : (u64 debt : Int) = debt := u64_of_lt hd.le (by omega)
  have worth : (u64 (fc.price.amount * 100) : Int) = fc.price.amount * 100 :=
    u64_of_lt scaled (by have := fits.1; omega)
  have locked : (u64 it.collateral.amount : Int) = it.collateral.amount := u64_of_lt hc (by omega)
  have product :
      (u64 ((u64 (fc.price.amount * 100) / u64 debt : Nat) * u64 it.collateral.amount) : Int)
      = fc.price.amount * 100 / debt * it.collateral.amount := by
    rw [Int.natCast_ediv, worth, owed, locked]
    exact u64_of_lt positive (by have := fits.2; omega)
  have divides : u64 debt ≠ 0 := by omega
  simp only [drawRatio, divU64, Checked.bind_eq_ok, Checked.require_eq_ok, Checked.pure_eq_ok,
    exists_const]
  refine ⟨_, ⟨divides, rfl⟩, ?_⟩
  have quotient := congrArg (· / (10000 : Int)) product
  simp only [ratio, floored] at quotient ⊢
  omega

theorem liquifyRatio_eq (hp : 0 ≤ fc.price.amount) (hd : 0 < it.stablecoin.amount)
    (hc : 0 ≤ it.collateral.amount)
    (fits : Fits fc.price.amount it.stablecoin.amount it.collateral.amount) :
    liquifyRatio fc it = .ok
      (ratio fc.price.amount it.stablecoin.amount it.collateral.amount).toNat := by
  obtain ⟨first, second, -, -⟩ := ratio_signed hp hd hc fits
  simp only [liquifyRatio, Checked.bind_eq_ok, Checked.pure_eq_ok]
  exact ⟨_, first, _, second, ratio_toNat hp hd hc fits⟩

end Formulas

/-! ## What `draw` and `bail` admit -/

/-- The actions that check the ratio before they lower it. -/
def Action.checks (owner : Name) (symbl : SymbolCode) : Action → Bool
  | .bail o t _ | .draw o t _ => decide (o = owner ∧ t = symbl)
  | _ => false

variable {c : Ctx} {s s' : State} {a : Action} {owner : Name} {symbl : SymbolCode}

theorem toNat_le_ratio {price debt collateral : Int} {liq : Nat} (hp : 0 ≤ price) (hd : 0 < debt)
    (hc : 0 ≤ collateral) (h : liq ≤ (ratio price debt collateral).toNat) :
    (liq : Int) ≤ ratio price debt collateral := by
  have := floored_nonneg (show 0 ≤ price * 100 by omega) hd hc (show (0 : Int) < 10000 by omega)
  unfold ratio at h ⊢
  omega

theorem Sound.price (hs : Sound s) {k : SymbolCode} {fc : Feed}
    (feed : s.feeds.lookup k = some fc) :
    0 ≤ fc.price.amount :=
  hs.prices k _ (quote_of_lookup feed)

/-- A debt that `draw` or `bail` leaves is covered at the type's ratio. -/
theorem CdpStep.checked (hs : Sound s) {old : Option Cdp} {it : Cdp} {st : Stat} {fc : Feed}
    (h : CdpStep c s a (symbl, owner) old (some it)) (ho : s.cdps.lookup (symbl, owner) = old)
    (checks : a.checks owner symbl = true) (type : s.stats.lookup (c.self, symbl) = some st)
    (feed : s.feeds.lookup it.collateral.symbol.code = some fc) (debt : 0 < it.stablecoin.amount)
    (fits : Fits fc.price.amount it.stablecoin.amount it.collateral.amount) :
    (st.liquid8Ratio : Int) ≤ ratio fc.price.amount it.stablecoin.amount it.collateral.amount := by
  have price := hs.price feed
  cases h with
  | @freed _ _ quantity _ row _ amt _ positive type' live _ less feed' computed above =>
    cases type.symm.trans type'
    cases feed.symm.trans feed'
    have range := (hs.cdps _ _ ho).collateral live
    have left : 0 ≤ row.collateral.amount - quantity.amount := by omega
    have owed : 0 < row.stablecoin.amount := debt
    rw [bailRatio_eq price owed left (by omega) fits] at computed
    cases computed
    exact toNat_le_ratio price owed left above
  | @drawn _ _ quantity _ row _ liq _ positive type' live _ small feed' computed above =>
    cases type.symm.trans type'
    cases feed.symm.trans feed'
    have range := (hs.cdps _ _ ho).collateral live
    rw [drawRatio_eq price debt small range.1 range.2 fits] at computed
    cases computed
    exact toNat_le_ratio price debt range.1 above
  | opened | wiped | locked => cases checks
  | bid type' opened bidding => cases checks

theorem checks_step (h : apply c s a = .ok s') (checks : a.checks owner symbl = true) :
    CdpStep c s a (symbl, owner) (s.cdps.lookup (symbl, owner))
      (s'.cdps.lookup (symbl, owner)) := by
  have target : a.target = some (symbl, owner) := by
    cases a <;> simp_all [Action.checks, Action.target]
  rcases apply_cdp h (symbl, owner) with ⟨other, -⟩ | ⟨-, moved⟩
  · exact absurd target other
  · exact moved

theorem CdpStep.checks_live {old : Option Cdp} {it : Cdp}
    (h : CdpStep c s a (symbl, owner) old (some it)) (checks : a.checks owner symbl = true) :
    it.live = true := by
  cases h with
  | freed _ _ _ live => exact live
  | drawn _ _ _ live => exact live
  | opened | wiped | locked => cases checks
  | bid => cases checks

/-- In exact arithmetic: the collateral is worth the type's percentage of the
debt, at the price of one whole token. -/
def Collateralised (st : Stat) (fc : Feed) (it : Cdp) : Prop :=
  st.liquid8Ratio * it.stablecoin.amount * 10 ^ it.collateral.symbol.precision ≤
    fc.price.amount * it.collateral.amount * 100

instance (st : Stat) (fc : Feed) (it : Cdp) : Decidable (Collateralised st fc it) :=
  inferInstanceAs (Decidable (_ ≤ _))

/-- What `draw` or `bail` admits is collateralised, for tokens of at most four decimals. -/
theorem checked_collateralised (self : Name) (clock : Nat) (es : List Event) (e : Event)
    (owner : Name) (symbl : SymbolCode) (ok : Succeeds self (after self clock es) e c s a)
    (checks : a.checks owner symbl = true)
    {st : Stat} {fc : Feed} {it : Cdp} (type : s.stats.lookup (self, symbl) = some st)
    (found : (step self (after self clock es) e).state.cdps.lookup (symbl, owner) = some it)
    (feed : s.feeds.lookup it.collateral.symbol.code = some fc) (debt : 0 < it.stablecoin.amount)
    (fits : Fits fc.price.amount it.stablecoin.amount it.collateral.amount)
    (units : it.collateral.symbol.precision ≤ 4) : Collateralised st fc it := by
  obtain ⟨rfl, sound⟩ := call_meets Sound.queueless (sound_after _ clock es) ok.called
  have moved := checks_step ok.done checks
  rw [found] at moved
  have above := moved.checked sound rfl checks type feed debt fits
  have collateral := (moved.sound (fun row h => sound.cdps _ row h) rfl).collateral
    (moved.checks_live checks)
  have covered := mul_le_of_le_floored debt collateral.1 (by omega) above
  have scale : (10 : Int) ^ it.collateral.symbol.precision ≤ 10 ^ 4 :=
    pow_le_pow_right₀ (by omega) units
  have owed : (0 : Int) ≤ st.liquid8Ratio * it.stablecoin.amount := mul_nonneg (by omega) debt.le
  calc (st.liquid8Ratio : Int) * it.stablecoin.amount * 10 ^ it.collateral.symbol.precision
      ≤ st.liquid8Ratio * it.stablecoin.amount * 10 ^ 4 := mul_le_mul_of_nonneg_left scale owed
    _ = st.liquid8Ratio * 10000 * it.stablecoin.amount := by ring
    _ ≤ fc.price.amount * 100 * it.collateral.amount := covered
    _ = fc.price.amount * it.collateral.amount * 100 := by ring

section

open Sample

theorem checked_collateralised_fud :
    Collateralised { (terms EOS 150).draft with
        live := true, lastVote := 1005, totalCollateral := ⟨⟨1000000, EOS⟩, eosioToken⟩ }
      ⟨⟨0, EOS⟩, ⟨200, USD⟩, 1000⟩ ⟨1005, ⟨1000000, EOS⟩, ⟨10000, USD⟩, true⟩ :=
  checked_collateralised daiqcontract 1000 (funded EOS 200 1000000) (borrow 10000) nick FUD
    (.of_isOk rfl (by decide +kernel)) (by decide) (by decide +kernel) (by decide +kernel)
    (by decide +kernel) (by decide) (by decide) (by decide)

/-- A token of eight decimals, 2 USD each: one of them is let back 200 USD. -/
theorem eight_decimals_uncollateralised : ∃ c s st fc it,
    Succeeds daiqcontract (after daiqcontract 1000 (funded ⟨EOS.code, 8⟩ 200 100000000))
        (borrow 20000) c s (.draw nick FUD ⟨20000, USD⟩) ∧
      s.stats.lookup (daiqcontract, FUD) = some st ∧
      (step daiqcontract (after daiqcontract 1000 (funded ⟨EOS.code, 8⟩ 200 100000000))
        (borrow 20000)).state.cdps.lookup (FUD, nick) = some it ∧
      s.feeds.lookup it.collateral.symbol.code = some fc ∧ 0 < it.stablecoin.amount ∧
      Fits fc.price.amount it.stablecoin.amount it.collateral.amount ∧
      ¬ Collateralised st fc it :=
  ⟨_, _, { (terms ⟨EOS.code, 8⟩ 150).draft with
      live := true, lastVote := 1005
      totalCollateral := ⟨⟨100000000, ⟨EOS.code, 8⟩⟩, eosioToken⟩ },
    ⟨⟨0, ⟨EOS.code, 8⟩⟩, ⟨200, USD⟩, 1000⟩,
    ⟨1005, ⟨100000000, ⟨EOS.code, 8⟩⟩, ⟨20000, USD⟩, true⟩,
    .of_isOk rfl (by decide +kernel), by decide +kernel, by decide +kernel, by decide +kernel,
    by decide, by decide, by decide⟩

end

/-! ## What `liquify` admits -/

/-- In exact arithmetic, on the code's unit: the CDP is below the type's ratio. -/
def Undercollateralised (st : Stat) (fc : Feed) (it : Cdp) : Prop :=
  fc.price.amount * 100 * it.collateral.amount <
    st.liquid8Ratio * (it.stablecoin.amount * 10000)

/-- Ten thousand times the ratio, as `liquify` computes it in signed words. -/
def computed (fc : Feed) (it : Cdp) : Int :=
  i64 ((i64 (fc.price.amount * 100)).tdiv it.stablecoin.amount * it.collateral.amount)

/-- What the computed ratio lacks to the type's, in ten-thousandths. -/
def shortfall (st : Stat) (fc : Feed) (it : Cdp) : Int :=
  st.liquid8Ratio * 10000 - computed fc it

/-- What the words drop of the exact product: the remainder of the price by the
debt, and what the two products lose by wrapping. -/
def dropped (fc : Feed) (it : Cdp) : Int :=
  (i64 (fc.price.amount * 100)).tmod it.stablecoin.amount * it.collateral.amount +
    (fc.price.amount * 100 - i64 (fc.price.amount * 100)) * it.collateral.amount +
    ((i64 (fc.price.amount * 100)).tdiv it.stablecoin.amount * it.collateral.amount -
      computed fc it) * it.stablecoin.amount

/-- The computed ratio falls short of the type's. A negative one does not: it
is compared as an unsigned word. -/
def FallsShort (st : Stat) (fc : Feed) (it : Cdp) : Prop :=
  -10000 < computed fc it ∧ 0 < shortfall st fc it

/-- The computed ratio falls short, by no more than the words have dropped. -/
def Masked (st : Stat) (fc : Feed) (it : Cdp) : Prop :=
  FallsShort st fc it ∧ shortfall st fc it * it.stablecoin.amount ≤ dropped fc it

instance (st : Stat) (fc : Feed) (it : Cdp) : Decidable (Undercollateralised st fc it) :=
  inferInstanceAs (Decidable (_ < _))

instance (st : Stat) (fc : Feed) (it : Cdp) : Decidable (Masked st fc it) :=
  inferInstanceAs (Decidable ((_ ∧ _) ∧ _))

section Opening

variable {st : Stat} {fc : Feed} {it : Cdp}

/-- When the products fit, `liquify` opens a live CDP only if the truncated ratio falls short. -/
theorem opened_below (hi : it.Sound s.feeds) (hp : 0 ≤ fc.price.amount) (live : it.live = true)
    (feed : s.feeds.lookup it.collateral.symbol.code = some fc)
    (fits : Fits fc.price.amount it.stablecoin.amount it.collateral.amount) {opened : Cdp}
    (h : openAuction c s st it = .ok opened) :
    0 < it.stablecoin.amount ∧
      ratio fc.price.amount it.stablecoin.amount it.collateral.amount < st.liquid8Ratio := by
  rcases openAuction_ok h with ⟨dead, -⟩ | ⟨fc', liq, -, debt, feed', computed, below, -⟩
  · rw [live] at dead
    cases dead
  · cases feed.symm.trans feed'
    rw [liquifyRatio_eq hp debt (hi.collateral live).1 fits] at computed
    cases computed
    exact ⟨debt, by omega⟩

theorem liquifyRatio_computed (debt : 0 < it.stablecoin.amount) :
    liquifyRatio fc it = .ok (u64 ((computed fc it).tdiv 10000)) := by
  simp only [liquifyRatio, divI64, computed, Checked.bind_eq_ok, Checked.require_eq_ok,
    Checked.pure_eq_ok, exists_const]
  exact ⟨_, ⟨by omega, by omega, rfl⟩, _, ⟨by omega, by omega, rfl⟩, rfl⟩

/-- The test of `liquify` in words. A negative quotient is above every ratio
that `propose` admits. -/
theorem below_iff_fallsShort (hst : st.Sound) :
    u64 ((computed fc it).tdiv 10000) < st.liquid8Ratio ↔ FallsShort st fc it := by
  have range : -2 ^ 63 ≤ computed fc it ∧ computed fc it < 2 ^ 63 := i64_range _
  have admitted := hst.ratio
  unfold FallsShort shortfall
  generalize computed fc it = x at range ⊢
  rcases le_or_gt 0 x with positive | negative
  · have word : (u64 (x.tdiv 10000) : Int) = x / 10000 := by
      rw [Int.tdiv_eq_ediv_of_nonneg positive]
      exact u64_of_lt (by omega) (by omega)
    omega
  · obtain ⟨y, rfl⟩ : ∃ y, x = -y := ⟨-x, (neg_neg x).symm⟩
    have word := u64_emod ((-y).tdiv 10000)
    have below := u64_lt ((-y).tdiv 10000)
    rw [Int.neg_tdiv, Int.tdiv_eq_ediv_of_nonneg (by omega)] at word below ⊢
    omega

/-- `liquify` opens a live CDP only if its computed ratio falls short. -/
theorem opened_fallsShort (hst : st.Sound) (live : it.live = true)
    (feed : s.feeds.lookup it.collateral.symbol.code = some fc) {opened : Cdp}
    (h : openAuction c s st it = .ok opened) : FallsShort st fc it := by
  obtain ⟨dead, -⟩ | ⟨fc', liq, -, debt, feed', ratio, below, -⟩ := openAuction_ok h
  · cases live.symm.trans dead
  · cases feed.symm.trans feed'
    rw [liquifyRatio_computed debt] at ratio
    cases ratio
    exact (below_iff_fallsShort hst).mp below

/-- With a debt and a usable price, that is all it asks. -/
theorem opens_of_fallsShort (hst : st.Sound) (live : it.live = true)
    (debt : 0 < it.stablecoin.amount)
    (feed : s.feeds.lookup it.collateral.symbol.code = some fc)
    (fresh : c.freshSince ≤ fc.stamp ∨ st.live = false) (short : FallsShort st fc it) :
    ∃ opened, openAuction c s st it = .ok opened := by
  have below := (below_iff_fallsShort hst).mpr short
  simp only [openAuction, live, if_true, Checked.bind_eq_ok, Checked.require_eq_ok,
    Checked.find_eq_ok, Checked.pure_eq_ok, exists_const]
  exact ⟨_, debt, fc, feed, fresh, _, liquifyRatio_computed debt, below, rfl⟩

/-- The exact product is the computed ratio times the debt, and what was dropped. -/
theorem exact_eq_add_dropped (fc : Feed) (it : Cdp) :
    fc.price.amount * 100 * it.collateral.amount =
      computed fc it * it.stablecoin.amount + dropped fc it := by
  have divided := Int.mul_tdiv_add_tmod (i64 (fc.price.amount * 100)) it.stablecoin.amount
  have product := congrArg (· * it.collateral.amount) divided
  simp only [add_mul] at product
  unfold dropped
  linarith

/-- A CDP that falls short is undercollateralised unless the words mask it. -/
theorem undercollateralised_iff (short : FallsShort st fc it) :
    Undercollateralised st fc it ↔ ¬ Masked st fc it := by
  have split := exact_eq_add_dropped fc it
  have owed : (st.liquid8Ratio : Int) * (it.stablecoin.amount * 10000) =
      computed fc it * it.stablecoin.amount + shortfall st fc it * it.stablecoin.amount := by
    unfold shortfall
    ring
  rw [Undercollateralised, split, owed, Int.add_lt_add_iff_left, Masked, not_and, not_le]
  exact ⟨fun h _ => h, fun h => h short⟩

end Opening

section

open Sample

/-- `nick` owes 1.00 USD against 100 EOS at 2.00 USD, and locks nine trillion EOS more. -/
def hoarded : List Event :=
  funded EOS 200 1000000 ++
  [ borrow 100,
    .act [nick] (.deposit eosioToken nick daiqcontract ⟨92233720367547759, EOS⟩ []),
    .act [nick] (.lock nick FUD ⟨92233720367547759, EOS⟩) ]

/-- After the events, `nick` puts a CDP of his that is not below its type's ratio up for auction. -/
def LiquifiedAbove (es : List Event) (bidamt : Asset) : Prop :=
  ∃ c s st fc it, Succeeds daiqcontract (after daiqcontract 1000 es)
      (.act [nick] (.liquify nick nick FUD bidamt)) c s (.liquify nick nick FUD bidamt) ∧
    s.stats.lookup (daiqcontract, FUD) = some st ∧
    s.cdps.lookup (FUD, nick) = some it ∧ it.live = true ∧
    s.feeds.lookup it.collateral.symbol.code = some fc ∧ ¬ Undercollateralised st fc it

end

/-! ## The tests agree -/

/-- The products fit of the CDP at a key, with more debt and less collateral. -/
def FitsAt (s : State) (k : SymbolCode × Name) (more less : Int) : Prop :=
  ∀ it ∈ s.cdps.lookup k, ∀ fc ∈ s.feeds.lookup it.collateral.symbol.code,
    Fits fc.price.amount (it.stablecoin.amount + more) (it.collateral.amount - less)

/-- The products fit of the ratio that a call computes, if it computes one. -/
def CheckFits (s : State) : Action → Prop
  | .draw owner symbl quantity => FitsAt s (symbl, owner) quantity.amount 0
  | .bail owner symbl quantity => FitsAt s (symbl, owner) 0 quantity.amount
  | .liquify _ owner symbl _ => FitsAt s (symbl, owner) 0 0
  | _ => True

instance (s : State) (k : SymbolCode × Name) (more less : Int) : Decidable (FitsAt s k more less) :=
  inferInstanceAs (Decidable (∀ it ∈ s.cdps.lookup k, ∀ fc ∈ s.feeds.lookup _, Fits _ _ _))

instance (s : State) : (a : Action) → Decidable (CheckFits s a)
  | .draw .. | .bail .. | .liquify .. => inferInstanceAs (Decidable (FitsAt ..))
  | .openCdp .. | .close .. | .shut .. | .lock .. | .wipe .. | .settle .. | .vote .. | .propose ..
  | .referended .. | .upfeed .. | .withdraw .. | .deposit .. => isTrue trivial

def priceOf (s : State) (k : SymbolCode) : Option Int :=
  (s.feeds.lookup k).map fun f => f.price.amount

def ratioOf (self : Name) (s : State) (symbl : SymbolCode) : Option Nat :=
  (s.stats.lookup (self, symbl)).map Stat.liquid8Ratio

/-- The event leaves the price at `k` and the ratio of the type, computes no
ratio that wraps, and does not shut the owner's CDP. -/
def Undisturbed (self owner : Name) (symbl k : SymbolCode) (w : World) (e : Event) : Prop :=
  priceOf (step self w e).state k = priceOf w.state k ∧
    ratioOf self (step self w e).state symbl = ratioOf self w.state symbl ∧
    Meets self (fun _ s a => CheckFits s a ∧ a ≠ .shut owner symbl) w e

instance (self owner : Name) (symbl k : SymbolCode) (w : World) (e : Event) :
    Decidable (Undisturbed self owner symbl k w e) :=
  inferInstanceAs (Decidable (_ ∧ _ ∧ _))

/-- A live CDP with no debt or at least the ratio `liq` at the price `price`. -/
structure Guarded (price : Int) (liq : Nat) (k : SymbolCode) (it : Cdp) : Prop where
  live : it.live = true
  secured : it.collateral.symbol.code = k
  above : it.stablecoin.amount = 0 ∨
    (liq : Int) ≤ ratio price it.stablecoin.amount it.collateral.amount

section Guard

variable {price : Int} {liq : Nat} {k : SymbolCode} {it : Cdp}

theorem priceOf_some (h : priceOf s k = some price) :
    ∃ fc, s.feeds.lookup k = some fc ∧ fc.price.amount = price := by
  simpa only [priceOf, Option.map_eq_some_iff] using h

theorem ratioOf_some {self : Name} (h : ratioOf self s symbl = some liq) :
    ∃ st, s.stats.lookup (self, symbl) = some st ∧ st.liquid8Ratio = liq := by
  simpa only [ratioOf, Option.map_eq_some_iff] using h

theorem Guarded.refuses (g : Guarded price liq k it) (hs : Sound s)
    (found : s.cdps.lookup (symbl, owner) = some it) (hp : priceOf s k = some price)
    (hr : ratioOf c.self s symbl = some liq) (fits : FitsAt s (symbl, owner) 0 0) {st : Stat}
    (type : s.stats.lookup (c.self, symbl) = some st) (opened : Cdp) :
    openAuction c s st it ≠ .ok opened := by
  intro h
  obtain ⟨fc, feed, rfl⟩ := priceOf_some hp
  obtain ⟨st', type', rfl⟩ := ratioOf_some hr
  cases type.symm.trans type'
  rw [← g.secured] at feed
  have inRange := fits it found fc feed
  rw [add_zero, sub_zero] at inRange
  obtain ⟨debt, below⟩ :=
    opened_below (hs.cdps _ _ found) (hs.price feed) g.live feed inRange h
  rcases g.above with none | above
  · omega
  · omega

/-- `draw`, `bail`, `lock` and `wipe` keep a CDP guarded, and `liquify` cannot touch it. -/
theorem CdpStep.guarded {new : Option Cdp} (hs : Sound s)
    (h : CdpStep c s a (symbl, owner) (some it) new) (g : Guarded price liq k it)
    (found : s.cdps.lookup (symbl, owner) = some it) (hp : priceOf s k = some price)
    (hr : ratioOf c.self s symbl = some liq) (fits : CheckFits s a)
    (still : a ≠ .shut owner symbl) :
    ∃ it', new = some it' ∧ Guarded price liq k it' := by
  have row := hs.cdps _ _ found
  obtain ⟨fc, feed, paid⟩ := priceOf_some hp
  obtain ⟨st, type, required⟩ := ratioOf_some hr
  have scaled : 0 ≤ price * 100 := by
    have := hs.price feed
    omega
  cases h with
  | @freed _ _ quantity _ _ _ _ auth positive type' live symbol less feed' computed above =>
    have step := CdpStep.freed auth positive type' live symbol less feed' computed above
    refine ⟨_, rfl, live, g.secured, ?_⟩
    by_cases none : it.stablecoin.amount = 0
    · exact Or.inl none
    · have debt : 0 < it.stablecoin.amount := by
        have := (row.debt live).1
        omega
      rw [← g.secured] at feed
      have inRange := fits it found fc feed
      rw [add_zero] at inRange
      have := step.checked hs found (by simp [Action.checks]) type feed debt inRange
      rw [required, paid] at this
      exact Or.inr this
  | @drawn _ _ quantity _ _ _ _ auth positive type' live symbol small feed' computed above stable =>
    have step := CdpStep.drawn auth positive type' live symbol small feed' computed above stable
    refine ⟨_, rfl, live, g.secured, Or.inr ?_⟩
    have debt : 0 < it.stablecoin.amount + quantity.amount := by
      have := (row.debt live).1
      omega
    rw [← g.secured] at feed
    have inRange := fits it found fc feed
    rw [sub_zero] at inRange
    have := step.checked hs found (by simp [Action.checks]) type feed debt inRange
    rw [required, paid] at this
    exact this
  | @wiped _ _ quantity _ auth positive live symbol less =>
    refine ⟨_, rfl, live, g.secured, Or.inr ?_⟩
    have left : 0 < it.stablecoin.amount - quantity.amount := by omega
    have fewer : it.stablecoin.amount - quantity.amount ≤ it.stablecoin.amount := by omega
    rcases g.above with none | above
    · omega
    · exact above.trans (floored_mono scaled left fewer (row.collateral live).1 (le_refl _)
        (by omega))
  | @locked _ _ quantity _ _ _ auth positive live symbol small =>
    refine ⟨_, rfl, live, g.secured, ?_⟩
    rcases g.above with none | above
    · exact Or.inl none
    · by_cases none : it.stablecoin.amount = 0
      · exact Or.inl none
      · have debt : 0 < it.stablecoin.amount := by
          have := (row.debt live).1
          omega
        have more : it.collateral.amount ≤ it.collateral.amount + quantity.amount := by omega
        exact Or.inr (above.trans (floored_mono scaled debt (le_refl _) (row.collateral live).1 more
          (by omega)))
  | shut auth live => exact absurd rfl still
  | bid type' opened bidding => exact absurd opened (g.refuses hs found hp hr fits type' _)

end Guard

/-- The invariant of a CDP that `draw` or `bail` has checked. -/
structure Watched (own owner : Name) (symbl k : SymbolCode) (p : Int) (liq : Nat) (s : State) :
    Prop where
  sound : Sound s
  price : priceOf s k = some p
  ratio : ratioOf own s symbl = some liq
  guarded : ∃ it, s.cdps.lookup (symbl, owner) = some it ∧ Guarded p liq k it

theorem Watched.queueless {self : Name} {k : SymbolCode} {p : Int} {liq : Nat} :
    Queueless (Watched self owner symbl k p liq) := fun s d h =>
  ⟨Sound.queueless s d h.sound, h.price, h.ratio, h.guarded⟩

theorem Watched.step {self : Name} {k : SymbolCode} {p : Int} {liq : Nat} {w : World} {e : Event}
    (h : Watched self owner symbl k p liq w.state) (quiet : Undisturbed self owner symbl k w e) :
    Watched self owner symbl k p liq (step self w e).state := by
  obtain ⟨price, ratio, calm⟩ := quiet
  have price' := price.trans h.price
  have ratio' := ratio.trans h.ratio
  rcases step_cases self w e with ⟨d, same, -⟩ | ⟨c, d, a, called, rfl, applied, -⟩
  · rw [same]
    exact Watched.queueless _ d h
  · have before := Watched.queueless _ d h
    obtain ⟨fits, notShut⟩ := calm _ called
    refine ⟨before.sound.apply applied, price', ratio', ?_⟩
    obtain ⟨it, found, guard⟩ := before.guarded
    rcases apply_cdp applied (symbl, owner) with ⟨-, same⟩ | ⟨-, moved⟩
    · exact ⟨it, same.trans found, guard⟩
    · rw [found] at moved
      exact moved.guarded before.sound guard found before.price before.ratio fits notShut

theorem CdpStep.fits {old : Option Cdp} {it : Cdp} {fc : Feed}
    (h : CdpStep c s a (symbl, owner) old (some it)) (ho : s.cdps.lookup (symbl, owner) = old)
    (checks : a.checks owner symbl = true) (fits : CheckFits s a)
    (feed : s.feeds.lookup it.collateral.symbol.code = some fc) :
    Fits fc.price.amount it.stablecoin.amount it.collateral.amount := by
  cases h with
  | @freed _ _ quantity _ row =>
    have inRange := fits row ho fc feed
    rwa [add_zero] at inRange
  | @drawn _ _ quantity _ row =>
    have inRange := fits row ho fc feed
    rwa [sub_zero] at inRange
  | opened | wiped | locked => cases checks
  | bid => cases checks

/-- `draw` and `bail` leave the price and the ratio they have read. -/
theorem checks_terms (h : apply c s a = .ok s') (checks : a.checks owner symbl = true) :
    (∀ k, priceOf s' k = priceOf s k) ∧
      ∃ st, s.stats.lookup (c.self, symbl) = some st ∧
        ratioOf c.self s' symbl = some st.liquid8Ratio := by
  have price : ∀ k, priceOf s' k = priceOf s k := by
    rcases apply_quote h with same | ⟨_, _, _, _, rfl, -⟩
    · intro k
      have := congrArg (Option.map fun q => q.1.amount) (congrFun same k)
      simpa only [quote, priceOf, Option.map_map, Function.comp_def] using this
    · cases checks
  refine ⟨price, ?_⟩
  cases a with
  | bail o t quantity =>
    obtain ⟨rfl, rfl⟩ : o = owner ∧ t = symbl := by simpa [Action.checks] using checks
    obtain ⟨st, _, _, _, _, -, -, type, -, -, -, -, -, -, -, -, -, rfl⟩ := bail_ok h
    exact ⟨st, type, by simp [ratioOf]⟩
  | draw o t quantity =>
    obtain ⟨rfl, rfl⟩ : o = owner ∧ t = symbl := by simpa [Action.checks] using checks
    obtain ⟨st, _, _, _, _, _, -, -, type, -, -, -, -, -, -, -, -, -, -, rfl⟩ := draw_ok h
    exact ⟨st, type, by simp [ratioOf]⟩
  | _ => cases checks

/-- A CDP is watched from the `draw` or `bail` that leaves it a debt. -/
theorem watched_of_checks (hs : Sound s) (h : apply c s a = .ok s')
    (checks : a.checks owner symbl = true) (fits : CheckFits s a) {it : Cdp}
    (found : s'.cdps.lookup (symbl, owner) = some it) (debt : 0 < it.stablecoin.amount) :
    ∃ p liq, Watched c.self owner symbl it.collateral.symbol.code p liq s' := by
  have moved := checks_step h checks
  rw [found] at moved
  have live := moved.checks_live checks
  have secured := (moved.sound (fun row h => hs.cdps _ row h) rfl).secured live
  obtain ⟨fc, feed⟩ := Option.isSome_iff_exists.mp secured
  obtain ⟨price, st, type, ratio⟩ := checks_terms h checks
  have above := moved.checked hs rfl checks type feed debt (moved.fits rfl checks fits feed)
  refine ⟨fc.price.amount, st.liquid8Ratio, hs.apply h, ?_, ratio, it, found, live, rfl,
    Or.inr above⟩
  rw [price, priceOf, feed, Option.map_some]

/-- After a `draw` or `bail` that leaves a debt, `liquify` refuses the CDP for
as long as the price and the ratio stay, whatever anyone does meanwhile. -/
theorem checked_not_liquified (self : Name) (clock : Nat) (es : List Event) (e : Event)
    (fs : List Event) (owner : Name) (symbl : SymbolCode) (it : Cdp)
    (ok : Succeeds self (after self clock es) e c s a) (checks : a.checks owner symbl = true)
    (found : (step self (after self clock es) e).state.cdps.lookup (symbl, owner) = some it)
    (debt : 0 < it.stablecoin.amount) (fits : CheckFits s a)
    (quiet : Along (step self) (Undisturbed self owner symbl it.collateral.symbol.code)
      (step self (after self clock es) e) fs)
    (c' : Ctx) (own : c'.self = self) (bidder : Name) (bidamt : Asset)
    (fits' : CheckFits (run (step self) (step self (after self clock es) e) fs).state
      (.liquify bidder owner symbl bidamt)) :
    ∃ message, apply c' (run (step self) (step self (after self clock es) e) fs).state
      (.liquify bidder owner symbl bidamt) = .error message := by
  obtain ⟨rfl, sound⟩ := call_meets Sound.queueless (sound_after _ clock es) ok.called
  obtain ⟨p, liq, watched⟩ := watched_of_checks sound ok.done checks fits found debt
  have final := run_invariant
    (I := fun w => Watched c.self owner symbl it.collateral.symbol.code p liq w.state)
    (fun w e => Watched.step) watched quiet
  generalize run (step c.self) (step c.self (after c.self clock es) e) fs = w at final fits'
  cases tried : apply c' w.state (.liquify bidder owner symbl bidamt) with
  | error message => exact ⟨message, rfl⟩
  | ok s' =>
    obtain ⟨st, row, opened, _, -, -, type, here, opening, -, -⟩ := liquify_ok tried
    obtain ⟨row', there, guard⟩ := final.guarded
    cases here.symm.trans there
    rw [← own] at final
    exact absurd opening
      (guard.refuses final.sound there final.price final.ratio fits' type opened)

section

open Sample

theorem checked_not_liquified_fud :
    ∃ message, apply ⟨daiqcontract, [nick], 1005⟩
      (run (step daiqcontract)
        (step daiqcontract (after daiqcontract 1000
          (funded EOS 200 2000000 ++
            [.act [nick] (.deposit IQ_NAME nick daiqcontract ⟨1000, IQ_SYMBOL⟩ [])]))
              (borrow 10000))
        [.act [nick] (.wipe nick FUD ⟨2500, USD⟩), .act [nick] (.bail nick FUD ⟨300000, EOS⟩),
          .act [nick] (.liquify nick nick FUD ⟨100, USD⟩)]).state
      (.liquify nick nick FUD ⟨5000, USD⟩) = .error message :=
  checked_not_liquified daiqcontract 1000 _ _ _ nick FUD
    ⟨1005, ⟨2000000, EOS⟩, ⟨10000, USD⟩, true⟩ (.of_isOk rfl (by decide +kernel)) (by decide)
    (by decide +kernel) (by decide) (by decide +kernel) (by decide +kernel) _ rfl nick _
    (by decide +kernel)

end

end DecentralBank.Maker
