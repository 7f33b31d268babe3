import DecentralBank.Maker.Bids
import DecentralBank.Maker.Ratios
import DecentralBank.Maker.Totals

/-!
# Settlement

`settle` tests the ratio of a whole type, dividing once, and admits it at the
liquidation ratio; `liquify` tests the ratio of one CDP, dividing twice, and
admits it below.
-/

namespace DecentralBank.Maker

open Runs

/-- The ratio of a type in percent. -/
def aggregate (st : Stat) (fc : Feed) : Int :=
  fc.price.amount * 100 * st.totalCollateral.quantity.amount / (st.totalStablecoin.amount * 10000)

/-- The products of the ratio stay below `2^63`. -/
structure Moderate (st : Stat) (fc : Feed) : Prop where
  price : fc.price.amount * 100 < 2 ^ 63
  collateral : fc.price.amount * 100 * st.totalCollateral.quantity.amount < 2 ^ 63
  debt : st.totalStablecoin.amount * 10000 < 2 ^ 63

/-- A debt of the type that `liquify` would open an auction on, at the price `fc`. -/
def Hazard (T : SymbolCode) (st : Stat) (fc : Feed) (s : State) : Prop :=
  ∃ owner it, s.cdps.lookup (T, owner) = some it ∧ 0 < it.stablecoin.amount ∧
    ∃ liq, liquifyRatio fc it = .ok liq ∧ liq < st.liquid8Ratio

/-- The feeder settles a live type that has debt. -/
structure InOrder (c : Ctx) (feeder : Name) (T : SymbolCode) (st : Stat) : Prop where
  auth : feeder ∈ c.auth
  named : T.isValid = true
  owed : 0 < st.totalStablecoin.amount
  live : st.live = true
  feeder : st.feeder = feeder

variable {c : Ctx} {s s' : State} {feeder : Name} {T : SymbolCode} {st : Stat} {fc : Feed}

section Ratios

theorem settleRatio_eq (hp : 0 ≤ fc.price.amount) (hc : 0 ≤ st.totalCollateral.quantity.amount)
    (hd : 0 < st.totalStablecoin.amount) (fits : Moderate st fc) :
    settleRatio st fc = .ok (aggregate st fc).toNat := by
  have product : 0 ≤ fc.price.amount * 100 * st.totalCollateral.quantity.amount :=
    mul_nonneg (by omega) hc
  have small := Int.ediv_le_self (st.totalStablecoin.amount * 10000) product
  have quotient : 0 ≤ aggregate st fc := Int.ediv_nonneg product (by omega)
  have divides : divI64 (fc.price.amount * 100 * st.totalCollateral.quantity.amount)
      (st.totalStablecoin.amount * 10000) = .ok (aggregate st fc) := divI64_pos product (by omega)
  have word : u64 (aggregate st fc) = (aggregate st fc).toNat :=
    u64_of_nonneg quotient (by unfold aggregate; have := fits.collateral; omega)
  simp only [settleRatio, i64_of_lt (show -2 ^ 63 ≤ fc.price.amount * 100 by omega) fits.price,
    i64_of_lt (show -2 ^ 63 ≤ fc.price.amount * 100 * st.totalCollateral.quantity.amount by omega)
      fits.collateral,
    i64_of_lt (show -2 ^ 63 ≤ st.totalStablecoin.amount * 10000 by omega) fits.debt, divides]
  rw [← word]
  rfl

/-- A CDP that `liquify` would not open an auction on is covered at the liquidation ratio. -/
theorem safe_covered {it : Cdp} {owner : Name} (hp : 0 ≤ fc.price.amount)
    (debt : 0 < it.stablecoin.amount) (collateral : 0 ≤ it.collateral.amount)
    (fits : Fits fc.price.amount it.stablecoin.amount it.collateral.amount)
    (found : s.cdps.lookup (T, owner) = some it) (safe : ¬ Hazard T st fc s) :
    st.liquid8Ratio * 10000 * it.stablecoin.amount ≤
      fc.price.amount * 100 * it.collateral.amount := by
  have computed := liquifyRatio_eq hp debt collateral fits
  have above : st.liquid8Ratio ≤
      (ratio fc.price.amount it.stablecoin.amount it.collateral.amount).toNat := by
    by_contra below
    exact safe ⟨owner, it, found, debt, _, computed, by omega⟩
  exact mul_le_of_le_floored debt collateral (by omega) (toNat_le_ratio hp debt collateral above)

end Ratios

/-! ## The books of a type -/

/-- All CDPs of the type are live, and its totals are the sums over them. -/
structure Balanced (T : SymbolCode) (st : Stat) (s : State) : Prop where
  live : AllLive T s
  debt : st.totalStablecoin.amount = sumOver T (fun it => it.stablecoin.amount) s
  collateral : st.totalCollateral.quantity.amount = sumOver T (fun it => it.collateral.amount) s

section Books

theorem Balanced.rows (books : Balanced T st s) (hs : Sound s) {k : SymbolCode × Name} {it : Cdp}
    (found : s.cdps.lookup k = some it) (here : k.1 = T) :
    0 ≤ it.stablecoin.amount ∧ 0 ≤ it.collateral.amount := by
  have alive : it.live = true := books.live _ ((Table.lookup_iff_mem _ _ _).mp found) here
  have row := hs.cdps _ it found
  exact ⟨(row.debt alive).1, (row.collateral alive).1⟩

/-- No CDP has more collateral than the type. -/
theorem Balanced.part (books : Balanced T st s) (hs : Sound s) {owner : Name} {it : Cdp}
    (found : s.cdps.lookup (T, owner) = some it) :
    it.collateral.amount ≤ st.totalCollateral.quantity.amount := by
  have bound := Table.weightAt_le_total (t := s.cdps)
    (f := fun k it => if k.1 = T then it.collateral.amount else 0) (fun k row hk => by
      split
      · rename_i here
        exact (books.rows hs hk here).2
      · exact le_refl 0) (T, owner)
  rw [Table.weightAt_some found, if_pos rfl] at bound
  exact bound.trans books.collateral.ge

theorem Balanced.fits (books : Balanced T st s) (hs : Sound s) (hp : 0 ≤ fc.price.amount)
    (moderate : Moderate st fc) {owner : Name} {it : Cdp}
    (found : s.cdps.lookup (T, owner) = some it) :
    Fits fc.price.amount it.stablecoin.amount it.collateral.amount := by
  obtain ⟨debt, collateral⟩ := books.rows hs found rfl
  have scaled : 0 ≤ fc.price.amount * 100 := by omega
  have quotient : fc.price.amount * 100 / it.stablecoin.amount ≤ fc.price.amount * 100 :=
    Int.ediv_le_self _ scaled
  refine ⟨moderate.price, ?_⟩
  calc fc.price.amount * 100 / it.stablecoin.amount * it.collateral.amount
      ≤ fc.price.amount * 100 * it.collateral.amount :=
        mul_le_mul_of_nonneg_right quotient collateral
    _ ≤ fc.price.amount * 100 * st.totalCollateral.quantity.amount :=
      mul_le_mul_of_nonneg_left (books.part hs found) scaled
    _ < 2 ^ 63 := moderate.collateral

theorem sumOver_scaled (a : Int) (f : Cdp → Int) :
    sumOver T (fun it => a * f it) s = a * sumOver T f s := by
  rw [sumOver, sumOver, ← Table.total_mul]
  refine Table.total_congr fun k it _ => ?_
  split
  · rfl
  · exact (mul_zero a).symm

/-- If every CDP is covered at the liquidation ratio, so is the type. -/
theorem Balanced.covered (books : Balanced T st s) (hs : Sound s) (hp : 0 ≤ fc.price.amount)
    (moderate : Moderate st fc) (safe : ¬ Hazard T st fc s) :
    st.liquid8Ratio * 10000 * st.totalStablecoin.amount ≤
      fc.price.amount * 100 * st.totalCollateral.quantity.amount := by
  rw [books.debt, books.collateral, ← sumOver_scaled, ← sumOver_scaled]
  refine Table.total_le fun k it found => ?_
  split
  · rename_i here
    obtain ⟨rfl⟩ := here
    obtain ⟨debt, collateral⟩ := books.rows hs found rfl
    simp only
    rcases debt.lt_or_eq with owed | none
    · exact safe_covered hp owed collateral (books.fits hs hp moderate found) found safe
    · rw [← none, mul_zero]
      exact mul_nonneg (by omega) collateral
  · exact le_refl 0

theorem Balanced.collateral_nonneg (books : Balanced T st s) (hs : Sound s) :
    0 ≤ st.totalCollateral.quantity.amount := by
  rw [books.collateral]
  refine Table.total_nonneg fun k it found => ?_
  split
  · rename_i here
    exact (books.rows hs found here).2
  · exact le_refl 0

end Books

/-- A settlement goes through when it is in order and the type is at or below the ratio. -/
theorem settles_iff (type : s.stats.lookup (c.self, T) = some st)
    (feed : s.feeds.lookup st.totalCollateral.quantity.symbol.code = some fc)
    (hp : 0 ≤ fc.price.amount) (hc : 0 ≤ st.totalCollateral.quantity.amount)
    (moderate : Moderate st fc) :
    (∃ s', apply c s (.settle feeder T) = .ok s') ↔
      InOrder c feeder T st ∧ aggregate st fc ≤ st.liquid8Ratio := by
  have ratio (owed : 0 < st.totalStablecoin.amount) := settleRatio_eq hp hc owed moderate
  simp only [apply, settle, Ctx.requireAuth_eq_ok, Checked.bind_eq_ok, Checked.require_eq_ok,
    Checked.find_eq_ok, Checked.pure_eq_ok, exists_const]
  constructor
  · rintro ⟨_, auth, named, st', type', ⟨owed, live⟩, feeds, fc', feed', liq, computed, below, -⟩
    cases type.symm.trans type'
    cases feed.symm.trans feed'
    cases (ratio owed).symm.trans computed
    exact ⟨⟨auth, named, owed, live, feeds⟩, by omega⟩
  · rintro ⟨order, below⟩
    exact ⟨_, order.auth, order.named, st, type, ⟨order.owed, order.live⟩,
      order.feeder, fc, feed, _, ratio order.owed, by omega, rfl⟩

/-- On balanced books, a settlement that goes through with the ratio of the type other than the
liquidation ratio has a CDP to liquidate; and where there is none, a settlement in order is refused
if and only if the ratio of the type is other than the liquidation ratio. -/
theorem settle_hazard_iff (self : Name) (clock : Nat) (es : List Event) (e : Event)
    (called : (after self clock es).call self e = some (c, s, .settle feeder T))
    (type : s.stats.lookup (self, T) = some st)
    (feed : s.feeds.lookup st.totalCollateral.quantity.symbol.code = some fc)
    (books : Balanced T st s) (moderate : Moderate st fc) :
    (aggregate st fc ≠ st.liquid8Ratio →
      ∀ s', apply c s (.settle feeder T) = .ok s' → Hazard T st fc s) ∧
    (InOrder c feeder T st → ¬ Hazard T st fc s →
      ((∃ message, apply c s (.settle feeder T) = .error message) ↔
        aggregate st fc ≠ st.liquid8Ratio)) := by
  obtain ⟨rfl, sound⟩ := call_meets Sound.queueless (sound_after _ clock es) called
  have hp := sound.price feed
  have settles : (∃ s', apply c s (.settle feeder T) = .ok s') ↔
      InOrder c feeder T st ∧ aggregate st fc ≤ st.liquid8Ratio :=
    settles_iff type feed hp (books.collateral_nonneg sound) moderate
  have above (owed : 0 < st.totalStablecoin.amount) (safe : ¬ Hazard T st fc s) :
      (st.liquid8Ratio : Int) ≤ aggregate st fc := by
    have covered := books.covered sound hp moderate safe
    rw [aggregate, Int.le_ediv_iff_mul_le (by omega)]
    linarith
  constructor
  · intro other s' done
    obtain ⟨order, below⟩ := settles.mp ⟨s', done⟩
    by_contra safe
    exact other (le_antisymm below (above order.owed safe))
  · intro order safe
    have least := above order.owed safe
    cases tried : apply c s (.settle feeder T) with
    | error message =>
      refine iff_of_true ⟨message, rfl⟩ fun same => ?_
      obtain ⟨s', done⟩ := settles.mpr ⟨order, same.le⟩
      rw [tried] at done
      cases done
    | ok s' =>
      have below := (settles.mp ⟨s', tried⟩).2
      refine iff_of_false (fun refused => ?_) (fun other => other (le_antisymm below least))
      obtain ⟨message, failed⟩ := refused
      cases failed

section

open Sample

def settleFUD : Event := .act [dick] (.settle dick FUD)

/-- The liquidation ratio has been raised above that of the type, and `dick` can settle it. -/
theorem settle_hazard_fud :
    Hazard FUD (fudType 25000 3000000) ⟨⟨0, EOS⟩, ⟨200, USD⟩, 1000⟩
      (after daiqcontract 1000 (atRisk 15000)).state := by
  have type : (after daiqcontract 1000 (atRisk 15000)).state.stats.lookup (daiqcontract, FUD) =
      some (fudType 25000 3000000) := by decide +kernel
  have feed : (after daiqcontract 1000 (atRisk 15000)).state.feeds.lookup EOS.code =
      some ⟨⟨0, EOS⟩, ⟨200, USD⟩, 1000⟩ := by decide +kernel
  have settled : Succeeds daiqcontract (after daiqcontract 1000 (atRisk 15000)) settleFUD
      ((after daiqcontract 1000 (atRisk 15000)).ctx daiqcontract [dick])
      (after daiqcontract 1000 (atRisk 15000)).state (.settle dick FUD) :=
    .of_isOk rfl (by decide +kernel)
  obtain ⟨hazard, -⟩ := settle_hazard_iff daiqcontract 1000 (atRisk 15000) settleFUD rfl type feed
    ⟨by decide +kernel, by decide +kernel, by decide +kernel⟩ ⟨by decide, by decide, by decide⟩
  exact hazard (by decide) _ settled.done

/-- 100 USD are owed on 75 EOS of 2 USD each: exactly 150 percent. -/
def brink : List Event := funded EOS 200 750000 ++ [borrow 10000]

/-- `draw` lets the debt be made, `liquify` would not touch it, and yet the type is settled. -/
theorem settled_without_hazard :
    let w := after daiqcontract 1000 brink
    let st : Stat := { (terms EOS 150).draft with
      live := true, lastVote := 1005, totalStablecoin := ⟨10000, USD⟩
      totalCollateral := ⟨⟨750000, EOS⟩, eosioToken⟩ }
    let fc : Feed := ⟨⟨0, EOS⟩, ⟨200, USD⟩, 1000⟩
    Succeeds daiqcontract w settleFUD (w.ctx daiqcontract [dick]) w.state (.settle dick FUD) ∧
      w.state.stats.lookup (daiqcontract, FUD) = some st ∧
      w.state.feeds.lookup EOS.code = some fc ∧ Balanced FUD st w.state ∧ Moderate st fc ∧
      ¬ Hazard FUD st fc w.state := by
  intro w st fc
  refine ⟨.of_isOk rfl (by decide +kernel), by decide +kernel, by decide +kernel,
    ⟨by decide +kernel, by decide +kernel, by decide +kernel⟩,
      ⟨by decide, by decide, by decide⟩, ?_⟩
  rintro ⟨owner, it, found, -, liq, computed, below⟩
  have rows : ∀ row ∈ w.state.cdps.entries, liquifyRatio fc row.2 = .ok 150 := by decide +kernel
  have same := rows _ ((Table.lookup_iff_mem _ _ _).mp found)
  cases computed.symm.trans same
  exact absurd below (by decide)

end

end DecentralBank.Maker
