import DecentralBank.Lib.Arithmetic
import DecentralBank.Maker.Ratios
import DecentralBank.Maker.Divisors

/-!
# The arithmetic of the engine

Every expression that `draw`, `bail`, `settle`, `wipe` and `liquify` compute
with more than one operation, as C++ types it, and the bounds within which no
operation of it wraps.
-/

namespace DecentralBank.Maker

open Runs

/-- What an action computes, the source's expression for it, its value in
exact arithmetic and the bounds on the operands that keep it exact. -/
structure Computation where
  value : Checked Int
  code : Expr
  exact : Int
  range : Prop

/-- Every operation is exact, and so is the result. -/
def Computation.Exact (k : Computation) : Prop := k.code.Faithful ∧ k.value = .ok k.exact

/-- `( price * 100 / debt ) * collateral / 10000` in signed words, as `uint64_t`. -/
def signedRatio (price debt : Int) (collateral : Expr) : Expr :=
  .cast .unsigned (.op .div .signed
    (.op .mul .signed
      (.op .div .signed (.op .mul .signed (.value price) (.value 100)) (.value debt)) collateral)
    (.value 10000))

/-- `amt` in `bail`. -/
def bailTest (st : Stat) (fc : Feed) (it : Cdp) (quantity : Asset) : Computation where
  value := Int.ofNat <$> bailRatio st fc it quantity
  code := signedRatio fc.price.amount it.stablecoin.amount
    (.op .sub .signed (.value it.collateral.amount) (.value quantity.amount))
  exact := ratio fc.price.amount it.stablecoin.amount (it.collateral.amount - quantity.amount)
  range := Fits fc.price.amount it.stablecoin.amount (it.collateral.amount - quantity.amount)

/-- `liq` in `draw`. -/
def drawTest (fc : Feed) (it : Cdp) (quantity : Asset) : Computation where
  value := Int.ofNat <$> drawRatio fc it (u64 (it.stablecoin.amount + quantity.amount))
  code := .op .div .unsigned
    (.op .mul .unsigned
      (.op .div .unsigned
        (.cast .unsigned (.op .mul .signed (.value fc.price.amount) (.value 100)))
        (.cast .unsigned
          (.op .add .signed (.value it.stablecoin.amount) (.value quantity.amount))))
      (.cast .unsigned (.value it.collateral.amount)))
    (.value 10000)
  exact := ratio fc.price.amount (it.stablecoin.amount + quantity.amount) it.collateral.amount
  range := fc.price.amount * 100 < 2 ^ 63 ∧
    fc.price.amount * 100 / (it.stablecoin.amount + quantity.amount) * it.collateral.amount < 2 ^ 64

/-- `liq` in `settle`. -/
def settleTest (st : Stat) (fc : Feed) : Computation where
  value := Int.ofNat <$> settleRatio st fc
  code := .cast .unsigned (.op .div .signed
    (.op .mul .signed (.op .mul .signed (.value fc.price.amount) (.value 100))
      (.value st.totalCollateral.quantity.amount))
    (.op .mul .signed (.value st.totalStablecoin.amount) (.value 10000)))
  exact := fc.price.amount * 100 * st.totalCollateral.quantity.amount /
    (st.totalStablecoin.amount * 10000)
  range := fc.price.amount * 100 < 2 ^ 63 ∧
    0 ≤ fc.price.amount * 100 * st.totalCollateral.quantity.amount ∧
    fc.price.amount * 100 * st.totalCollateral.quantity.amount < 2 ^ 63 ∧
    st.totalStablecoin.amount * 10000 < 2 ^ 63

/-- `apr` in `wipe`, as the amount of the fee. -/
def wipeFee (st : Stat) (age : Nat) (quantity price : Asset) : Computation where
  value := (fun apr : Nat => i64 apr) <$> stabilityFee st age quantity price
  code := .cast .signed (.op .div .unsigned
    (.op .mul .unsigned
      (.op .div .unsigned
        (.op .mul .unsigned (.op .mul .unsigned (.value 1000000) (.value st.stabilityFee))
          (.value age))
        (.value SECYR))
      (.cast .unsigned
        (.op .div .signed (.op .mul .signed (.value quantity.amount) (.value 100))
          (.value price.amount))))
    (.value 100000))
  exact := 1000000 * st.stabilityFee * age / SECYR * (quantity.amount * 100 / price.amount) / 100000
  range := quantity.amount * 100 < 2 ^ 63 ∧ 1000000 * (st.stabilityFee : Int) < 2 ^ 64 ∧
    1000000 * (st.stabilityFee : Int) * age < 2 ^ 64 ∧
    1000000 * (st.stabilityFee : Int) * age / SECYR *
      (quantity.amount * 100 / price.amount) < 2 ^ 64

/-- `liq` in `liquify`. -/
def openingTest (fc : Feed) (it : Cdp) : Computation where
  value := Int.ofNat <$> liquifyRatio fc it
  code := signedRatio fc.price.amount it.stablecoin.amount (.value it.collateral.amount)
  exact := ratio fc.price.amount it.stablecoin.amount it.collateral.amount
  range := Fits fc.price.amount it.stablecoin.amount it.collateral.amount

/-- The debt with the penalty. -/
def penalty (st : Stat) (debt : Int) : Computation where
  value := pure (penalised st debt)
  code := .cast .signed (.op .add .unsigned (.cast .unsigned (.value debt))
    (.op .div .unsigned
      (.op .mul .unsigned (.cast .unsigned (.value debt)) (.value st.penaltyRatio)) (.value 100)))
  exact := debt + debt * st.penaltyRatio / 100
  range := debt * st.penaltyRatio < 2 ^ 64 ∧ debt + debt * st.penaltyRatio / 100 < 2 ^ 63

/-- `min` for a bid on a standing one. -/
def raise (st : Stat) (standing : Int) : Computation where
  value := pure (minRaise st standing : Int)
  code := .op .add .unsigned (.cast .unsigned (.value standing))
    (.op .div .unsigned
      (.op .mul .unsigned (.cast .unsigned (.value standing)) (.value st.beg)) (.value 100))
  exact := standing + standing * st.beg / 100
  range := standing * st.beg < 2 ^ 64 ∧ standing + standing * st.beg / 100 < 2 ^ 64

/-- The amount that a remainder `r` is converted to: the collateral offered for
a debt, the debt asked for a surplus. -/
def conversion (it : Cdp) (price : Asset) : Computation where
  value := (fun next : Cdp =>
    if 0 < it.stablecoin.amount then next.collateral.amount else next.stablecoin.amount) <$>
      convertRemainder it price
  code :=
    let product := Expr.op .mul .signed (.value it.stablecoin.amount) (.value price.amount)
    let worth := Expr.op .div .signed
      (.op .mul .signed (.value it.stablecoin.amount) (.value 1000)) (.value price.amount)
    let amount := if it.stablecoin.symbol = IQ_SYMBOL then product else worth
    if 0 < it.stablecoin.amount then amount else .op .sub .signed (.value 0) amount
  exact :=
    if it.stablecoin.symbol = IQ_SYMBOL then |it.stablecoin.amount| * price.amount
    else |it.stablecoin.amount| * 1000 / price.amount
  range :=
    if it.stablecoin.symbol = IQ_SYMBOL then |it.stablecoin.amount| * price.amount < 2 ^ 63
    else |it.stablecoin.amount| * 1000 < 2 ^ 63

/-- The computations of a call that gets as far as to make them. -/
inductive Computes (c : Ctx) (s : State) : Action → Computation → Prop
  | bail {owner : Name} {symbl : SymbolCode} {quantity : Asset} {st : Stat} {it : Cdp} {fc : Feed}
      (type : s.stats.lookup (c.self, symbl) = some st)
      (found : s.cdps.lookup (symbl, owner) = some it)
      (feed : s.feeds.lookup quantity.symbol.code = some fc) (debt : it.stablecoin.amount ≠ 0) :
      Computes c s (.bail owner symbl quantity) (bailTest st fc it quantity)
  | draw {owner : Name} {symbl : SymbolCode} {quantity : Asset} {it : Cdp} {fc : Feed}
      (found : s.cdps.lookup (symbl, owner) = some it)
      (feed : s.feeds.lookup it.collateral.symbol.code = some fc) :
      Computes c s (.draw owner symbl quantity) (drawTest fc it quantity)
  | settle {feeder : Name} {symbl : SymbolCode} {st : Stat} {fc : Feed}
      (type : s.stats.lookup (c.self, symbl) = some st)
      (feed : s.feeds.lookup st.totalCollateral.quantity.symbol.code = some fc) :
      Computes c s (.settle feeder symbl) (settleTest st fc)
  | wipe {owner : Name} {symbl : SymbolCode} {quantity : Asset} {st : Stat} {it : Cdp} {fv : Feed}
      (type : s.stats.lookup (c.self, symbl) = some st)
      (found : s.cdps.lookup (symbl, owner) = some it)
      (price : s.feeds.lookup IQ_SYMBOL.code = some fv) :
      Computes c s (.wipe owner symbl quantity)
        (wipeFee st (c.since it.created) quantity fv.price)
  | opening {bidder owner : Name} {symbl : SymbolCode} {bidamt : Asset} {it : Cdp} {fc : Feed}
      (found : s.cdps.lookup (symbl, owner) = some it) (live : it.live = true)
      (feed : s.feeds.lookup it.collateral.symbol.code = some fc) :
      Computes c s (.liquify bidder owner symbl bidamt) (openingTest fc it)
  | penalty {bidder owner : Name} {symbl : SymbolCode} {bidamt : Asset} {st : Stat} {it : Cdp}
      (type : s.stats.lookup (c.self, symbl) = some st)
      (found : s.cdps.lookup (symbl, owner) = some it) (live : it.live = true) :
      Computes c s (.liquify bidder owner symbl bidamt) (penalty st it.stablecoin.amount)
  | raise {bidder owner : Name} {symbl : SymbolCode} {bidamt : Asset} {st : Stat} {bt : Bid}
      (type : s.stats.lookup (c.self, symbl) = some st)
      (standing : s.bids.lookup (symbl, owner) = some bt) (running : roundOpen c st bt = true) :
      Computes c s (.liquify bidder owner symbl bidamt) (raise st bt.bidamt.amount)
  | conversion {bidder owner : Name} {symbl : SymbolCode} {bidamt : Asset} {st : Stat} {bt : Bid}
      {row it : Cdp} {fv : Feed}
      (type : s.stats.lookup (c.self, symbl) = some st)
      (found : s.cdps.lookup (symbl, owner) = some row)
      (opened : openAuction c s st row = .ok it)
      (standing : s.bids.lookup (symbl, owner) = some bt) (expired : roundOpen c st bt = false)
      (left : it.stablecoin.amount ≠ 0) (price : s.feeds.lookup IQ_SYMBOL.code = some fv) :
      Computes c s (.liquify bidder owner symbl bidamt) (conversion it fv.price)

/-! ## One computation -/

section Computations

variable {st : Stat} {fc : Feed} {it : Cdp} {quantity price : Asset}

theorem Computation.exact_iff {k : Computation} (evaluates : k.code.eval = k.value)
    (fits : k.code.Fits ↔ k.range) (exact : k.range → k.code.exact = k.exact) :
    k.Exact ↔ k.range := by
  rw [Computation.Exact, Expr.faithful_iff_fits, fits, ← evaluates]
  constructor
  · rintro ⟨range, -⟩
    exact range
  · intro range
    have faithful := (Expr.faithful_iff_fits _).mpr (fits.mpr range)
    exact ⟨range, by rw [faithful.eval, exact range]⟩

theorem bailTest_evaluates (debt : it.stablecoin.amount ≠ 0) :
    (bailTest st fc it quantity).code.eval = (bailTest st fc it quantity).value := by
  simp only [bailTest, signedRatio, Expr.eval, Op.compute, Op.exact, Word.wrap, bailRatio,
    if_neg debt, pure_bind, bind_assoc, map_bind, map_pure]
  rfl

theorem openingTest_evaluates : (openingTest fc it).code.eval = (openingTest fc it).value := by
  simp only [openingTest, signedRatio, Expr.eval, Op.compute, Op.exact, Word.wrap, liquifyRatio,
    pure_bind, bind_assoc, map_bind, map_pure]
  rfl

theorem settleTest_evaluates : (settleTest st fc).code.eval = (settleTest st fc).value := by
  simp only [settleTest, Expr.eval, Op.compute, Op.exact, Word.wrap, settleRatio, pure_bind,
    map_bind, map_pure]
  rfl

theorem drawTest_evaluates :
    (drawTest fc it quantity).code.eval = (drawTest fc it quantity).value := by
  simp only [drawTest, Expr.eval, Op.compute, Op.exact, Word.wrap, drawRatio, divU64, pure_bind,
    u64_i64, bind_assoc, map_bind, map_pure]
  have quotient (n m : Nat) : (n : Int).tdiv m = (n / m : Nat) := (Int.ofNat_tdiv n m).symm
  have hundredths (n : Nat) : (n : Int).tdiv 10000 = (n / 10000 : Nat) := quotient n 10000
  by_cases owed : u64 (it.stablecoin.amount + quantity.amount) = 0
  · simp only [Checked.require, owed, Nat.cast_zero, ne_eq, not_true_eq_false, if_false]
    rfl
  · have divides : (u64 (it.stablecoin.amount + quantity.amount) : Int) ≠ 0 := by omega
    simp only [Checked.require, divides, owed, quotient, hundredths, ne_eq, not_false_eq_true,
      if_true]
    rfl

theorem wipeFee_evaluates {age : Nat} :
    (wipeFee st age quantity price).code.eval = (wipeFee st age quantity price).value := by
  simp only [wipeFee, Expr.eval, Op.compute, Op.exact, Word.wrap, stabilityFee, pure_bind,
    bind_assoc, map_bind, map_pure, SECYR]
  have decades (n : Nat) : (n : Int).tdiv (10 : Nat) = (n / 10 : Nat) := (Int.ofNat_tdiv n 10).symm
  have units (n : Nat) : (n : Int).tdiv 100000 = (n / 100000 : Nat) :=
    (Int.ofNat_tdiv n 100000).symm
  simp only [decades, units]
  rfl

theorem penalty_evaluates {debt : Int} (lo : 0 ≤ debt) (hi : debt ≤ Asset.maxAmount) :
    (penalty st debt).code.eval = (penalty st debt).value := by
  have word : (u64 debt : Int) = debt := u64_of_lt lo (by unfold Asset.maxAmount at hi; omega)
  have percent (n : Nat) : (n : Int).tdiv 100 = (n / 100 : Nat) := (Int.ofNat_tdiv n 100).symm
  have sum := i64_u64 (debt + (u64 (debt * st.penaltyRatio) / 100 : Nat))
  simp only [penalty, Expr.eval, Op.compute, Op.exact, Word.wrap, penalised, pure_bind, percent,
    word]
  exact congrArg Except.ok sum

theorem raise_evaluates {standing : Int} :
    (raise st standing).code.eval = (raise st standing).value := by
  have percent (n : Nat) : (n : Int).tdiv 100 = (n / 100 : Nat) := (Int.ofNat_tdiv n 100).symm
  simp only [raise, Expr.eval, Op.compute, Op.exact, Word.wrap, minRaise, pure_bind, percent]
  rfl

theorem conversion_evaluates {next : Cdp}
    (h : convertRemainder it price = .ok next) :
    (conversion it price).code.eval = (conversion it price).value := by
  simp only [conversion, h]
  simp only [convertRemainder, Checked.ite_eq_ok, Checked.bind_eq_ok, Asset.make_eq_ok,
    Checked.pure_eq_ok] at h
  rcases h with ⟨short, ⟨iq, _, ⟨-, -, rfl⟩, rfl⟩ | ⟨other, w, divided, _, ⟨-, -, rfl⟩, rfl⟩⟩ |
    ⟨surplus, ⟨iq, _, ⟨-, -, rfl⟩, rfl⟩ | ⟨other, w, divided, _, ⟨-, -, rfl⟩, rfl⟩⟩
  · simp only [if_pos short, if_pos iq]
    rfl
  · simp only [if_pos short, if_neg other, Expr.eval, Op.compute, Op.exact, Word.wrap, pure_bind,
      divided]
    rfl
  · simp only [if_neg surplus, if_pos iq, Expr.eval, Op.compute, Op.exact, Word.wrap, pure_bind,
      zero_sub]
    rfl
  · simp only [if_neg surplus, if_neg other, Expr.eval, Op.compute, Op.exact, Word.wrap, pure_bind,
      divided, zero_sub]
    rfl

/-! ## The bounds -/

theorem signedRatio_exact {p debt : Int} {collateral : Expr} (hp : 0 ≤ p) (hd : 0 < debt)
    (hc : 0 ≤ collateral.exact) :
    (signedRatio p debt collateral).exact = ratio p debt collateral.exact := by
  have quotient : 0 ≤ p * 100 / debt * collateral.exact :=
    mul_nonneg (Int.ediv_nonneg (by omega) hd.le) hc
  simp only [signedRatio, Expr.exact, Op.exact, ratio, floored]
  rw [Int.tdiv_eq_ediv_of_nonneg (show 0 ≤ p * 100 by omega), Int.tdiv_eq_ediv_of_nonneg quotient]

theorem signedRatio_fits {p debt : Int} {collateral : Expr} (hp : 0 ≤ p) (hd : 0 < debt)
    (hc : 0 ≤ collateral.exact) (inner : collateral.Fits) :
    (signedRatio p debt collateral).Fits ↔ Fits p debt collateral.exact := by
  have scaled : 0 ≤ p * 100 := by omega
  have quotient : 0 ≤ p * 100 / debt * collateral.exact :=
    mul_nonneg (Int.ediv_nonneg scaled hd.le) hc
  have final : 0 ≤ p * 100 / debt * collateral.exact / 10000 := Int.ediv_nonneg quotient (by omega)
  have small : p * 100 / debt * collateral.exact / 10000 ≤ p * 100 / debt * collateral.exact :=
    Int.ediv_le_self _ quotient
  simp only [signedRatio, Expr.Fits, Expr.exact, Op.Fits, Op.exact, Word.Holds, Fits, inner,
    Int.tdiv_eq_ediv_of_nonneg scaled, Int.tdiv_eq_ediv_of_nonneg quotient]
  constructor
  · rintro ⟨⟨⟨⟨⟨-, -, -, scaledFits⟩, -⟩, -, -, productFits⟩, -⟩, -⟩
    exact ⟨scaledFits, productFits⟩
  · rintro ⟨scaledFits, productFits⟩
    refine ⟨⟨⟨⟨⟨trivial, trivial, ?_⟩, trivial, ?_⟩, trivial, ?_⟩, trivial, ?_⟩, ?_⟩ <;> omega

theorem bailTest_exact (hp : 0 ≤ fc.price.amount) (hd : 0 < it.stablecoin.amount)
    (hc : 0 ≤ it.collateral.amount - quantity.amount)
    (hm : it.collateral.amount - quantity.amount ≤ Asset.maxAmount) :
    (bailTest st fc it quantity).Exact ↔ (bailTest st fc it quantity).range := by
  unfold Asset.maxAmount at hm
  refine Computation.exact_iff (bailTest_evaluates hd.ne') ?_ fun _ => signedRatio_exact hp hd hc
  refine signedRatio_fits hp hd hc ⟨trivial, trivial, ?_⟩
  simp only [Op.Fits, Op.exact, Expr.exact, Word.Holds]
  omega

theorem openingTest_exact (hp : 0 ≤ fc.price.amount) (hd : 0 < it.stablecoin.amount)
    (hc : 0 ≤ it.collateral.amount) : (openingTest fc it).Exact ↔ (openingTest fc it).range :=
  Computation.exact_iff openingTest_evaluates (signedRatio_fits hp hd hc trivial) fun _ =>
    signedRatio_exact hp hd hc

theorem drawTest_exact (hp : 0 ≤ fc.price.amount) (hd : 0 < it.stablecoin.amount + quantity.amount)
    (hm : it.stablecoin.amount + quantity.amount ≤ Asset.maxAmount) (hc : 0 ≤ it.collateral.amount)
    (hcm : it.collateral.amount ≤ Asset.maxAmount) :
    (drawTest fc it quantity).Exact ↔ (drawTest fc it quantity).range := by
  unfold Asset.maxAmount at hm hcm
  have scaled : 0 ≤ fc.price.amount * 100 := by omega
  have perDebt := Int.ediv_nonneg scaled hd.le
  have product := mul_nonneg perDebt hc
  have exact : (drawTest fc it quantity).code.exact = (drawTest fc it quantity).exact := by
    simp only [drawTest, Expr.exact, Op.exact, ratio, floored]
    rw [Int.tdiv_eq_ediv_of_nonneg scaled, Int.tdiv_eq_ediv_of_nonneg product]
  refine Computation.exact_iff drawTest_evaluates ?_ fun _ => exact
  simp only [drawTest, Expr.Fits, Expr.exact, Op.Fits, Op.exact, Word.Holds,
    Int.tdiv_eq_ediv_of_nonneg scaled]
  constructor
  · rintro ⟨⟨⟨⟨⟨-, -, -, scaledFits⟩, -⟩, -⟩, -, -, productFits⟩, -⟩
    exact ⟨scaledFits, productFits⟩
  · rintro ⟨scaledFits, productFits⟩
    refine ⟨⟨⟨⟨⟨trivial, trivial, ?_⟩, ?_⟩, ⟨⟨trivial, trivial, ?_⟩, ?_⟩, ?_⟩, ⟨trivial, ?_⟩, ?_⟩,
      trivial, ?_⟩ <;> omega

/-- A product below zero makes the quotient round up, or wrap into an unsigned word. -/
theorem settleTest_exact (hp : 0 ≤ fc.price.amount) (hd : 0 < st.totalStablecoin.amount) :
    (settleTest st fc).Exact ↔ (settleTest st fc).range := by
  have unit : 0 < st.totalStablecoin.amount * 10000 := by omega
  have fits : (settleTest st fc).code.Fits ↔ fc.price.amount * 100 < 2 ^ 63 ∧
      (-2 ^ 63 ≤ fc.price.amount * 100 * st.totalCollateral.quantity.amount ∧
        fc.price.amount * 100 * st.totalCollateral.quantity.amount < 2 ^ 63) ∧
      st.totalStablecoin.amount * 10000 < 2 ^ 63 ∧
      0 ≤ (settleTest st fc).code.exact ∧ (settleTest st fc).code.exact < 2 ^ 64 := by
    simp only [settleTest, Expr.Fits, Expr.exact, Op.Fits, Op.exact, Word.Holds]
    constructor
    · rintro ⟨⟨⟨⟨-, -, -, scaled⟩, -, product⟩, ⟨-, -, -, divisor⟩, -⟩, quotient⟩
      exact ⟨scaled, product, divisor, quotient⟩
    · rintro ⟨scaled, product, divisor, quotient⟩
      exact ⟨⟨⟨⟨trivial, trivial, by omega, scaled⟩, trivial, product⟩,
        ⟨trivial, trivial, by omega, divisor⟩, by omega, by omega⟩, quotient⟩
  have exact (product : 0 ≤ fc.price.amount * 100 * st.totalCollateral.quantity.amount) :
      (settleTest st fc).code.exact = (settleTest st fc).exact := by
    simp only [settleTest, Expr.exact, Op.exact]
    rw [Int.tdiv_eq_ediv_of_nonneg product]
  rw [Computation.Exact, Expr.faithful_iff_fits, fits]
  constructor
  · rintro ⟨⟨scaled, ⟨lo, hi⟩, divisor, positive, word⟩, value⟩
    refine ⟨scaled, ?_, hi, divisor⟩
    by_contra negative
    have faithful := (Expr.faithful_iff_fits _).mpr
      (fits.mpr ⟨scaled, ⟨lo, hi⟩, divisor, positive, word⟩)
    rw [← settleTest_evaluates, faithful.eval] at value
    have same : (settleTest st fc).code.exact = (settleTest st fc).exact := Except.ok.inj value
    have below : (settleTest st fc).exact < 0 :=
      Int.ediv_neg_of_neg_of_pos (not_le.mp negative) unit
    omega
  · rintro ⟨scaled, product, hi, divisor⟩
    have same := exact product
    have positive : 0 ≤ (settleTest st fc).exact := Int.ediv_nonneg product unit.le
    have small : (settleTest st fc).exact ≤ _ := Int.ediv_le_self _ product
    have word : fc.price.amount * 100 < 2 ^ 63 ∧
        (-2 ^ 63 ≤ fc.price.amount * 100 * st.totalCollateral.quantity.amount ∧
          fc.price.amount * 100 * st.totalCollateral.quantity.amount < 2 ^ 63) ∧
        st.totalStablecoin.amount * 10000 < 2 ^ 63 ∧
        0 ≤ (settleTest st fc).code.exact ∧ (settleTest st fc).code.exact < 2 ^ 64 := by
      rw [same]
      exact ⟨scaled, ⟨by omega, hi⟩, divisor, positive, by omega⟩
    have faithful := (Expr.faithful_iff_fits _).mpr (fits.mpr word)
    exact ⟨word, by rw [← settleTest_evaluates, faithful.eval, same]⟩

theorem wipeFee_exact {age : Nat} (hq : 0 < quantity.amount) (hp : 0 < price.amount) :
    (wipeFee st age quantity price).Exact ↔ (wipeFee st age quantity price).range := by
  have scaled : 0 ≤ quantity.amount * 100 := by omega
  have worth := Int.ediv_nonneg scaled hp.le
  have worthSmall := Int.ediv_le_self price.amount scaled
  have yearly : 0 ≤ 1000000 * (st.stabilityFee : Int) := by omega
  have accrued : 0 ≤ 1000000 * (st.stabilityFee : Int) * age := mul_nonneg yearly (by omega)
  have decade : 0 ≤ 1000000 * (st.stabilityFee : Int) * age / SECYR :=
    Int.ediv_nonneg accrued (by omega)
  have product := mul_nonneg decade worth
  have quotient := Int.ediv_nonneg product (show (0 : Int) ≤ 100000 by omega)
  have exact : (wipeFee st age quantity price).code.exact =
      (wipeFee st age quantity price).exact := by
    simp only [wipeFee, Expr.exact, Op.exact]
    rw [Int.tdiv_eq_ediv_of_nonneg scaled, Int.tdiv_eq_ediv_of_nonneg accrued,
      Int.tdiv_eq_ediv_of_nonneg product]
  refine Computation.exact_iff wipeFee_evaluates ?_ fun _ => exact
  simp only [wipeFee, Expr.Fits, Expr.exact, Op.Fits, Op.exact, Word.Holds,
    Int.tdiv_eq_ediv_of_nonneg scaled, Int.tdiv_eq_ediv_of_nonneg accrued,
    Int.tdiv_eq_ediv_of_nonneg product]
  constructor
  · rintro ⟨⟨⟨⟨⟨⟨-, -, -, yearlyFits⟩, -, -, accruedFits⟩, -⟩, ⟨⟨⟨-, -, -, scaledFits⟩, -⟩, -⟩, -,
      productFits⟩, -⟩, -⟩
    exact ⟨scaledFits, yearlyFits, accruedFits, productFits⟩
  · rintro ⟨scaledFits, yearlyFits, accruedFits, productFits⟩
    have divides : (SECYR : Int) ≠ 0 := by decide
    refine ⟨⟨⟨⟨⟨⟨trivial, trivial, ?_⟩, trivial, ?_⟩, trivial, divides⟩,
      ⟨⟨⟨trivial, trivial, ?_⟩, trivial, ?_⟩, ?_⟩, ?_⟩, trivial, ?_⟩, ?_⟩ <;> omega

theorem penalty_exact {debt : Int} (lo : 0 ≤ debt) (hi : debt ≤ Asset.maxAmount) :
    (penalty st debt).Exact ↔ (penalty st debt).range := by
  have product : 0 ≤ debt * st.penaltyRatio := mul_nonneg lo (by omega)
  have exact : (penalty st debt).code.exact = (penalty st debt).exact := by
    simp only [penalty, Expr.exact, Op.exact]
    rw [Int.tdiv_eq_ediv_of_nonneg product]
  refine Computation.exact_iff (penalty_evaluates lo hi) ?_ fun _ => exact
  unfold Asset.maxAmount at hi
  simp only [penalty, Expr.Fits, Expr.exact, Op.Fits, Op.exact, Word.Holds,
    Int.tdiv_eq_ediv_of_nonneg product]
  constructor
  · rintro ⟨⟨-, ⟨⟨-, -, -, productFits⟩, -⟩, -⟩, -, sumFits⟩
    exact ⟨productFits, sumFits⟩
  · rintro ⟨productFits, sumFits⟩
    refine ⟨⟨⟨trivial, ?_⟩, ⟨⟨⟨trivial, ?_⟩, trivial, ?_⟩, trivial, ?_⟩, ?_⟩, ?_⟩ <;> omega

theorem raise_exact {standing : Int} (lo : 0 ≤ standing) :
    (raise st standing).Exact ↔ (raise st standing).range := by
  have product : 0 ≤ standing * st.beg := mul_nonneg lo (by omega)
  have exact : (raise st standing).code.exact = (raise st standing).exact := by
    simp only [raise, Expr.exact, Op.exact]
    rw [Int.tdiv_eq_ediv_of_nonneg product]
  refine Computation.exact_iff raise_evaluates ?_ fun _ => exact
  simp only [raise, Expr.Fits, Expr.exact, Op.Fits, Op.exact, Word.Holds,
    Int.tdiv_eq_ediv_of_nonneg product]
  constructor
  · rintro ⟨-, ⟨⟨-, -, -, productFits⟩, -⟩, -, sumFits⟩
    exact ⟨productFits, sumFits⟩
  · rintro ⟨productFits, sumFits⟩
    refine ⟨⟨trivial, ?_⟩, ⟨⟨⟨trivial, ?_⟩, trivial, ?_⟩, trivial, ?_⟩, ?_⟩ <;> omega

theorem conversion_iq (hp : 0 ≤ price.amount) (left : it.stablecoin.amount ≠ 0)
    (iq : it.stablecoin.symbol = IQ_SYMBOL) :
    ((conversion it price).code.Fits ↔ (conversion it price).range) ∧
      (conversion it price).code.exact = (conversion it price).exact := by
  simp only [conversion, if_pos iq]
  by_cases short : 0 < it.stablecoin.amount
  · have product : 0 ≤ it.stablecoin.amount * price.amount := mul_nonneg short.le hp
    simp only [if_pos short, abs_of_pos short, Expr.Fits, Expr.exact, Op.Fits, Op.exact, Word.Holds,
      true_and, and_true]
    omega
  · have surplus : it.stablecoin.amount < 0 := by omega
    have product : 0 ≤ -it.stablecoin.amount * price.amount := mul_nonneg (by omega) hp
    simp only [if_neg short, abs_of_neg surplus, Expr.Fits, Expr.exact, Op.Fits, Op.exact,
      Word.Holds, true_and, neg_mul, zero_sub] at product ⊢
    refine ⟨⟨fun fits => ?_, fun range => ?_⟩, trivial⟩ <;> omega

theorem conversion_other (hp : 0 < price.amount) (left : it.stablecoin.amount ≠ 0)
    (other : it.stablecoin.symbol ≠ IQ_SYMBOL) :
    ((conversion it price).code.Fits ↔ (conversion it price).range) ∧
      (conversion it price).code.exact = (conversion it price).exact := by
  simp only [conversion, if_neg other]
  by_cases short : 0 < it.stablecoin.amount
  · have scaled : 0 ≤ it.stablecoin.amount * 1000 := by omega
    simp only [if_pos short, abs_of_pos short, Expr.Fits, Expr.exact, Op.Fits, Op.exact, Word.Holds,
      true_and, Int.tdiv_eq_ediv_of_nonneg scaled]
    refine ⟨⟨fun fits => ?_, fun range => ?_⟩, trivial⟩ <;> omega
  · have surplus : it.stablecoin.amount < 0 := by omega
    have scaled : 0 ≤ -it.stablecoin.amount * 1000 := by omega
    have worth := Int.ediv_nonneg scaled hp.le
    have small := Int.ediv_le_self price.amount scaled
    have quotient : (it.stablecoin.amount * 1000).tdiv price.amount =
        -(-it.stablecoin.amount * 1000 / price.amount) := by
      rw [← Int.tdiv_eq_ediv_of_nonneg scaled, neg_mul, Int.neg_tdiv, neg_neg]
    simp only [if_neg short, abs_of_neg surplus, Expr.Fits, Expr.exact, Op.Fits, Op.exact,
      Word.Holds, true_and, quotient, zero_sub, neg_neg]
    refine ⟨⟨fun fits => ?_, fun range => ?_⟩, trivial⟩ <;> omega

theorem conversion_exact (hp : 0 ≤ price.amount) (left : it.stablecoin.amount ≠ 0) {next : Cdp}
    (h : convertRemainder it price = .ok next) :
    (conversion it price).Exact ↔ (conversion it price).range := by
  by_cases iq : it.stablecoin.symbol = IQ_SYMBOL
  · obtain ⟨fits, exact⟩ := conversion_iq hp left iq
    exact Computation.exact_iff (conversion_evaluates h) fits fun _ => exact
  · have divides : price.amount ≠ 0 := by
      intro zero
      simp [convertRemainder, if_neg iq, zero, divI64] at h
    have positive : 0 < price.amount := by omega
    obtain ⟨fits, exact⟩ := conversion_other positive left iq
    exact Computation.exact_iff (conversion_evaluates h) fits fun _ => exact

end Computations

/-! ## Every call -/

variable {c : Ctx} {s s' : State} {a : Action} {k : Computation}

theorem settle_indebted {feeder : Name} {symbl : SymbolCode}
    (h : Maker.settle c s feeder symbl = .ok s') :
    ∃ st, s.stats.lookup (c.self, symbl) = some st ∧ 0 < st.totalStablecoin.amount := by
  simp only [Maker.settle, Ctx.requireAuth_eq_ok, Checked.bind_eq_ok, Checked.require_eq_ok,
    Checked.find_eq_ok, Checked.pure_eq_ok, exists_const] at h
  obtain ⟨-, -, st, found, ⟨debt, -⟩, -⟩ := h
  exact ⟨st, found, debt⟩

theorem wipe_priced {owner : Name} {symbl : SymbolCode} {quantity : Asset} {fv : Feed}
    (hs : Sound s) (h : Maker.wipe c s owner symbl quantity = .ok s')
    (price : s.feeds.lookup IQ_SYMBOL.code = some fv) : 0 < fv.price.amount := by
  obtain ⟨_, _, fv', _, _, _, _, _, _, -, -, -, -, -, -, -, -, price', fee, -⟩ := wipe_ok h
  cases price.symm.trans price'
  simp only [stabilityFee, divI64, Checked.bind_eq_ok, Checked.require_eq_ok] at fee
  obtain ⟨_, ⟨_, divides, -⟩, -⟩ := fee
  have := hs.price price
  omega

/-- The remainder that an expired round puts on offer is converted at the price of IQ. -/
theorem liquify_converts {bidder owner : Name} {symbl : SymbolCode} {bidamt : Asset} {st : Stat}
    {bt : Bid} {row it : Cdp} {fv : Feed} (h : Maker.liquify c s bidder owner symbl bidamt = .ok s')
    (type : s.stats.lookup (c.self, symbl) = some st)
    (found : s.cdps.lookup (symbl, owner) = some row) (opened : openAuction c s st row = .ok it)
    (standing : s.bids.lookup (symbl, owner) = some bt) (expired : roundOpen c st bt = false)
    (left : it.stablecoin.amount ≠ 0) (price : s.feeds.lookup IQ_SYMBOL.code = some fv) :
    ∃ next, convertRemainder it fv.price = .ok next := by
  obtain ⟨st', row', it', lot, -, -, type', found', opened', bidding, -⟩ := liquify_ok h
  cases type.symm.trans type'
  cases found.symm.trans found'
  cases opened.symm.trans opened'
  cases bidding with
  | first none =>
    cases none.symm.trans standing
  | next bt' standing' running =>
    cases standing.symm.trans standing'
    cases expired.symm.trans running
  | roll bt' spent standing' expired' awarded taken =>
    rcases offerRemainder_ok taken with ⟨zero, -⟩ | ⟨fv', next, _, _, _, -, price', converted, -⟩
    · rw [(award_rows awarded).1] at zero
      exact absurd zero left
    · rw [award_feeds awarded] at price'
      cases price.symm.trans price'
      rw [convert_award awarded] at converted
      exact ⟨next, converted⟩

/-- In a call that succeeds each computation is exact just within its bounds. -/
theorem Computes.exact_iff (hs : Sound s) (done : apply c s a = .ok s') (h : Computes c s a k) :
    k.Exact ↔ k.range := by
  cases h with
  | bail type found feed debt =>
    obtain ⟨_, _, _, _, _, -, positive, type', -, found', live, -, less, feed', -⟩ := bail_ok done
    cases type.symm.trans type'
    cases found.symm.trans found'
    have row := hs.cdps _ _ found
    have owed := row.debt live
    have locked := row.collateral live
    exact bailTest_exact (hs.price feed) (by omega) (by omega) (by omega)
  | draw found feed =>
    obtain ⟨_, _, _, _, _, _, -, positive, -, -, found', live, -, small, -⟩ := draw_ok done
    cases found.symm.trans found'
    have row := hs.cdps _ _ found
    have owed := row.debt live
    have locked := row.collateral live
    exact drawTest_exact (hs.price feed) (by omega) small locked.1 locked.2
  | settle type feed =>
    obtain ⟨_, type', debt⟩ := settle_indebted done
    cases type.symm.trans type'
    exact settleTest_exact (hs.price feed) debt
  | wipe type found price =>
    obtain ⟨_, _, _, _, _, _, _, _, _, -, positive, -⟩ := wipe_ok done
    exact wipeFee_exact positive (wipe_priced hs done price)
  | opening found live feed =>
    obtain ⟨_, _, _, _, -, -, -, found', opened, -⟩ := liquify_ok done
    cases found.symm.trans found'
    rcases openAuction_ok opened with ⟨dead, -⟩ | ⟨_, _, -, debt, -⟩
    · cases live.symm.trans dead
    · exact openingTest_exact (hs.price feed) debt ((hs.cdps _ _ found).collateral live).1
  | penalty type found live =>
    have owed := (hs.cdps _ _ found).debt live
    exact penalty_exact owed.1 owed.2
  | raise type standing running =>
    have positive := (hs.bids _ _ standing).1
    exact raise_exact positive.le
  | conversion type found opened standing expired left price =>
    obtain ⟨next, converted⟩ := liquify_converts done type found opened standing expired left price
    exact conversion_exact (hs.price price) left converted

/-- Every operation of a call that succeeds is exact. -/
def NeverWraps (c : Ctx) (s : State) (a : Action) : Prop :=
  ∀ s', apply c s a = .ok s' → ∀ k, Computes c s a k → k.Exact

/-- Every computation of a call that succeeds is within its bounds. -/
def InRange (c : Ctx) (s : State) (a : Action) : Prop :=
  ∀ s', apply c s a = .ok s' → ∀ k, Computes c s a k → k.range

theorem neverWraps_iff_inRange (hs : Sound s) : NeverWraps c s a ↔ InRange c s a := by
  constructor
  · intro exact s' done k computes
    exact (computes.exact_iff hs done).mp (exact s' done k computes)
  · intro range s' done k computes
    exact (computes.exact_iff hs done).mpr (range s' done k computes)

/-- No call of a run wraps, exactly when every call of it stays within the bounds. -/
theorem exact_iff_inRange (self : Name) (clock : Nat) (es : List Event) :
    Along (step self) (Meets self NeverWraps) (World.genesis clock) es ↔
      Along (step self) (Meets self InRange) (World.genesis clock) es := by
  refine along_iff_along (I := fun w => Sound w.state) ?_ Sound.empty (along_true _ es)
  intro w e sound _
  have next : Sound (run (step self) w [e]).state :=
    always Sound.queueless (fun _ _ _ _ _ hs h => hs.apply h) sound
  have same : Meets self NeverWraps w e ↔ Meets self InRange w e := by
    refine forall_congr' fun call => forall_congr' fun called => ?_
    exact neverWraps_iff_inRange (call_meets Sound.queueless sound called).2
  by_cases within : Meets self InRange w e
  · exact Or.inl ⟨within, same.mpr within, next⟩
  · exact Or.inr ⟨within, fun exact => within (same.mp exact)⟩

section

open Sample

/-- The product of the ratio wraps to 184, and the CDP is liquidated. -/
theorem hoarded_wraps :
    ¬ Along (step daiqcontract) (Meets daiqcontract NeverWraps) (World.genesis 1000)
      (hoarded ++ [.act [nick] (.liquify nick nick FUD ⟨5, USD⟩)]) := by
  intro exact
  have last := (along_append.mp exact).2.1 _ rfl
  have liquified : Succeeds daiqcontract (after daiqcontract 1000 hoarded)
      (.act [nick] (.liquify nick nick FUD ⟨5, USD⟩)) _ _ _ := .of_isOk rfl (by decide +kernel)
  have opening := last _ liquified.done
    (openingTest ⟨⟨0, EOS⟩, ⟨200, USD⟩, 1000⟩
      ⟨1005, ⟨92233720368547759, EOS⟩, ⟨100, USD⟩, true⟩)
    (.opening (by decide +kernel) rfl (by decide +kernel))
  exact absurd opening.2 (by decide +kernel)

end

end DecentralBank.Maker
