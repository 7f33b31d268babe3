import DecentralBank.Maker.Delivery

/-!
# What a remainder is converted to

The next round offers the remainder of the last one against IQ, or the other
way round. Amounts of IQ are in thousandths, and a price is for a whole one.
-/

namespace DecentralBank.Maker

open Runs

/-- What is offered of the remainder's own symbol, and of what it is converted to. -/
def legs (row next : Cdp) : Int × Int :=
  if 0 < row.stablecoin.amount then (next.stablecoin.amount, next.collateral.amount)
  else (next.collateral.amount, next.stablecoin.amount)

/-- Two amounts, of the symbol of a remainder and of what it is converted to, are worth the same
but for one unit of the latter: `y` units of IQ are worth `y * price / 1000` of the stablecoin. -/
def SameValue (remainder : Symbol) (price : Int) (amounts : Int × Int) : Prop :=
  if remainder = IQ_SYMBOL then |amounts.1 * price - amounts.2 * 1000| ≤ 1000
  else |amounts.1 * 1000 - amounts.2 * price| ≤ price

/-- The next round offers the remainder for what it is worth. -/
structure Preserved (row : Cdp) (price : Int) (next : Cdp) : Prop where
  same : (legs row next).1 = |row.stablecoin.amount|
  value : SameValue row.stablecoin.symbol price (legs row next)

/-- A remainder in the stablecoin fits a word when it is multiplied by 1000. One in IQ is a single
unit at the price of one, or its product with the price wraps onto a thousandth of itself. -/
def Converts (row : Cdp) (price : Int) : Prop :=
  if row.stablecoin.symbol = IQ_SYMBOL then
    ∃ k : Int, -250 < k ∧ k < 250 ∧
      |999 * (row.stablecoin.amount * price) - 1000 * 2 ^ 64 * k| ≤ 1000
  else -2 ^ 63 ≤ row.stablecoin.amount * 1000 ∧ row.stablecoin.amount * 1000 < 2 ^ 63

/-! ## Words -/

/-- The word of a product is worth a thousandth of it only when it wraps so. -/
theorem word_thousandth {n : Int} (lo : -Asset.maxAmount ≤ i64 n) (hi : i64 n ≤ Asset.maxAmount) :
    |n - i64 n * 1000| ≤ 1000 ↔
      ∃ k : Int, -250 < k ∧ k < 250 ∧ |999 * n - 1000 * 2 ^ 64 * k| ≤ 1000 := by
  unfold Asset.maxAmount at lo hi
  constructor
  · intro close
    obtain ⟨k, word⟩ := i64_eq_sub n
    rw [abs_le] at close
    refine ⟨k, by omega, by omega, ?_⟩
    rw [abs_le]
    omega
  · rintro ⟨k, low, high, close⟩
    rw [abs_le] at close
    have word : i64 n = n - 2 ^ 64 * k := by
      rw [← i64_of_lt (x := n - 2 ^ 64 * k) (by omega) (by omega)]
      exact i64_congr (by omega)
    rw [word, abs_le]
    omega

/-- The truncated quotient of a product by 1000 is worth it only when the product fits a word. -/
theorem word_quotient {n price : Int} (positive : 0 < price) (range : price ≤ Asset.maxAmount) :
    |n * 1000 - (i64 (n * 1000)).tdiv price * price| ≤ price ↔
      -2 ^ 63 ≤ n * 1000 ∧ n * 1000 < 2 ^ 63 := by
  have near := tdiv_within (i64 (n * 1000)) positive
  have inWord := i64_range (n * 1000)
  obtain ⟨k, word⟩ := i64_eq_sub (n * 1000)
  unfold Asset.maxAmount at range
  rw [abs_lt] at near
  rw [abs_le]
  constructor
  · intro close
    omega
  · rintro ⟨lo, hi⟩
    rw [i64_of_lt lo hi] at near ⊢
    omega

/-- Negating a word wraps only the least one, which is no amount. -/
theorem i64_neg {x : Int} (word : -2 ^ 63 ≤ x ∧ x < 2 ^ 63)
    (range : -Asset.maxAmount ≤ i64 (-x) ∧ i64 (-x) ≤ Asset.maxAmount) : i64 (-x) = -x := by
  unfold Asset.maxAmount at range
  obtain ⟨k, wrapped⟩ := i64_eq_sub (-x)
  omega

theorem quotient_range (n : Int) {price : Int} (positive : 0 < price) :
    -2 ^ 63 ≤ (i64 n).tdiv price ∧ (i64 n).tdiv price < 2 ^ 63 := by
  have word := i64_range n
  have smaller := Int.natAbs_tdiv_le_natAbs (i64 n) price
  have near := tdiv_within (i64 n) positive
  by_cases least : (i64 n).tdiv price = 2 ^ 63
  · rw [least, abs_lt] at near
    have := mul_le_mul_of_nonneg_left (show 1 ≤ price by omega) (show (0 : Int) ≤ 2 ^ 63 by omega)
    omega
  · omega

/-! ## The four conversions -/

section Conversions

variable {row next : Cdp} {price : Asset}

theorem preserved_legs {p converted : Int}
    (h : legs row next = (|row.stablecoin.amount|, converted)) :
    Preserved row p next ↔
      SameValue row.stablecoin.symbol p (|row.stablecoin.amount|, converted) := by
  constructor
  · intro kept
    rw [← h]
    exact kept.value
  · intro value
    exact ⟨by rw [h], h ▸ value⟩

/-- A conversion keeps the value of a remainder exactly when nothing wraps and nothing is in IQ,
or by a coincidence of the two. -/
theorem preserved_iff (debt : row.stablecoin.amount ≠ 0) (positive : 0 < price.amount)
    (range : price.amount ≤ Asset.maxAmount) (h : convertRemainder row price = .ok next) :
    Preserved row price.amount next ↔ Converts row price.amount := by
  simp only [convertRemainder, Checked.ite_eq_ok, Checked.bind_eq_ok, Asset.make_eq_ok, divI64,
    Checked.require_eq_ok, Checked.pure_eq_ok, exists_const] at h
  rcases h
    with ⟨short, ⟨iq, _, ⟨amount, -, rfl⟩, rfl⟩ | ⟨other, _, ⟨-, -, rfl⟩, _, ⟨-, -, rfl⟩, rfl⟩⟩ |
    ⟨surplus, ⟨iq, _, ⟨amount, -, rfl⟩, rfl⟩ | ⟨other, _, ⟨-, -, rfl⟩, _, ⟨amount, -, rfl⟩, rfl⟩⟩
  · rw [Converts, if_pos iq, ← word_thousandth amount.1 amount.2, preserved_legs (by
      rw [legs, if_pos short, abs_of_pos short]), SameValue, if_pos iq, abs_of_pos short]
  · rw [Converts, if_neg other, ← word_quotient positive range, preserved_legs (by
      rw [legs, if_pos short, abs_of_pos short]), SameValue, if_neg other, abs_of_pos short]
  · have negative : row.stablecoin.amount < 0 := by omega
    have negated := i64_neg (i64_range _) amount
    have both : -row.stablecoin.amount * price.amount -
        -i64 (row.stablecoin.amount * price.amount) * 1000 =
        -(row.stablecoin.amount * price.amount -
          i64 (row.stablecoin.amount * price.amount) * 1000) := by
      ring
    rw [negated] at amount ⊢
    rw [Converts, if_pos iq, ← word_thousandth (by omega) (by omega), preserved_legs (by
      rw [legs, if_neg surplus, abs_of_neg negative]; rfl), SameValue, if_pos iq,
      abs_of_neg negative, both, abs_neg]
  · have negative : row.stablecoin.amount < 0 := by omega
    have negated := i64_neg (quotient_range _ positive) amount
    have both : -row.stablecoin.amount * 1000 -
        -(i64 (row.stablecoin.amount * 1000)).tdiv price.amount * price.amount =
        -(row.stablecoin.amount * 1000 -
          (i64 (row.stablecoin.amount * 1000)).tdiv price.amount * price.amount) := by
      ring
    rw [negated]
    rw [Converts, if_neg other, ← word_quotient positive range, preserved_legs (by
      rw [legs, if_neg surplus, abs_of_neg negative]; rfl), SameValue, if_neg other,
      abs_of_neg negative, both, abs_neg]

end Conversions

/-! ## Prices are amounts -/

variable {c : Ctx} {s s' : State} {a : Action} {bidder owner : Name} {symbl : SymbolCode}
  {bidamt : Asset} {st : Stat} {row : Cdp} {bt : Bid} {fv : Feed}

/-- Every price is an amount. -/
def PricesInRange (s : State) : Prop :=
  ∀ k q, quote s.feeds k = some q → q.1.amount ≤ Asset.maxAmount

theorem PricesInRange.queueless : Queueless PricesInRange := fun _ _ h => h

theorem PricesInRange.apply (hp : PricesInRange s) (h : Maker.apply c s a = .ok s') :
    PricesInRange s' := by
  intro k q hq
  rcases apply_quote h with same | ⟨_, price, _, symbol, rfl, -, rfl⟩
  · exact hp k q (same ▸ hq)
  · obtain old | ⟨-, ⟨-, rfl⟩ | ⟨f, -, rfl⟩⟩ := upfed_quote hq
    · exact hp k q old
    · exact (upfeed_valid h).1
    · exact Asset.maxAmount_nonneg

/-- At any price of IQ, a round that has run out is rolled over at the value of what it leaves if
and only if that is in the stablecoin and fits a word in thousandths, or it is in IQ and so small,
or wraps so, that the missing division does not show. -/
theorem rollover_preserves_iff (self : Name) (clock : Nat) (es : List Event) (e : Event)
    (ok : Succeeds self (after self clock es) e c s (.liquify bidder owner symbl bidamt))
    (type : s.stats.lookup (self, symbl) = some st)
    (found : s.cdps.lookup (symbl, owner) = some row)
    (standing : s.bids.lookup (symbl, owner) = some bt) (expired : roundOpen c st bt = false)
    (iq : s.feeds.lookup IQ_SYMBOL.code = some fv) (positive : 0 < fv.price.amount) :
    ∃ next, nextRound s row = some next ∧
      (∀ it ∈ (step self (after self clock es) e).state.cdps.lookup (symbl, owner),
        it.collateral = next.collateral ∧
          it.stablecoin = ⟨next.stablecoin.amount - bidamt.amount, next.stablecoin.symbol⟩) ∧
      (Preserved row fv.price.amount next ↔ Converts row fv.price.amount) := by
  have queue := Sound.queueless.and PricesInRange.queueless
  have start : Sound (after self clock es).state ∧ PricesInRange (after self clock es).state :=
    always queue (fun _ _ _ _ _ both h => ⟨both.1.apply h, both.2.apply h⟩)
      ⟨Sound.empty, fun k q none => by cases none⟩
  obtain ⟨rfl, sound, range⟩ := call_meets queue start ok.called
  obtain ⟨st', row', it, lot, -, -, type', found', opened, bidding, done⟩ := liquify_ok ok.done
  cases type.symm.trans type'
  cases found.symm.trans found'
  cases standing_unopened sound standing found opened
  cases bidding with
  | first none => cases none.symm.trans standing
  | next bt' standing' running =>
    cases standing.symm.trans standing'
    rw [expired] at running
    cases running
  | roll bt' spent standing' _ awarded taken =>
    cases standing.symm.trans standing'
    obtain ⟨fv', next, _, _, _, debt, iq', converted, -, -, -, rfl⟩ :=
      roll_ok sound standing found opened awarded taken
    cases iq.symm.trans iq'
    refine ⟨next, nextRound_eq iq converted, fun it stays => ?_,
      preserved_iff debt positive (range _ _ (quote_of_lookup iq)) converted⟩
    obtain ⟨other, -⟩ | ⟨-, ⟨cdp, -⟩ | ⟨none, -⟩⟩ := finish_lookup done (symbl, owner)
    · exact absurd rfl other
    · cases cdp.symm.trans stays
      exact ⟨rfl, rfl⟩
    · cases none.symm.trans stays

section

open Sample

/-- The round of `nick` has run out with 100 USD left, offered against 20 IQ. -/
theorem rollover_preserves_nick :
    let w := after daiqcontract 1000 (underway ++ [.elapse 5])
    ∃ next, nextRound w.state nickAuction = some next ∧ Preserved nickAuction 500 next := by
  intro w
  have ok : Succeeds daiqcontract w (bidOnNick sick 4000) (w.ctx daiqcontract [sick]) w.state
      (.liquify sick nick FUD ⟨4000, USD⟩) := .of_isOk rfl (by decide +kernel)
  have type : w.state.stats.lookup (daiqcontract, FUD) = some (fudType 25000 3000000) := by
    decide +kernel
  have found : w.state.cdps.lookup (FUD, nick) = some nickAuction := by decide +kernel
  have standing : w.state.bids.lookup (FUD, nick) = some nickBid := by decide +kernel
  have iq : w.state.feeds.lookup IQ_SYMBOL.code = some ⟨⟨2000, IQ_SYMBOL⟩, ⟨500, USD⟩, 1000⟩ := by
    decide +kernel
  obtain ⟨next, offers, -, kept⟩ := rollover_preserves_iff daiqcontract 1000 _ (bidOnNick sick 4000)
    ok type found standing (by decide +kernel) iq (by decide)
  have fits : Converts nickAuction 500 := by
    rw [Converts, if_neg (by decide)]
    decide
  exact ⟨next, offers, kept.mpr fits⟩

/-- `sick` pays 10 USD too much, for which 2 IQ are asked; `nick` bids one of them, and time runs
out. -/
def surplusRolled : List Event :=
  atRisk 20000 ++
    [ .act [nick] (.deposit IQ_NAME nick daiqcontract ⟨5000, IQ_SYMBOL⟩ []),
      bidOnNick nick 5000,
      bidOnNick sick 16000,
      .elapse 5,
      .act [nick] (.liquify nick nick FUD ⟨1000, IQ_SYMBOL⟩),
      .elapse 5 ]

/-- The other IQ is asked for 5000 USD, at 5 USD each. -/
theorem rollover_multiplies :
    let w := after daiqcontract 1000 surplusRolled
    let e : Event := .act [nick] (.liquify nick nick FUD ⟨100, IQ_SYMBOL⟩)
    let row : Cdp := ⟨1005, ⟨1000, USD⟩, ⟨1000, IQ_SYMBOL⟩, false⟩
    let next : Cdp := ⟨1005, ⟨500000, USD⟩, ⟨1000, IQ_SYMBOL⟩, false⟩
    Succeeds daiqcontract w e (w.ctx daiqcontract [nick]) w.state
        (.liquify nick nick FUD ⟨100, IQ_SYMBOL⟩) ∧
      w.state.cdps.lookup (FUD, nick) = some row ∧
      w.state.bids.lookup (FUD, nick) = some ⟨nick, ⟨1000, IQ_SYMBOL⟩, 1015, 1015⟩ ∧
      roundOpen (w.ctx daiqcontract [nick]) (fudType 30000 3000000)
        ⟨nick, ⟨1000, IQ_SYMBOL⟩, 1015, 1015⟩ = false ∧
      nextRound w.state row = some next ∧
      (w.state.feeds.lookup IQ_SYMBOL.code).map (·.price) = some ⟨500, USD⟩ ∧
      ¬ Preserved row 500 next := by
  intro w e row next
  refine ⟨.of_isOk rfl (by decide +kernel), by decide +kernel, by decide +kernel, by decide +kernel,
    by decide +kernel, by decide +kernel, fun kept => ?_⟩
  have value := kept.value
  revert value
  unfold SameValue
  decide

end

end DecentralBank.Maker
