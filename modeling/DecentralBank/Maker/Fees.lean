import Mathlib.Algebra.Order.Field.Rat
import Mathlib.Tactic.FieldSimp
import DecentralBank.Lib.Ratio
import DecentralBank.Maker.Genuine

/-!
# The stability fee

`wipe` charges a fee on what it repays, truncated each time; `shut` repays the
rest and charges none. What an owner is not billed is exactly what the
truncations drop and what is left to `shut`.
-/

namespace DecentralBank.Maker

open Runs

variable {c : Ctx} {s s' : State} {st st' : Stat} {it : Cdp} {T : SymbolCode} {owner : Name}
  {price : Asset}

/-- The products of the fee on the whole debt are in range. -/
structure FeeFits (rate age : Nat) (owed : Int) (price : Asset) : Prop where
  yearly : 1000000 * rate < 2 ^ 63
  accrued : 1000000 * rate * age < 2 ^ 63
  scaled : owed * 100 < 2 ^ 63
  fee : ((1000000 * rate * age / SECYR : Nat) : Int) * (owed * 100 / price.amount) < 2 ^ 63

/-- What `wipe` charges on `amount`. -/
def charge (rate age : Nat) (price : Asset) (amount : Int) : Int :=
  rate * age * (amount * 100 / price.amount)

/-- The fee on a part of a debt whose products are in range. -/
theorem stabilityFee_eq {age apr : Nat} {owed : Int} {quantity : Asset}
    (fits : FeeFits st.stabilityFee age owed price) (priced : 0 < price.amount)
    (positive : 0 < quantity.amount) (part : quantity.amount ≤ owed)
    (h : stabilityFee st age quantity price = .ok apr) :
    (apr : Int) = charge st.stabilityFee age price quantity.amount := by
  have scaled := fits.scaled
  have small : i64 (quantity.amount * 100) = quantity.amount * 100 :=
    i64_of_lt (by omega) (by omega)
  have worth : 0 ≤ quantity.amount * 100 / price.amount := Int.ediv_nonneg (by omega) priced.le
  have more : quantity.amount * 100 / price.amount ≤ owed * 100 / price.amount :=
    Int.ediv_le_ediv priced (by omega)
  obtain ⟨w, quotient⟩ := Int.eq_ofNat_of_zero_le worth
  have rounds : 1000000 * st.stabilityFee * age / SECYR = 100000 * (st.stabilityFee * age) := by
    rw [SECYR, mul_assoc]
    omega
  have product : 100000 * (st.stabilityFee * age) * w < 2 ^ 63 := by
    have below := fits.fee
    rw [rounds] at below
    have most := lt_of_le_of_lt (mul_le_mul_of_nonneg_left more (Int.natCast_nonneg _)) below
    rw [quotient, ← Nat.cast_mul] at most
    omega
  have yearly : u64 (1000000 * (st.stabilityFee : Int)) = 1000000 * st.stabilityFee := by
    have below := fits.yearly
    rw [← u64_natCast (show 1000000 * st.stabilityFee < 2 ^ 64 by omega), Nat.cast_mul]
    rfl
  have factor : w < 2 ^ 64 := by
    have := Int.ediv_le_self price.amount (show 0 ≤ quantity.amount * 100 by omega)
    omega
  have accrued := fits.accrued
  simp only [stabilityFee, small, divI64_pos (show 0 ≤ quantity.amount * 100 by omega) priced,
    Checked.bind_eq_ok, Checked.pure_eq_ok, Except.ok.injEq, exists_eq_left', yearly, quotient,
    u64_natCast factor, ← Nat.cast_mul,
      u64_natCast (show 1000000 * st.stabilityFee * age < 2 ^ 64 by omega),
    rounds, u64_natCast (show 100000 * (st.stabilityFee * age) * w < 2 ^ 64 by omega)] at h
  rw [charge, quotient, ← h, mul_assoc, Nat.mul_div_cancel_left _ (by norm_num)]
  push_cast
  rfl

/-! ## One repayment -/

/-- The IQ of `owner`. -/
def iqOf (owner : Name) (accounts : Accounts) : Int :=
  accounts.total fun k row =>
    if k = (IQ_SYMBOL.code, owner) ∧ row.label.1 = IQ_SYMBOL then row.amount else 0

theorem iqOf_moved {a b : Accounts} {moves : List Move} (h : Moved a moves b) :
    iqOf owner b = iqOf owner a + (moves.map fun m =>
      (if m.key = (IQ_SYMBOL.code, owner) ∧ m.label.1 = IQ_SYMBOL then 1 else 0) *
        m.amount).sum := by
  refine h.total_eq (fun k l => if k = (IQ_SYMBOL.code, owner) ∧ l.1 = IQ_SYMBOL then 1 else 0) ?_
  intro k row
  by_cases hk : k = (IQ_SYMBOL.code, owner) ∧ row.label.1 = IQ_SYMBOL
  · simp only [if_pos hk, one_mul]
  · simp only [if_neg hk, zero_mul]

/-- What of the collateral is IQ. -/
def Cdp.iq (it : Cdp) : Int := if it.collateral.symbol = IQ_SYMBOL then it.collateral.amount else 0

/-- A live CDP of a type, with the price of IQ that its fee is paid at. -/
structure Owing (own : Name) (T : SymbolCode) (owner : Name) (price : Asset) (s : State) (st : Stat)
    (it : Cdp) : Prop where
  sound : Sound s
  type : s.stats.lookup (own, T) = some st
  found : s.cdps.lookup (T, owner) = some it
  live : it.live = true
  priced : ∃ stamp, quote s.feeds IQ_SYMBOL.code = some (price, stamp)

/-- A stablecoin has two decimals, so it is not IQ. -/
theorem Owing.foreign (h : Owing c.self T owner price s st it) {quantity : Asset}
    (symbol : quantity.symbol = st.totalStablecoin.symbol) : quantity.symbol ≠ IQ_SYMBOL := by
  intro iq
  have cents := (h.sound.stats _ _ h.type).cents
  rw [← symbol, iq] at cents
  cases cents

theorem Owing.wipe {owed : Int} {quantity : Asset} (h : Owing c.self T owner price s st it)
    (fits : FeeFits st.stabilityFee (c.since it.created) owed price) (positive : 0 < price.amount)
    (part : it.stablecoin.amount ≤ owed) (done : Maker.wipe c s owner T quantity = .ok s') :
    ∃ st' it', Owing c.self T owner price s' st' it' ∧
      st'.stabilityFee = st.stabilityFee ∧ it'.created = it.created ∧ it'.iq = it.iq ∧
      it'.stablecoin.amount = it.stablecoin.amount - quantity.amount ∧ 0 < quantity.amount ∧
      st'.feeBalance.amount = st.feeBalance.amount +
        charge st.stabilityFee (c.since it.created) price quantity.amount ∧
      iqOf owner s'.accounts = iqOf owner s.accounts -
        charge st.stabilityFee (c.since it.created) price quantity.amount := by
  have sound := h.sound.apply (a := .wipe owner T quantity) done
  obtain ⟨st₀, it₀, fv, apr, _, _, _, fs, _, -, more, type, symbol, found, -, -, less,
    iq, accrued, fee, paid, feed, rfl⟩ := wipe_ok done
  cases h.type.symm.trans type
  cases h.found.symm.trans found
  obtain ⟨stamp, quoted⟩ := h.priced
  have price' : fv.price = price := by
    have both := (quote_of_lookup iq).symm.trans quoted
    exact congrArg Prod.fst (Option.some.inj both)
  subst price'
  have billed : i64 apr = charge st.stabilityFee (c.since it.created) fv.price quantity.amount := by
    rw [stabilityFee_range accrued]
    exact stabilityFee_eq fits positive more (by omega) accrued
  refine ⟨_, _, ⟨sound, AList.lookup_insert _, AList.lookup_insert _, h.live, stamp, ?_⟩,
    rfl, rfl, rfl, rfl, more, ?_, ?_⟩
  · rw [quote_insert feed]
    exact quoted
  · rw [billed]
  · rw [iqOf_moved ((subBalance_ok fee).1.append (subBalance_ok paid).1)]
    simp only [debit, List.cons_append, List.nil_append, List.map_cons, List.map_nil, List.sum_cons,
      List.sum_nil, h.foreign symbol, and_true, and_false, if_true, if_false, billed]
    omega

theorem Owing.shut (h : Owing c.self T owner price s st it)
    (done : Maker.shut c s owner T = .ok s') :
    s'.cdps.lookup (T, owner) = none ∧ ∃ st', s'.stats.lookup (c.self, T) = some st' ∧
      st'.feeBalance = st.feeBalance ∧
      iqOf owner s'.accounts = iqOf owner s.accounts + it.iq := by
  obtain ⟨st₀, it₀, paid, _, _, _, -, type, found, live, debt, back, rfl⟩ := shut_ok done
  cases h.type.symm.trans type
  cases h.found.symm.trans found
  refine ⟨AList.lookup_erase _ _, _, AList.lookup_insert _, rfl, ?_⟩
  have repaid : iqOf owner paid = iqOf owner s.accounts := by
    obtain ⟨_, -, debited, symbol, -⟩ | ⟨-, rfl, -⟩ := shutDebt_ok debt
    · rw [iqOf_moved (subBalance_ok debited).1]
      simp only [debit, List.map_cons, List.map_nil, List.sum_cons, List.sum_nil, h.foreign symbol,
        and_false, if_false, zero_mul, add_zero]
    · rfl
  rw [← repaid]
  obtain ⟨-, moved, -, -⟩ | ⟨none, rfl, -⟩ := shutCollateral_ok back
  · rw [iqOf_moved moved, Cdp.iq]
    by_cases iq : it.collateral.symbol = IQ_SYMBOL
    · simp [credit, iq]
    · simp [credit, iq]
  · have zero : it.iq = 0 := by
      have := ((h.sound.cdps _ _ found).collateral live).1
      rw [Cdp.iq]
      split <;> omega
    rw [zero, add_zero]

/-! ## Repayment in full -/

/-- A repayment by `owner` on `T`. -/
def Event.Repays (owner : Name) (T : SymbolCode) : Event → Prop
  | .act _ (.wipe payer symbl _) => payer = owner ∧ symbl = T
  | .act _ (.shut payer symbl) => payer = owner ∧ symbl = T
  | _ => False

/-- The event makes a call that succeeds. -/
def Done (own : Name) (w : World) (e : Event) : Prop := ∃ c s a, Succeeds own w e c s a

/-- A hundred times each amount that is wiped. -/
def wiped (es : List Event) : List Int :=
  es.filterMap fun
    | .act _ (.wipe _ _ quantity) => some (quantity.amount * 100)
    | _ => none

/-- Without a CDP there is nothing to repay. -/
theorem Event.Repays.found {own : Name} {w : World} {e : Event} (h : e.Repays owner T)
    (done : Done own w e) : ∃ it, w.state.cdps.lookup (T, owner) = some it := by
  obtain ⟨c, s, a, called, applied⟩ := done
  cases e with
  | act auth action =>
    cases called
    cases a with
    | wipe payer symbl quantity =>
      obtain ⟨rfl, rfl⟩ := h
      obtain ⟨_, it, _, _, _, _, _, _, _, -, -, -, -, found, -⟩ := wipe_ok applied
      exact ⟨it, found⟩
    | shut payer symbl =>
      obtain ⟨rfl, rfl⟩ := h
      obtain ⟨_, it, _, _, _, _, -, -, found, -⟩ := shut_ok applied
      exact ⟨it, found⟩
    | _ => exact h.elim
  | fire id => exact h.elim
  | elapse seconds => exact h.elim

/-- What the repayments charge, and what they cost the owner in IQ. -/
theorem Owing.repaid {own : Name} {owed : Int} {rate age : Nat} (positive : 0 < price.amount)
    (fits : FeeFits rate age owed price) {es : List Event} :
    ∀ {w : World} {st : Stat} {it : Cdp}, Owing own T owner price w.state st it →
      st.stabilityFee = rate → u32 ((u32 w.clock : Int) - it.created) = age →
      it.stablecoin.amount ≤ owed → (∀ e ∈ es, e.Repays owner T) →
      Along (step own) (Done own) w es →
      (run (step own) w es).state.cdps.lookup (T, owner) = none →
      ∃ st', (run (step own) w es).state.stats.lookup (own, T) = some st' ∧
        st'.feeBalance.amount =
          st.feeBalance.amount + rate * age * quotients price.amount (wiped es) ∧
        iqOf owner (run (step own) w es).state.accounts = iqOf owner w.state.accounts -
          rate * age * quotients price.amount (wiped es) + it.iq := by
  induction es with
  | nil =>
    intro w st it h _ _ _ _ _ gone
    rw [run_nil, h.found] at gone
    cases gone
  | cons e es ih =>
    intro w st it h rated aged part repays done gone
    obtain ⟨⟨c, s, a, called, applied⟩, rest⟩ := done
    have clock := step_clock own w e
    have mine : e.Repays owner T := repays e List.mem_cons_self
    have others : ∀ e ∈ es, e.Repays owner T := fun e mem => repays e (List.mem_cons_of_mem _ mem)
    cases e with
    | act auth action =>
      cases called
      cases a with
      | wipe payer symbl quantity =>
        obtain ⟨rfl, rfl⟩ := mine
        subst rated aged
        obtain ⟨st₁, it₁, owing, rate, created, iq, less, more, billed, cost⟩ :=
          h.wipe (c := w.ctx own auth) fits positive part applied
        obtain ⟨st', type, fees, paid⟩ := ih owing rate (by rw [clock, created]; rfl)
          (by omega) others rest gone
        have slices : wiped (.act auth (.wipe payer symbl quantity) :: es) =
          quantity.amount * 100 :: wiped es := rfl
        simp only [charge, Ctx.since, Ctx.now, World.ctx] at billed cost
        refine ⟨st', type, ?_, ?_⟩
        · rw [fees, billed, slices, quotients_cons]
          ring
        · rw [run_cons, paid, cost, slices, quotients_cons, iq]
          ring
      | shut payer symbl =>
        obtain ⟨rfl, rfl⟩ := mine
        obtain ⟨closed, st', type, fees, paid⟩ := h.shut (c := w.ctx own auth) applied
        cases es with
        | nil =>
          have none : wiped [.act auth (.shut payer symbl)] = [] := rfl
          refine ⟨st', type, ?_, ?_⟩
          · simp only [fees, none, quotients, List.map_nil, List.sum_nil, mul_zero, add_zero]
          · simp only [run_cons, run_nil, paid, none, quotients, List.map_nil,
              List.sum_nil, mul_zero, sub_zero]
        | cons next es =>
          obtain ⟨it', found⟩ := (others next List.mem_cons_self).found rest.1
          cases closed.symm.trans found
      | _ => exact mine.elim
    | fire id => exact mine.elim
    | elapse seconds => exact mine.elim

/-- The fee on `amount` without truncation. -/
def exactFee (rate age : Nat) (price : Asset) (amount : Int) : ℚ :=
  1000000 * rate * age / SECYR * (amount * 100 / price.amount) / 100000

theorem exactFee_sub_le_iff {rate age : Nat} {amount : Int} {n : Nat} {x : Int}
    (positive : 0 < price.amount) : exactFee rate age price amount - n ≤ x ↔
      rate * age * (amount * 100) ≤ (x + n) * price.amount := by
  have divisor : (0 : ℚ) < price.amount := by exact_mod_cast positive
  have whole : exactFee rate age price amount = rate * age * (amount * 100) / price.amount := by
    rw [exactFee, SECYR]
    field_simp
    ring
  rw [whole, sub_le_iff_le_add, div_le_iff₀ divisor]
  exact_mod_cast Iff.rfl

/-- What a sequence of repayments of `owed` is not billed: the remainders of
the wipes, and all that is left to `shut`. -/
def unbilled (rate age : Nat) (price : Asset) (owed : Int) (es : List Event) : Int :=
  rate * age * (remainders price.amount (wiped es) + (owed * 100 - (wiped es).sum))

/-- A debt repaid in full at one time is charged the exact fee, up to one
unit of IQ for each call, if and only if what is not billed is worth no more
than that; so with what it costs the owner, less the collateral in IQ that is
handed back. -/
theorem fee_charged_iff (self : Name) (clock : Nat) (first es : List Event) (T : SymbolCode)
    (owner : Name) (st : Stat) (it : Cdp) (fv : Feed) (age : Nat)
    (type : (after self clock first).state.stats.lookup (self, T) = some st)
    (found : (after self clock first).state.cdps.lookup (T, owner) = some it)
    (live : it.live = true)
    (iq : (after self clock first).state.feeds.lookup IQ_SYMBOL.code = some fv)
    (positive : 0 < fv.price.amount)
    (aged : u32 ((u32 (after self clock first).clock : Int) - it.created) = age)
    (fits : FeeFits st.stabilityFee age it.stablecoin.amount fv.price)
    (repays : ∀ e ∈ es, e.Repays owner T)
    (done : Along (step self) (Done self) (after self clock first) es)
    (gone : (after self clock (first ++ es)).state.cdps.lookup (T, owner) = none) :
    ∃ st', (after self clock (first ++ es)).state.stats.lookup (self, T) = some st' ∧
      (exactFee st.stabilityFee age fv.price it.stablecoin.amount - es.length ≤
          ((st'.feeBalance.amount - st.feeBalance.amount : Int) : ℚ) ↔
        unbilled st.stabilityFee age fv.price it.stablecoin.amount es ≤
          es.length * fv.price.amount) ∧
      (exactFee st.stabilityFee age fv.price it.stablecoin.amount - es.length ≤
          ((iqOf owner (after self clock first).state.accounts -
            iqOf owner (after self clock (first ++ es)).state.accounts : Int) : ℚ) ↔
        unbilled st.stabilityFee age fv.price it.stablecoin.amount es + it.iq * fv.price.amount ≤
          es.length * fv.price.amount) := by
  have owing : Owing self T owner fv.price (after self clock first).state st it :=
    ⟨sound_after self clock first, type, found, live, fv.stamp, quote_of_lookup iq⟩
  rw [after_append] at gone ⊢
  obtain ⟨st', type', fees, paid⟩ := owing.repaid positive fits rfl aged le_rfl repays done gone
  have divided : st.stabilityFee * age * quotients fv.price.amount (wiped es) * fv.price.amount =
      st.stabilityFee * age * ((wiped es).sum - remainders fv.price.amount (wiped es)) := by
    rw [mul_assoc, quotients_mul]
  refine ⟨st', type', ?_, ?_⟩
  · rw [exactFee_sub_le_iff positive, fees, unbilled]
    constructor <;> intro h <;> linarith
  · rw [exactFee_sub_le_iff positive, paid, unbilled]
    constructor <;> intro h <;> linarith

section

open Sample

/-- Ten seconds later `nick` still owes 100.00 USD. -/
def lent : List Event := indebted ++ [.elapse 10]

def nickDebt : Cdp := ⟨1005, ⟨1000000, EOS⟩, ⟨10000, USD⟩, true⟩

def lentType : Stat :=
  { (terms EOS 150).draft with
    live := true, lastVote := 1005, totalStablecoin := ⟨10000, USD⟩
    totalCollateral := ⟨⟨1000000, EOS⟩, eosioToken⟩ }

def shutDown : Event := .act [nick] (.shut nick FUD)

/-- `nick` repays 0.50 USD, and then the rest. -/
def inParts : List Event := [.act [nick] (.wipe nick FUD ⟨50, USD⟩), shutDown]

theorem fee_charged_iff_nick :
    ∃ st', (after daiqcontract 1000 (lent ++ inParts)).state.stats.lookup (daiqcontract, FUD) =
        some st' ∧
      (exactFee 10 10 ⟨500, USD⟩ 10000 - 2 ≤ ((st'.feeBalance.amount - 0 : Int) : ℚ) ↔
        unbilled 10 10 ⟨500, USD⟩ 10000 inParts ≤ 2 * 500) := by
  have repays : ∀ e ∈ inParts, e.Repays nick FUD := by
    intro e mem
    simp only [inParts, List.mem_cons, List.not_mem_nil, or_false] at mem
    obtain rfl | rfl := mem
    · exact ⟨rfl, rfl⟩
    · exact ⟨rfl, rfl⟩
  have done :
      Along (step daiqcontract) (Done daiqcontract) (after daiqcontract 1000 lent) inParts :=
    ⟨⟨_, _, _, .of_isOk rfl (by decide +kernel)⟩,
      ⟨_, _, _, .of_isOk rfl (by decide +kernel)⟩, trivial⟩
  obtain ⟨st', type, billed, -⟩ := fee_charged_iff daiqcontract 1000 lent inParts FUD nick lentType
    nickDebt ⟨⟨2000, IQ_SYMBOL⟩, ⟨500, USD⟩, 1000⟩ 10 (by decide +kernel) (by decide +kernel) rfl
    (by decide +kernel) (by decide) (by decide +kernel)
    ⟨by decide, by decide, by decide, by decide⟩ repays done (by decide +kernel)
  exact ⟨st', type, billed⟩

/-- With a fee of 10 and 5.00 USD for an IQ, the debt costs 200.000 IQ in ten
seconds. A `shut` at once costs nothing. -/
theorem fee_avoided :
    exactFee lentType.stabilityFee 10 ⟨500, USD⟩ 10000 = 200000 ∧
    (after daiqcontract 1000 (lent ++ [shutDown])).state.cdps.lookup (FUD, nick) = none ∧
    (∃ st', (after daiqcontract 1000 (lent ++ [shutDown])).state.stats.lookup (daiqcontract, FUD) =
      some st' ∧ st'.feeBalance = lentType.feeBalance) ∧
    iqOf nick (after daiqcontract 1000 (lent ++ [shutDown])).state.accounts =
      iqOf nick (after daiqcontract 1000 lent).state.accounts := by
  refine ⟨?_, by decide +kernel, ⟨{ lentType with
    totalStablecoin := ⟨0, USD⟩, totalCollateral := ⟨⟨2000000, EOS⟩, eosioToken⟩ },
    by decide +kernel, rfl⟩, by decide +kernel⟩
  norm_num [exactFee, lentType, Terms.draft, terms, SECYR]

end

end DecentralBank.Maker
