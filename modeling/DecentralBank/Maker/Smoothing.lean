import DecentralBank.Maker.Effects

/-!
# Smoothed prices

`upfeed` is to smooth prices: 17 parts of the old one and 3 of the new one, of
20. In integers both weights are zero.
-/

namespace DecentralBank.Maker

open Runs

/-- `p` lies between the stored price `p₀` and the fed one `p₁`, and is their weighted average up to
one unit. -/
structure Averaged (p₀ p₁ p : Int) : Prop where
  above : min p₀ p₁ ≤ p
  below : p ≤ max p₀ p₁
  average : |20 * p - (17 * p₀ + 3 * p₁)| ≤ 20

variable {c : Ctx} {s s' : State} {a : Action} {k : SymbolCode} {f : Feed}

/-- The price of `k` is zero. -/
def Zeroed (k : SymbolCode) (s : State) : Prop :=
  ∃ q, quote s.feeds k = some q ∧ q.1.amount = 0

theorem Zeroed.queueless (k : SymbolCode) : Queueless (Zeroed k) := fun _ _ h => h

/-- A price of zero is there to stay. -/
theorem Zeroed.apply (zero : Zeroed k s) (h : Maker.apply c s a = .ok s') : Zeroed k s' := by
  obtain ⟨q, quoted, none⟩ := zero
  rcases apply_quote h with same | ⟨_, price, _, symbol, rfl, -, rfl⟩
  · exact ⟨q, same ▸ quoted, none⟩
  · obtain ⟨f, stored, rfl⟩ := Option.map_eq_some_iff.mp quoted
    by_cases here : k = symbol.code
    · subst here
      refine ⟨(⟨0, f.price.symbol⟩, c.now), ?_, rfl⟩
      rw [quote, AList.lookup_insert, stored]
      rfl
    · refine ⟨(f.price, f.stamp), ?_, none⟩
      rw [quote, Table.lookup_insert, if_neg here, stored]
      rfl

theorem upfeed_zeroes {feeder : Name} {price : Asset} {cdpType : SymbolCode} {symbol : Symbol}
    (h : upfeed c s feeder price cdpType symbol = .ok s')
    (stored : s.feeds.lookup symbol.code = some f) : Zeroed symbol.code s' := by
  obtain ⟨-, rfl⟩ := upfeed_ok h
  refine ⟨(⟨0, f.price.symbol⟩, c.now), ?_, rfl⟩
  rw [quote, AList.lookup_insert, stored]
  rfl

/-- An update of a positive price is never an average: whoever feeds whatever price, the stored one
is zero, and after any further calls it still is. -/
theorem never_averaged (self : Name) (clock : Nat) (es : List Event) (e : Event)
    {feeder : Name} {price : Asset} {cdpType : SymbolCode} {symbol : Symbol}
    (ok : Succeeds self (after self clock es) e c s (.upfeed feeder price cdpType symbol))
    (stored : s.feeds.lookup symbol.code = some f) (positive : 0 < f.price.amount)
    (later : List Event) :
    ∃ new, (run (step self) (step self (after self clock es) e) later).state.feeds.lookup
        symbol.code = some new ∧
      new.price.amount = 0 ∧ ¬ Averaged f.price.amount price.amount new.price.amount := by
  have zero : Zeroed symbol.code (step self (after self clock es) e).state :=
    upfeed_zeroes ok.done stored
  have still :
      Zeroed symbol.code (run (step self) (step self (after self clock es) e) later).state :=
    always (Zeroed.queueless _) (fun _ _ _ _ _ zero h => zero.apply h) zero
  obtain ⟨q, quoted, none⟩ := still
  obtain ⟨new, found, rfl⟩ := Option.map_eq_some_iff.mp quoted
  refine ⟨new, found, none, fun averaged => ?_⟩
  have fed := (upfeed_ok ok.done).1
  have above := averaged.above
  have least : 0 < min f.price.amount price.amount := lt_min positive fed
  simp only at none
  omega

section

open Sample

/-- The price of EOS is 2 USD, and is fed again. -/
def again : Event := .act [daiqcontract] (.upfeed daiqcontract ⟨200, USD⟩ FUD EOS)

theorem never_averaged_eos : ∃ new,
    (step daiqcontract (after daiqcontract 1000 (enacted EOS 200 150)) again).state.feeds.lookup
        EOS.code = some new ∧
      new.price.amount = 0 ∧ ¬ Averaged 200 200 new.price.amount := by
  have stored : (after daiqcontract 1000 (enacted EOS 200 150)).state.feeds.lookup EOS.code =
      some ⟨⟨0, EOS⟩, ⟨200, USD⟩, 1000⟩ := by decide +kernel
  have ok : Succeeds daiqcontract (after daiqcontract 1000 (enacted EOS 200 150)) again
      ((after daiqcontract 1000 (enacted EOS 200 150)).ctx daiqcontract [daiqcontract])
      (after daiqcontract 1000 (enacted EOS 200 150)).state
      (.upfeed daiqcontract ⟨200, USD⟩ FUD EOS) := .of_isOk rfl (by decide +kernel)
  exact never_averaged daiqcontract 1000 _ again ok stored (by decide) []

/-- The feeder of the type feeds 1 USD where the price is 2 USD: zero is neither between them nor
their average. -/
theorem fed_to_zero :
    let w := after daiqcontract 1000 (enacted EOS 200 150)
    let e : Event := .act [dick] (.upfeed dick ⟨100, USD⟩ FUD EOS)
    (apply (w.ctx daiqcontract [dick]) w.state (.upfeed dick ⟨100, USD⟩ FUD EOS)).isOk = true ∧
      (w.state.feeds.lookup EOS.code).map (·.price) = some ⟨200, USD⟩ ∧
      ((step daiqcontract w e).state.feeds.lookup EOS.code).map (·.price) = some ⟨0, USD⟩ ∧
      ¬ Averaged 200 100 0 := by
  intro w e
  refine ⟨by decide +kernel, by decide +kernel, by decide +kernel, fun averaged => ?_⟩
  have above := averaged.above
  omega

end

end DecentralBank.Maker
