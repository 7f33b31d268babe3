import DecentralBank.Maker.Registry

/-!
# The currency of the prices

A feed keeps the currency of its first price, and all types on one collateral
code share it. It is the stablecoin of each of them exactly as long as the feed
is made in it and no type is put on a feed in another currency.
-/

namespace DecentralBank.Maker

open Runs

/-- The symbol a feed is priced in. -/
def currency (feeds : Table SymbolCode Feed) (k : SymbolCode) : Option Symbol :=
  (feeds.lookup k).map fun f => f.price.symbol

/-- Each type with a feed is priced in its stablecoin. -/
def InCurrency (own : Name) (s : State) : Prop :=
  ∀ T κ y, kindOf own s.stats T = some κ → currency s.feeds κ.collateral.code = some y →
    y = κ.stablecoin

/-- A feed that is made is in the currency of the types on it, and a type that
comes into the contract's scope, enacted or proposed by the contract itself, is
in the currency of its feed, if that is there. -/
def Coherent (c : Ctx) (s : State) : Action → Prop
  | .upfeed _ price _ symbol => s.feeds.lookup symbol.code = none →
    ∀ T κ, kindOf c.self s.stats T = some κ → κ.collateral.code = symbol.code →
      price.symbol = κ.stablecoin
  | .propose proposer _ t => proposer = c.self → ¬ (t.tau = 0 ∧ t.ttl = 0) →
    ∀ y, currency s.feeds t.clatrl.code = some y → y = ⟨t.stabl, 2⟩
  | .referended proposer T => s.stats.lookup (c.self, T) = none →
    ∀ p prop, s.stats.lookup (proposer, T) = some p → s.props.lookup T = some prop →
      prop.nay.amount < prop.yay.amount →
      ∀ y, currency s.feeds p.kind.collateral.code = some y → y = p.kind.stablecoin
  | _ => True

theorem InCurrency.empty (own : Name) : InCurrency own State.empty := by
  intro T κ y type
  cases type

variable {c : Ctx} {s s' : State} {a : Action} {own : Name} {T : SymbolCode} {κ : Kind}

section Steps

/-- A feed keeps its currency, and a new one has that of its first price. -/
theorem apply_currency (h : apply c s a = .ok s') (k : SymbolCode) :
    currency s'.feeds k = currency s.feeds k ∨ ∃ feeder price cdpType symbol,
      a = .upfeed feeder price cdpType symbol ∧ symbol.code = k ∧ s.feeds.lookup k = none ∧
        currency s'.feeds k = some price.symbol := by
  rcases apply_quote h with same | ⟨feeder, price, cdpType, symbol, rfl, -, rfl⟩
  · refine Or.inl ?_
    have quoted (feeds : Table SymbolCode Feed) :
        currency feeds k = (quote feeds k).map fun q => q.1.symbol := by
      rw [quote, Option.map_map]
      rfl
    rw [quoted, quoted, same]
  · simp only [currency, Table.lookup_insert]
    split
    · rename_i here
      subst here
      cases found : s.feeds.lookup symbol.code with
      | none => exact Or.inr ⟨feeder, price, cdpType, symbol, rfl, rfl, rfl, rfl⟩
      | some f => exact Or.inl rfl
    · exact Or.inl rfl

/-- A type of the contract's scope was there before, or comes from terms that the
contract files or a decision enacts. -/
theorem kind_of_apply (h : apply c s a = .ok s') (hk : kindOf c.self s'.stats T = some κ) :
    kindOf c.self s.stats T = some κ ∨ s.stats.lookup (c.self, T) = none ∧
      ((∃ t, a = .propose c.self T t ∧ ¬ (t.tau = 0 ∧ t.ttl = 0) ∧ κ = t.draft.kind) ∨
        ∃ proposer p prop, a = .referended proposer T ∧
          s.stats.lookup (proposer, T) = some p ∧ s.props.lookup T = some prop ∧
          prop.nay.amount < prop.yay.amount ∧ κ = p.kind) := by
  cases before : s.stats.lookup (c.self, T) with
  | some st =>
    refine Or.inl ?_
    rcases apply_kind h (kindOf_lookup before) with kept | rfl
    · rw [← hk, kept, kindOf_lookup before]
    · obtain ⟨-, _, -, -, ⟨-, -, rfl⟩ | ⟨_, _, -, -, -, rfl⟩⟩ := referended_ok h
      · exact hk
      · simp only [kindOf, before, Option.isSome_some, if_true, AList.lookup_erase,
          Option.map_none, reduceCtorEq] at hk
  | none =>
    refine Or.inr ⟨rfl, ?_⟩
    have other {T' : SymbolCode} {st : Stat} (found : s.stats.lookup (c.self, T') = some st) :
        (c.self, T) ≠ (c.self, T') := by
      intro e
      rw [← e, before] at found
      cases found
    have absurd' (same : s'.stats.lookup (c.self, T) = s.stats.lookup (c.self, T)) : False := by
      rw [kindOf, same, before] at hk
      cases hk
    cases apply_stats h with
    | kept same => exact (absurd' (by rw [same])).elim
    | booked _ type written =>
      refine (absurd' ?_).elim
      rw [written, Table.lookup_insert, if_neg (other type)]
    | settled type _ written =>
      refine (absurd' ?_).elim
      rw [written, Table.lookup_insert, if_neg (other type)]
    | @filed proposer T' t _ _ written =>
      by_cases here : (c.self, T) = (proposer, T')
      · cases here
        rw [kindOf, written, AList.lookup_insert] at hk
        cases hk
        refine Or.inl ⟨t, rfl, ?_, rfl⟩
        intro settlement
        exact absurd' (by rw [(propose_settlement h settlement).1])
      · refine (absurd' ?_).elim
        rw [written, Table.lookup_insert, if_neg here]
    | @decided proposer T' prop stats session result written =>
      by_cases here : T = T'
      · subst here
        have kept (q : Name) (drafted : s.stats.lookup (q, T) ≠ none) : (c.self, T) ≠ (q, T) := by
          rintro ⟨⟩
          exact drafted before
        rcases result with ⟨passed, enacted⟩ | ⟨-, rfl⟩
        · obtain ⟨new, rfl, ⟨st, found, -⟩ | ⟨-, p, drafted, rfl⟩⟩ := enact_ok enacted
          · cases before.symm.trans found
          · rw [kindOf, written, drafted, Option.isSome_some, if_pos rfl, Table.lookup_erase,
              if_neg (kept proposer (by simp [drafted])), AList.lookup_insert] at hk
            cases hk
            exact Or.inr ⟨proposer, p, prop, rfl, drafted, session, passed, rfl⟩
        · refine (absurd' ?_).elim
          rw [written]
          split
          · rename_i drafted
            rw [Table.lookup_erase, if_neg]
            exact kept proposer (by rintro e; simp [e] at drafted)
          · rfl
      · exact (absurd' (decided_elsewhere result written here)).elim

/-- Who feeds a price without the contract's authority feeds for a type on the
collateral, in its stablecoin. -/
theorem upfeed_authorised {feeder : Name} {price : Asset} {cdpType : SymbolCode} {symbol : Symbol}
    (h : upfeed c s feeder price cdpType symbol = .ok s') (foreign : c.self ∉ c.auth) :
    ∃ st, s.stats.lookup (c.self, cdpType) = some st ∧ st.feeder = feeder ∧
      st.kind.stablecoin = price.symbol ∧ st.kind.collateral = symbol := by
  simp only [upfeed, Ctx.requireAuth_eq_ok, Checked.bind_eq_ok, Checked.require_eq_ok,
    exists_const, if_pos foreign, Checked.find_eq_ok] at h
  obtain ⟨-, -, -, -, st, type, feeds, stable, collateral, -⟩ := h
  exact ⟨st, type, feeds, stable, collateral⟩

/-- A call that succeeds keeps all types in currency exactly when it is coherent. -/
theorem InCurrency.apply_iff (hi : InCurrency c.self s) (h : apply c s a = .ok s') :
    Coherent c s a ↔ InCurrency c.self s' := by
  constructor
  · intro coherent T κ y type priced
    rcases kind_of_apply h type with before | ⟨fresh, filed⟩
    · rcases apply_currency h κ.collateral.code
        with same | ⟨_, price, _, symbol, rfl, code, unfed, fed⟩
      · exact hi T κ y before (same ▸ priced)
      · cases fed.symm.trans priced
        exact coherent (code ▸ unfed) T κ before code.symm
    · rcases apply_currency h κ.collateral.code with same | ⟨_, _, _, _, rfl, -⟩
      · rw [same] at priced
        rcases filed
          with ⟨t, rfl, parameters, rfl⟩ | ⟨_, p, prop, rfl, drafted, session, passed, rfl⟩
        · exact coherent rfl parameters y priced
        · exact coherent fresh p prop drafted session passed y priced
      · rcases filed with ⟨_, ⟨⟩, -⟩ | ⟨_, _, _, ⟨⟩, -⟩
  · intro after
    cases a with
    | upfeed feeder price cdpType symbol =>
      intro unfed T κ type code
      obtain ⟨-, rfl⟩ := upfeed_ok h
      refine after T κ price.symbol type ?_
      rw [code, currency, AList.lookup_insert, unfed]
      rfl
    | propose proposer T t =>
      rintro rfl parameters y priced
      have drafted := propose_terms h parameters
      obtain ⟨_, -, -, -, -, -, -, -, rfl⟩ := propose_ok h
      exact after T t.draft.kind y (kindOf_lookup drafted) priced
    | referended proposer T =>
      intro fresh p prop drafted session passed y priced
      have other : proposer ≠ c.self := by
        rintro rfl
        cases fresh.symm.trans drafted
      obtain ⟨-, prop', session', -, next⟩ := referended_ok h
      cases session.symm.trans session'
      obtain ⟨tie, -⟩ | ⟨stats, _, -, ⟨-, enacted⟩ | ⟨lost, -⟩, -, rfl⟩ := next
      · omega
      · obtain ⟨new, rfl, ⟨st, found, -⟩ | ⟨-, p', drafted', rfl⟩⟩ := enact_ok enacted
        · cases fresh.symm.trans found
        · cases drafted.symm.trans drafted'
          refine after T p.kind y ?_ priced
          simp only [kindOf, drafted, Option.isSome_some, if_true, Table.lookup_erase,
            Prod.mk.injEq, other.symm, false_and, if_false, AList.lookup_insert]
          rfl
      · omega
    | _ => trivial

end Steps

/-! ## Runs -/

/-- The calls that succeed are coherent. -/
def Calm (own : Name) (w : World) (e : Event) : Prop :=
  ∀ c s a, Succeeds own w e c s a → Coherent c s a

theorem InCurrency.step {w : World} {e : Event} (hi : InCurrency own w.state) :
    Calm own w e ↔ InCurrency own (step own w e).state := by
  rcases step_cases own w e with ⟨d, same, none⟩ | ⟨c, d, a, called, rfl, applied, -⟩
  · rw [same]
    refine ⟨fun _ => hi, fun _ c s a succeeds => ?_⟩
    have one := succeeds.counted fun _ _ _ => 1
    rw [none] at one
    cases one
  · have before : InCurrency c.self { w.state with deferred := d } := hi
    rw [← before.apply_iff applied]
    constructor
    · intro calm
      exact calm c _ a ⟨called, applied⟩
    · intro coherent c' s' a' succeeds
      cases called.symm.trans succeeds.called
      exact coherent

/-- A feed that is there keeps its currency. -/
theorem currency_kept {w : World} {es : List Event} {k : SymbolCode} {y : Symbol}
    (priced : currency w.state.feeds k = some y) :
    currency (run (Maker.step own) w es).state.feeds k = some y := by
  refine always (P := fun s => currency s.feeds k = some y) (fun _ _ h => h) ?_ priced
  intro c s a s' _ priced h
  rcases apply_currency h k with same | ⟨_, _, _, _, -, -, unfed, -⟩
  · rw [same, priced]
  · rw [currency, unfed] at priced
    cases priced

/-- Every type with a feed is priced in its stablecoin, and whatever another
account has fed on its collateral was in that stablecoin, for a type with it. -/
def PricedInOwn (self : Name) (clock : Nat) (es : List Event) : Prop :=
  ∀ T st f, (after self clock es).state.stats.lookup (self, T) = some st →
    (after self clock es).state.feeds.lookup st.totalCollateral.quantity.symbol.code = some f →
    f.price.symbol = st.totalStablecoin.symbol ∧
    ∀ first e rest c s feeder price cdpType symbol, es = first ++ e :: rest →
      Succeeds self (after self clock first) e c s (.upfeed feeder price cdpType symbol) →
      symbol.code = st.totalCollateral.quantity.symbol.code → self ∉ c.auth →
      price.symbol = st.totalStablecoin.symbol ∧
      ∃ st', s.stats.lookup (self, cdpType) = some st' ∧ st'.feeder = feeder ∧
        st'.totalStablecoin.symbol = st.totalStablecoin.symbol

theorem PricedInOwn.inCurrency {self : Name} {clock : Nat} {es : List Event}
    (h : PricedInOwn self clock es) : InCurrency self (after self clock es).state := by
  intro T κ y type priced
  obtain ⟨st, found, rfl⟩ := Option.map_eq_some_iff.mp type
  obtain ⟨f, feed, rfl⟩ := Option.map_eq_some_iff.mp priced
  exact (h T st f found feed).1

/-- An update by another account is in the currency that its feed has from then on. -/
theorem fed_in_currency {w : World} {e : Event} {feeder : Name} {price : Asset}
    {cdpType : SymbolCode} {symbol : Symbol}
    (called : Succeeds own w e c s (.upfeed feeder price cdpType symbol)) (foreign : own ∉ c.auth)
    (next : InCurrency own (step own w e).state) :
    currency (step own w e).state.feeds symbol.code = some price.symbol ∧
      ∃ st, s.stats.lookup (own, cdpType) = some st ∧ st.feeder = feeder ∧
        st.totalStablecoin.symbol = price.symbol := by
  obtain ⟨rfl, -⟩ := call_state called.called
  obtain ⟨st, type, feeds, stable, collateral⟩ := upfeed_authorised called.done foreign
  obtain ⟨-, moved⟩ := upfeed_ok called.done
  have type' : kindOf c.self (step c.self w e).state.stats cdpType = some st.kind := by
    rw [moved]
    exact kindOf_lookup type
  obtain ⟨y, priced⟩ : ∃ y, currency (step c.self w e).state.feeds symbol.code = some y := by
    rw [moved, currency, AList.lookup_insert]
    exact ⟨_, rfl⟩
  have own := next cdpType st.kind y type' (collateral ▸ priced)
  rw [priced, own, stable]
  exact ⟨rfl, st, type, feeds, stable⟩

/-- Prices stay in the currency of the types they are read for, in every state of
a run and with what fed them, if and only if the calls that succeed are coherent. -/
theorem prices_in_currency (self : Name) (clock : Nat) (es : List Event) :
    (∀ first rest, es = first ++ rest → PricedInOwn self clock first) ↔
      Along (step self) (Calm self) (World.genesis clock) es := by
  have reached : Along (step self) (Calm self) (World.genesis clock) es ↔
      ∀ first rest, es = first ++ rest → InCurrency self (after self clock first).state := by
    rw [← along_iff_along (P := fun _ _ => True) (I := fun w : World => InCurrency self w.state)
      (Q := fun w e => InCurrency self (step self w e).state) ?_ (InCurrency.empty self)
      (along_true _ es)]
    · exact along_iff_reached (I := fun w : World => InCurrency self w.state)
        (InCurrency.empty self) es
    · intro w e hi _
      by_cases next : InCurrency self (step self w e).state
      · exact Or.inl ⟨hi.step.mpr next, next, next⟩
      · exact Or.inr ⟨fun calm => next (hi.step.mp calm), next⟩
  rw [reached]
  constructor
  · intro priced first rest split
    exact (priced first rest split).inCurrency
  · rintro reached es' later rfl T st f type feed
    have priced : currency (after self clock es').state.feeds
        st.totalCollateral.quantity.symbol.code = some f.price.symbol := by
      rw [currency, feed, Option.map_some]
    have own := reached es' later rfl T st.kind _ (kindOf_lookup type) priced
    refine ⟨own, ?_⟩
    rintro first e rest c s feeder price cdpType symbol rfl called code foreign
    have next := reached (first ++ [e]) (rest ++ later) (by simp)
    rw [after_append, run_cons, run_nil] at next
    obtain ⟨fed, st', type', feeds, stable⟩ := fed_in_currency called foreign next
    have kept : currency (run (step self) _ rest).state.feeds symbol.code = _ := currency_kept fed
    rw [← run_cons, ← after_append, code, priced] at kept
    have same : price.symbol = st.totalStablecoin.symbol := (Option.some.inj kept).symm.trans own
    exact ⟨same, st', type', feeds, stable.trans same⟩

section

open Sample

def EUR : Symbol := ⟨⟨5395781⟩, 2⟩

/-- `FUD` lends dollars on EOS, and `GUD` is voted in to lend euros on it. -/
def twoCurrencies : List Event :=
  enacted EOS 200 150 ++
  [ .act [daiqcontract] (.upfeed daiqcontract ⟨110, USD⟩ FUD EUR),
    .act [rick] (.propose rick GUD { terms EOS 150 with stabl := EUR.code }),
    .act [rick] (.vote rick GUD false ⟨1000, IQ_SYMBOL⟩),
    .elapse VOTE_PERIOD,
    .fire (rick.value * 2 ^ 64 + 1005) ]

/-- `GUD` lends euros, and its collateral is priced in dollars. -/
theorem lent_on_foreign_price : ∃ st f,
    (after daiqcontract 1000 twoCurrencies).state.stats.lookup (daiqcontract, GUD) = some st ∧
    st.totalStablecoin.symbol = EUR ∧ st.totalCollateral.quantity.symbol = EOS ∧
    (after daiqcontract 1000 twoCurrencies).state.feeds.lookup EOS.code = some f ∧
    f.price = ⟨200, USD⟩ ∧ ¬ PricedInOwn daiqcontract 1000 twoCurrencies := by
  have type : (after daiqcontract 1000 twoCurrencies).state.stats.lookup (daiqcontract, GUD) =
      some { ({ terms EOS 150 with stabl := EUR.code } : Terms).draft with
        live := true, lastVote := 1010 } := by decide +kernel
  have feed : (after daiqcontract 1000 twoCurrencies).state.feeds.lookup EOS.code =
      some ⟨⟨0, EOS⟩, ⟨200, USD⟩, 1000⟩ := by decide +kernel
  refine ⟨_, _, type, rfl, rfl, feed, rfl, fun priced => ?_⟩
  exact absurd (priced GUD _ _ type feed).1 (by decide)

end

end DecentralBank.Maker
