import DecentralBank.Maker.Backing

/-!
# IQ in the accounts

All IQ in the accounts is genuine and no balance is negative, as long as types
keep what they were enacted with and no remainder of an auction overflows.
-/

namespace DecentralBank.Maker

open Runs

/-- No round that has expired leaves a remainder so large that its product with
the factor it is converted at comes out negative. -/
def Unwrapped (c : Ctx) (s : State) : Action → Prop
  | .liquify _ owner symbl _ =>
    ∀ st ∈ s.stats.lookup (c.self, symbl), ∀ it ∈ s.cdps.lookup (symbl, owner),
      ∀ bt ∈ s.bids.lookup (symbl, owner), ∀ fv ∈ s.feeds.lookup IQ_SYMBOL.code,
        roundOpen c st bt = false → 0 < it.stablecoin.amount →
          0 ≤ i64 (it.stablecoin.amount *
            if it.stablecoin.symbol = IQ_SYMBOL then fv.price.amount else 1000)
  | _ => True

instance (c : Ctx) (s : State) : (a : Action) → Decidable (Unwrapped c s a)
  | .liquify .. => by unfold Unwrapped; infer_instance
  | .openCdp .. | .close .. | .shut .. | .lock .. | .bail .. | .draw .. | .wipe .. | .settle ..
  | .vote .. | .propose .. | .referended .. | .upfeed .. | .withdraw .. | .deposit .. =>
    isTrue trivial

/-- No balance is negative. -/
def Positive (accounts : Accounts) : Prop := ∀ y, Covered y accounts

/-- Neither a balance nor the collateral of a CDP is negative. -/
structure Solid (s : State) : Prop where
  rows : Positive s.accounts
  lots : s.cdps.All fun _ it => 0 ≤ it.collateral.amount

theorem Solid.empty : Solid State.empty := ⟨fun _ => Table.All.empty _, Table.All.empty _⟩

theorem Solid.queueless : Queueless Solid := fun _ _ h => ⟨h.1, h.2⟩

variable {c : Ctx} {s s' : State} {a : Action}

section Balances

variable {a b : Accounts} {owner code : Name} {value : Asset}

theorem Positive.debit (h : Positive a) (paid : subBalance a owner value = .ok (b, code)) :
    Positive b := fun y => ((Shifted.refl y a).debit paid).covered (h y)

theorem Positive.credit (h : Positive a) (moved : Moved a [Maker.credit owner value code] b)
    (gain : 0 ≤ value.amount) : Positive b :=
  fun y => ((Shifted.refl y a).credit moved fun _ => gain).covered (h y)

theorem Positive.erase (h : Positive a) (k : SymbolCode × Name) : Positive (a.erase k) :=
  fun y => Table.All.erase (h y) k

/-- The refund loop pays balances back as they are. -/
theorem Positive.refunds {rows : List ((_ : SymbolCode × Name) × Account)} (h : Positive a)
    (votes : ∀ row ∈ rows, 0 ≤ row.2.amount) (done : rows.foldlM refund a = .ok b) :
    Positive b := by
  refine Checked.foldlM_keeps ?_ done h
  intro row mem a b turned positive
  obtain ⟨paid, moved, rfl⟩ := refund_ok turned
  have credited : Positive paid := positive.credit moved (votes row mem)
  exact credited.erase row.1

theorem Positive.refundVotes {T : SymbolCode} (h : Positive a)
    (done : Maker.refundVotes a T = .ok b) : Positive b := by
  refine h.refunds ?_ done
  intro row mem
  have found := (Table.lookup_iff_mem a row.1 row.2).mpr (List.mem_of_mem_filter mem)
  exact h _ row.1 row.2 found rfl

end Balances

/-! ## Auctions -/

section Auctions

variable {bidder owner : Name} {symbl : SymbolCode} {bidamt : Asset} {st : Stat} {it row : Cdp}
  {lot : Lot}

/-- The lot of the next round is not negative if the product it is made of is not. -/
theorem convertRemainder_lot {price : Asset} {next : Cdp} (priced : 0 ≤ price.amount)
    (product : 0 < it.stablecoin.amount → 0 ≤ i64 (it.stablecoin.amount *
      if it.stablecoin.symbol = IQ_SYMBOL then price.amount else 1000))
    (h : convertRemainder it price = .ok next) : 0 ≤ next.collateral.amount := by
  simp only [convertRemainder, divI64, Checked.ite_eq_ok, Checked.bind_eq_ok, Asset.make_eq_ok,
    Checked.require_eq_ok, Checked.pure_eq_ok, exists_const] at h
  obtain ⟨short, ⟨iq, _, ⟨-, -, rfl⟩, rfl⟩ | ⟨other, _, ⟨-, -, rfl⟩, _, ⟨-, -, rfl⟩, rfl⟩⟩ |
    ⟨surplus, ⟨-, _, -, rfl⟩ | ⟨-, _, -, _, -, rfl⟩⟩ := h
  · have worth := product short
    rwa [if_pos iq] at worth
  · have worth := product short
    rw [if_neg other] at worth
    exact Int.tdiv_nonneg worth priced
  · simp only [Asset.neg]
    omega
  · simp only [Asset.neg]
    omega

theorem Bidding.solid (hs : Sound s) (hp : Positive s.accounts)
    (h : Bidding c s bidder owner symbl bidamt st it lot)
    (type : s.stats.lookup (c.self, symbl) = some st)
    (found : s.cdps.lookup (symbl, owner) = some row) (opened : openAuction c s st row = .ok it)
    (whole : 0 ≤ it.collateral.amount) (calm : Unwrapped c s (.liquify bidder owner symbl bidamt)) :
    Positive lot.accounts ∧ 0 ≤ lot.it.collateral.amount := by
  cases h with
  | first _ taken _ =>
    obtain ⟨_, _, -, paid, rfl⟩ := firstBid_ok taken
    exact ⟨hp.debit paid, whole⟩
  | next bt standing _ taken =>
    obtain ⟨_, _, _, -, -, -, paid, refunded, rfl⟩ := outbid_ok taken
    have displaced : 0 < bt.bidamt.amount := (hs.bids _ bt standing).1
    exact ⟨(hp.debit paid).credit refunded displaced.le, whole⟩
  | roll bt spent standing expired awarded taken =>
    have same := standing_unopened hs standing found opened
    subst same
    have award : Positive spent.accounts := by
      obtain ⟨-, rfl⟩ | ⟨_, _, -, -, moved, rfl⟩ := awardCollateral_ok awarded
      · exact hp
      · exact hp.credit moved (le_refl 0)
    obtain ⟨fv, next, _, _, _, -, iq, converted, -, paid, -, rfl⟩ :=
      roll_ok hs standing found opened awarded taken
    have priced : 0 ≤ fv.price.amount := hs.prices _ _ (quote_of_lookup iq)
    have product := calm st type it found bt standing fv iq expired
    have left : 0 ≤ next.collateral.amount := convertRemainder_lot priced product converted
    exact ⟨award.debit paid, left⟩

/-- A CDP of a solid state keeps its collateral from going below zero. -/
theorem CdpStep.solid (hs : Sound s) (hp : Solid s) {k : SymbolCode × Name} {old new : Option Cdp}
    (h : CdpStep c s a k old new) (stands : s.cdps.lookup k = old) (calm : Unwrapped c s a)
    (hn : new = some it) : 0 ≤ it.collateral.amount := by
  cases h with
  | opened =>
    cases hn
    exact le_refl 0
  | freed _ _ _ _ _ less =>
    cases hn
    simp only
    omega
  | drawn =>
    cases hn
    have before := hp.lots _ _ stands
    exact before
  | wiped =>
    cases hn
    have before := hp.lots _ _ stands
    exact before
  | locked _ positive =>
    cases hn
    have before := hp.lots _ _ stands
    simp only
    omega
  | shut => cases hn
  | bid type opened bidding written =>
    obtain ⟨-, rfl⟩ | ⟨-, rfl⟩ := written
    · cases hn
      have before := hp.lots _ _ stands
      obtain ⟨-, same⟩ := openAuction_net (y := IQ_SYMBOL) (hs.cdps _ _ stands) opened
      exact (bidding.solid hs hp.rows type stands opened (same ▸ before) calm).2
    · cases hn

end Auctions

theorem Solid.apply (hs : Sound s) (hp : Solid s) (calm : Unwrapped c s a)
    (h : Maker.apply c s a = .ok s') : Solid s' := by
  have start := hp.rows
  refine ⟨?_, ?_⟩
  · cases a with
    | upfeed feeder price cdpType symbol =>
      obtain ⟨-, rfl⟩ := upfeed_ok h
      exact start
    | openCdp owner symbl ramPayer =>
      obtain ⟨_, _, -, -, -, -, rfl⟩ := openCdp_ok h
      exact start
    | close owner symbl =>
      obtain ⟨_, -, -, -, rfl⟩ := close_ok h
      exact start.erase _
    | shut owner symbl =>
      obtain ⟨st, it, paid, _, accounts, _, -, -, -, -, debt, back, rfl⟩ := shut_ok h
      have repaid : Positive paid := by
        obtain ⟨_, -, debited, -, -⟩ | ⟨-, rfl, -⟩ := shutDebt_ok debt
        · exact start.debit debited
        · exact start
      obtain ⟨positive, moved, -, -⟩ | ⟨-, rfl, -⟩ := shutCollateral_ok back
      · exact repaid.credit moved positive.le
      · exact repaid
    | lock owner symbl quantity =>
      obtain ⟨_, _, _, _, -, -, -, -, -, -, -, paid, -, -, rfl⟩ := lock_ok h
      exact start.debit paid
    | bail owner symbl quantity =>
      obtain ⟨_, _, _, _, _, -, positive, -, -, -, -, -, -, -, -, -, moved, rfl⟩ := bail_ok h
      exact start.credit moved positive.le
    | draw owner symbl quantity =>
      obtain ⟨_, _, _, _, _, _, -, positive, -, -, -, -, -, -, -, -, -, -, moved, rfl⟩ := draw_ok h
      exact start.credit moved positive.le
    | wipe owner symbl quantity =>
      obtain ⟨_, _, _, _, _, _, _, _, _, -, -, -, -, -, -, -, -, -, -, fee, paid, -, rfl⟩ :=
        wipe_ok h
      exact (start.debit fee).debit paid
    | settle feeder symbl =>
      obtain ⟨_, -, rfl⟩ := settle_ok h
      exact start
    | vote voter symbl against quantity =>
      obtain ⟨_, _, _, _, _, -, positive, -, -, debited, escrowed, -, rfl⟩ := vote_ok h
      obtain ⟨code, moved, -⟩ := escrow_ok escrowed
      have ballot : Moved _ [credit voter ⟨quantity.amount, ⟨symbl, 3⟩⟩ code] _ := moved
      exact (start.debit debited).credit ballot positive.le
    | propose proposer symbl terms =>
      obtain ⟨_, -, -, -, -, -, -, -, rfl⟩ := propose_ok h
      exact start
    | referended proposer symbl =>
      obtain ⟨-, _, -, -, ⟨-, -, rfl⟩ | ⟨_, _, -, -, refunded, rfl⟩⟩ := referended_ok h
      · exact start
      · exact start.refundVotes refunded
    | liquify bidder owner symbl bidamt =>
      obtain ⟨st, row, it, lot, -, -, type, found, opened, bidding, done⟩ := liquify_ok h
      have before := hp.lots _ _ found
      obtain ⟨-, same⟩ := openAuction_net (y := IQ_SYMBOL) (hs.cdps _ _ found) opened
      obtain ⟨rows, left⟩ := bidding.solid hs start type found opened (same ▸ before) calm
      obtain ⟨-, rfl⟩ | ⟨_, _, -, settled, rfl⟩ := finish_ok done
      · exact rows
      · obtain ⟨-, rfl, -⟩ | ⟨_, -, moved, -, -⟩ := settleLot_ok settled
        · exact rows
        · exact rows.credit moved left
    | withdraw owner quantity memo =>
      obtain ⟨_, _, _, _, -, -, paid, -, -, rfl⟩ := withdraw_ok h
      exact start.debit paid
    | deposit code source target quantity memo =>
      obtain ⟨-, positive, ⟨-, rfl⟩ | ⟨_, _, -, -, -, moved, rfl⟩⟩ :=
        deposit_ok (apply_deposit_ok h).2
      · exact start
      · exact start.credit moved positive.le
  · intro k it found
    obtain ⟨-, same⟩ | ⟨-, moved⟩ := apply_cdp h k
    · exact hp.lots k it (same ▸ found)
    · exact moved.solid hs hp rfl calm found

/-! ## Every state -/

/-- All IQ in the accounts is genuine and not negative. -/
structure IqGenuine (s : State) : Prop where
  code : s.accounts.All fun _ row => row.balance.symbol = IQ_SYMBOL → row.code = IQ_NAME
  amount : s.accounts.All fun _ row => row.balance.symbol = IQ_SYMBOL → 0 ≤ row.balance.amount

/-- The account that pays IQ: for a vote, for a stability fee, or as a bid. -/
def iqPayer : Action → Option Name
  | .vote voter _ _ _ => some voter
  | .wipe owner _ _ => some owner
  | .liquify bidder _ _ bidamt => if bidamt.symbol = IQ_SYMBOL then some bidder else none
  | _ => none

/-- The call pays its IQ, and whatever it takes in IQ is genuine. -/
def PaysGenuine (own : Name) (w : World) (e : Event) : Prop :=
  ∀ c s a payer, Succeeds own w e c s a → iqPayer a = some payer →
    (∃ value code, value.symbol = IQ_SYMBOL ∧ Debited s (step own w e).state payer value code) ∧
    ∀ value code, value.symbol = IQ_SYMBOL →
      Debited s (step own w e).state payer value code → code = IQ_NAME

theorem iqPayer_debited {payer : Name} (hs : Sound s) (h : apply c s a = .ok s')
    (pays : iqPayer a = some payer) :
    ∃ value code, value.symbol = IQ_SYMBOL ∧ Debited s s' payer value code := by
  cases a with
  | vote voter symbl against quantity =>
    cases pays
    obtain ⟨_, _, code, _, _, -, -, iq, -, paid, escrowed, -, rfl⟩ := vote_ok h
    obtain ⟨_, moved, -⟩ := escrow_ok escrowed
    exact ⟨quantity, code, iq, .first paid moved⟩
  | wipe owner symbl quantity =>
    cases pays
    obtain ⟨_, _, _, apr, _, _, _, _, _, -, -, -, -, -, -, -, -, -, -, fee, paid, -, rfl⟩ :=
      wipe_ok h
    have moved := (subBalance_ok paid).1
    exact ⟨_, _, rfl, .first fee moved⟩
  | liquify bidder owner symbl bidamt =>
    simp only [iqPayer, Option.ite_none_right_eq_some, Option.some.injEq] at pays
    obtain ⟨iq, rfl⟩ := pays
    obtain ⟨code, debited⟩ := payment_debited hs h rfl
    exact ⟨bidamt, code, iq, debited⟩
  | _ => cases pays

/-- What every state satisfies that is reached with types that last and without a
remainder that overflows. -/
structure Governed (own : Name) (s : State) : Prop extends Kept own s, Solid s where
  genuine : Genuine own IQ_SYMBOL s

theorem Governed.queueless (own : Name) : Queueless (Governed own) := fun s d h =>
  ⟨Kept.queueless own s d h.toKept, Solid.queueless s d h.toSolid,
    Genuine.queueless own IQ_SYMBOL s d h.genuine⟩

theorem Governed.apply (hg : Governed c.self s) (calm : KeepsTypes c a ∧ Unwrapped c s a)
    (h : Maker.apply c s a = .ok s') : Governed c.self s' :=
  ⟨hg.toKept.apply calm.1 h, hg.toSolid.apply hg.sound calm.2 h,
    hg.genuine.apply hg.sound hg.typed calm.1 undeposited_iq (voted_iq h) h⟩

theorem Governed.iqGenuine {own : Name} (hg : Governed own s) : IqGenuine s := by
  refine ⟨?_, hg.rows IQ_SYMBOL⟩
  intro k row found symbol
  rw [hg.genuine.rows k row found symbol, issuer, if_pos rfl]

/-- After a call IQ that it takes is in a row of IQ. -/
theorem IqGenuine.debited (hi : IqGenuine s') {payer code : Name} {value : Asset}
    (iq : value.symbol = IQ_SYMBOL) (h : Debited s s' payer value code) : code = IQ_NAME := by
  obtain ⟨row, found, label⟩ := h.tag
  have symbol : row.balance.symbol = value.symbol := congrArg Prod.fst label
  have tag : row.code = code := congrArg Prod.snd label
  rw [← tag]
  exact hi.code _ row found (symbol.trans iq)

/-- As long as no decision takes a type away and no remainder overflows, all IQ in
the accounts is genuine and not negative, and votes, fees and bids are paid in it. -/
theorem iq_genuine (self : Name) (clock : Nat) (es : List Event)
    (calm : Along (step self) (Meets self fun c s a => KeepsTypes c a ∧ Unwrapped c s a)
      (World.genesis clock) es) :
    IqGenuine (after self clock es).state ∧
      Along (step self) (PaysGenuine self) (World.genesis clock) es := by
  have start : Governed self (World.genesis clock).state :=
    ⟨Kept.empty self, Solid.empty, Genuine.empty self IQ_SYMBOL⟩
  have kept (w : World) (e : Event) (hw : Governed self w.state)
      (he : Meets self (fun c s a => KeepsTypes c a ∧ Unwrapped c s a) w e) :
      Governed self (step self w e).state :=
    kept_step (Governed.queueless self) (fun c s a s' own hg ok h => by
      subst own
      exact hg.apply ok h) w e hw he
  have paid (w : World) (e : Event) (hw : Governed self w.state)
      (he : Meets self (fun c s a => KeepsTypes c a ∧ Unwrapped c s a) w e) :
      PaysGenuine self w e := by
    intro c s a payer called pays
    obtain ⟨-, hs⟩ := call_meets Sound.queueless hw.sound called.called
    refine ⟨iqPayer_debited hs called.done pays, ?_⟩
    intro value code iq debited
    exact (kept w e hw he).iqGenuine.debited iq debited
  constructor
  · have run := run_invariant (I := fun w : World => Governed self w.state) kept start calm
    exact run.iqGenuine
  · refine (along_iff_along (C := fun _ _ => True) (I := fun w : World => Governed self w.state)
      ?_ start calm).mpr (along_true _ es)
    intro w e hw he
    exact Or.inl ⟨trivial, paid w e hw he, kept w e hw he⟩

section

open Sample

theorem iq_genuine_overpaid :
    IqGenuine (after daiqcontract 1000 overpaid).state ∧
      Along (step daiqcontract) (PaysGenuine daiqcontract) (World.genesis 1000) overpaid :=
  iq_genuine daiqcontract 1000 overpaid (by decide +kernel)

/-- `nick` borrows on a type with a ceiling of 2 * 10^16 cents and bids 1 USD on his
own CDP. In the next round `sick` pays the rest of the debt, 15 * 10^15 cents. -/
def overflown : List Event :=
  priced EOS (9 * 10 ^ 16) ++
    referendum rick 1000 { terms EOS 150 with max := 2 * 10 ^ 16, gmax := 10 ^ 17 } ++
    [ .act [nick] (.deposit eosioToken nick daiqcontract ⟨1000000, EOS⟩ []),
      .act [nick] (.openCdp nick FUD nick),
      .act [nick] (.lock nick FUD ⟨1000000, EOS⟩),
      .act [nick] (.draw nick FUD ⟨10 ^ 16, USD⟩),
      .act [sick] (.deposit eosioToken sick daiqcontract ⟨1000000, EOS⟩ []),
      .act [sick] (.openCdp sick FUD sick),
      .act [sick] (.lock sick FUD ⟨1000000, EOS⟩),
      .act [sick] (.draw sick FUD ⟨16 * 10 ^ 15, USD⟩),
      .act [daiqcontract] (.upfeed daiqcontract ⟨200, USD⟩ FUD EOS),
      .act [nick] (.liquify nick nick FUD ⟨100, USD⟩),
      .elapse 5,
      .act [sick] (.liquify sick nick FUD ⟨15 * 10 ^ 15 - 100, USD⟩) ]

/-- `sick` proposes a type under the code of IQ before IQ has a feed. `nick` locks his IQ
in `FUD`, and the contract decides on a new proposal of `rick` in its own name, so `FUD` is
gone, and is enacted anew on IQ of another contract. The proposal of `sick` is voted down,
and the rows of IQ are refunded as its votes. -/
def retagged : List Event :=
  [ .act [daiqcontract] (.upfeed daiqcontract ⟨100, USD⟩ FUD USD),
    .act [sick] (.propose sick IQ_SYMBOL.code (terms EOS 150)),
    .act [daiqcontract] (.upfeed daiqcontract ⟨500, USD⟩ FUD IQ_SYMBOL),
    .act [rick] (.deposit IQ_NAME rick daiqcontract ⟨1000, IQ_SYMBOL⟩ []),
    .act [nick] (.deposit IQ_NAME nick daiqcontract ⟨1000, IQ_SYMBOL⟩ []) ] ++
    referendum rick 1000 { terms IQ_SYMBOL 150 with contract := IQ_NAME } ++
    [ .act [nick] (.openCdp nick FUD nick),
      .act [nick] (.lock nick FUD ⟨1000, IQ_SYMBOL⟩),
      .act [rick] (.propose rick FUD (terms IQ_SYMBOL 150)),
      .act [rick] (.vote rick FUD false ⟨1000, IQ_SYMBOL⟩),
      .elapse VOTE_PERIOD,
      .act [daiqcontract] (.referended daiqcontract FUD) ] ++
    referendum sick 1010 { terms IQ_SYMBOL 150 with contract := fakeos } ++
    [ .act [rick] (.vote rick IQ_SYMBOL.code true ⟨1000, IQ_SYMBOL⟩),
      .fire (sick.value * 2 ^ 64 + 1000),
      .act [nick] (.shut nick FUD) ]

/-- `sick` ends up with a negative balance of IQ, and `nick` with IQ of another contract. -/
theorem iq_not_genuine :
    ((after daiqcontract 1000 overflown).state.accounts.lookup (IQ_SYMBOL.code, sick) =
        some ⟨⟨-6893488147419303, IQ_SYMBOL⟩, IQ_NAME⟩ ∧
      ¬ IqGenuine (after daiqcontract 1000 overflown).state) ∧
    ((after daiqcontract 1000 retagged).state.accounts.lookup (IQ_SYMBOL.code, nick) =
        some ⟨⟨1000, IQ_SYMBOL⟩, fakeos⟩ ∧
      ¬ IqGenuine (after daiqcontract 1000 retagged).state) := by
  have negative : (after daiqcontract 1000 overflown).state.accounts.lookup (IQ_SYMBOL.code, sick) =
      some ⟨⟨-6893488147419303, IQ_SYMBOL⟩, IQ_NAME⟩ := by decide +kernel
  have foreign : (after daiqcontract 1000 retagged).state.accounts.lookup (IQ_SYMBOL.code, nick) =
      some ⟨⟨1000, IQ_SYMBOL⟩, fakeos⟩ := by decide +kernel
  refine ⟨⟨negative, ?_⟩, foreign, ?_⟩
  · intro genuine
    exact absurd (genuine.amount _ _ negative rfl) (by decide)
  · intro genuine
    exact absurd (genuine.code _ _ foreign rfl) (by decide)

end

end DecentralBank.Maker
