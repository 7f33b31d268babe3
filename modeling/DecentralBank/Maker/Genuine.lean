import DecentralBank.Maker.Books
import DecentralBank.Maker.Escrow

/-!
# Where the balances in a symbol come from

As long as none is deposited, all tokens in a symbol are the contract's own.
Types that take such tokens from another contract then have empty CDPs.
-/

namespace DecentralBank.Maker

open Runs

/-- The tag of the genuine tokens in `y`: `deposit` takes IQ from its contract only. -/
def issuer (own : Name) (y : Symbol) : Name := if y = IQ_SYMBOL then IQ_NAME else own

/-- No token but IQ is deposited in `y`. -/
def Undeposited (y : Symbol) : Action → Prop
  | .deposit _ _ _ quantity _ => quantity.symbol = y → y = IQ_SYMBOL
  | _ => True

instance (y : Symbol) : (a : Action) → Decidable (Undeposited y a)
  | .deposit .. => inferInstanceAs (Decidable (_ → _))
  | .openCdp .. | .close .. | .shut .. | .lock .. | .bail .. | .draw .. | .wipe .. | .settle ..
  | .vote .. | .propose .. | .referended .. | .liquify .. | .upfeed .. | .withdraw .. =>
    isTrue trivial

/-- A vote that puts a row in `y` finds it there. -/
def Unvoted (y : Symbol) (s : State) (a : Action) : Prop :=
  ∀ voter symbl against quantity, a = .vote voter symbl against quantity →
    (⟨symbl, 3⟩ : Symbol) = y → s.accounts.lookup (symbl, voter) ≠ none

/-- The type takes tokens in `y` that are not genuine. -/
def Kind.Foreign (own : Name) (y : Symbol) (κ : Kind) : Prop :=
  κ.collateral = y ∧ κ.contract ≠ issuer own y

/-- A CDP as `open` makes it. -/
def Cdp.Idle (it : Cdp) : Prop :=
  it.live = true ∧ it.collateral.amount = 0 ∧ it.stablecoin.amount = 0

/-- All balances in `y` are genuine; where other tokens are taken, there are none. -/
structure Genuine (own : Name) (y : Symbol) (s : State) : Prop where
  rows : s.accounts.All fun _ row => row.balance.symbol = y → row.code = issuer own y
  idle : s.cdps.All fun k it => ∀ κ, kindOf own s.stats k.1 = some κ → κ.Foreign own y → it.Idle

theorem Genuine.empty (self : Name) (y : Symbol) : Genuine self y State.empty :=
  ⟨Table.All.empty _, Table.All.empty _⟩

theorem Genuine.queueless (self : Name) (y : Symbol) : Queueless (Genuine self y) :=
  fun _ _ h => ⟨h.1, h.2⟩

variable {c : Ctx} {s s' : State} {a : Action} {y : Symbol}

theorem unvoted_cents (cents : y.precision = 2) : Unvoted y s a := by
  rintro voter symbl against quantity - rfl
  cases cents

/-- The voter pays in IQ, so he has a row of it. -/
theorem voted_iq (h : apply c s a = .ok s') : Unvoted IQ_SYMBOL s a := by
  rintro voter symbl against quantity rfl symbol none
  obtain ⟨_, _, _, _, _, -, -, iq, -, paid, -⟩ := vote_ok h
  obtain ⟨-, row, found, -⟩ := subBalance_ok paid
  have same : symbl = quantity.symbol.code := by
    rw [iq, ← symbol]
  rw [← same, none] at found
  cases found

theorem undeposited_iq : Undeposited IQ_SYMBOL a := by
  cases a with
  | deposit => exact fun _ => rfl
  | _ => trivial

/-- A call credits genuine tokens only. -/
theorem Source.genuine (hg : Genuine c.self y s) (calm : Undeposited y a)
    (unvoted : Unvoted y s a)
    {k : SymbolCode × Name} {label : Symbol × Name} (h : Source c s a k label)
    (symbol : label.1 = y) : label.2 = issuer c.self y := by
  cases h with
  | standing found => exact hg.rows _ _ found symbol
  | issue foreign => rw [issuer, if_neg (symbol ▸ foreign)]
  | governance => rw [issuer, if_pos symbol.symm]
  | @collateral _ _ j st it type found locked =>
    by_contra other
    have kind : kindOf c.self s.stats j.1 = some st.kind := kindOf_lookup type
    obtain ⟨live, empty, -⟩ := hg.idle j it found st.kind kind ⟨symbol, other⟩
    rcases locked with dead | locked
    · rw [live] at dead
      cases dead
    · omega
  | deposit genuine =>
    have iq := calm symbol
    rw [issuer, if_pos iq]
    exact genuine (symbol.trans iq)
  | ballot absent => exact absurd absent (unvoted _ _ _ _ rfl symbol)

/-- A debit that stays on the books of the call is of genuine tokens. -/
theorem Ledgered.genuine_tag (hg : Genuine c.self y s) (calm : Undeposited y a)
    (unvoted : Unvoted y s a)
    {b x x' : Accounts} {payer code : Name} {value : Asset} {later : List Move}
    (h : Ledgered c s a b) (paid : subBalance x payer value = .ok (x', code))
    (rest : Moved x' later b) (symbol : value.symbol = y) : code = issuer c.self y := by
  obtain ⟨moved, old, found, tag, same, -⟩ := subBalance_ok paid
  obtain ⟨mid, kept, label⟩ := moved.keeps found
  obtain ⟨row, found', label'⟩ := rest.keeps kept
  have source := h.source found'
  rw [label', label, Account.label, tag, same] at source
  exact source.genuine hg calm unvoted symbol

theorem drawRatio_empty {fc : Feed} {it : Cdp} {amt liq : Nat} (empty : it.collateral.amount = 0)
    (h : drawRatio fc it amt = .ok liq) : liq = 0 := by
  simp only [drawRatio, Checked.bind_eq_ok, Checked.pure_eq_ok, empty] at h
  obtain ⟨perDebt, -, rfl⟩ := h
  simp [u64]

/-- A CDP of a type that takes foreign tokens stays as it was opened. -/
theorem CdpStep.idle (hs : Sound s) (hg : Genuine c.self y s) {k : SymbolCode × Name}
    {old new : Option Cdp} (h : CdpStep c s a k old new) {κ : Kind}
    (kind : kindOf c.self s.stats k.1 = some κ) (foreign : κ.Foreign c.self y)
    (typed : ∀ it, old = some it → it.live = true → it.collateral.symbol = κ.collateral)
    (ho : ∀ it, old = some it → it.Idle) {it : Cdp} (hn : new = some it) : it.Idle := by
  cases h with
  | opened =>
    cases hn
    exact ⟨rfl, rfl, rfl⟩
  | freed _ positive _ _ _ less =>
    have := (ho _ rfl).2.1
    omega
  | drawn _ _ type _ _ _ _ ratio above =>
    have zero := drawRatio_empty (ho _ rfl).2.1 ratio
    have := (hs.stats _ _ type).ratio
    omega
  | wiped _ positive _ _ less =>
    have := (ho _ rfl).2.2
    omega
  | @locked _ _ quantity st row _ _ _ live symbol _ type paid =>
    cases (kindOf_lookup type).symm.trans kind
    obtain ⟨-, owned, found, tag, same, -⟩ := subBalance_ok paid
    have taken : owned.balance.symbol = y := by
      rw [same, ← symbol, typed row rfl live]
      exact foreign.1
    exact absurd (tag.symm.trans (hg.rows _ owned found taken)) foreign.2
  | shut => cases hn
  | bid _ opened =>
    obtain ⟨live, -, debt⟩ := ho _ rfl
    rcases openAuction_ok opened with ⟨dead, -⟩ | ⟨_, _, -, owing, -⟩
    · rw [live] at dead
      cases dead
    · omega

theorem Genuine.apply (hs : Sound s) (ht : Typed c.self s) (hg : Genuine c.self y s)
    (keeps : KeepsTypes c a) (calm : Undeposited y a)
    (unvoted : Unvoted y s a)
    (h : Maker.apply c s a = .ok s') : Genuine c.self y s' := by
  constructor
  · intro k row found symbol
    cases apply_accounts hs h with
    | moved ledgered => exact (ledgered.source found).genuine hg calm unvoted symbol
    | closed _ _ _ erased =>
      rw [erased] at found
      exact hg.rows k row (Table.of_lookup_erase found).2 symbol
    | refunded _ _ _ refunded _ =>
      rcases refunds_origin refunded found with ⟨old, stood, label⟩ | iq
      · have same : old.balance.symbol = row.balance.symbol := congrArg Prod.fst label
        have tag : old.code = row.code := congrArg Prod.snd label
        rw [← tag]
        exact hg.rows k old stood (same.trans symbol)
      · have same : row.balance.symbol = IQ_SYMBOL := congrArg Prod.fst iq
        rw [issuer, if_pos (symbol.symm.trans same)]
        exact congrArg Prod.snd iq
  · intro k it found κ kind' foreign
    have earlier : ∀ row, s.cdps.lookup k = some row → row.Idle ∧
        (row.live = true → row.collateral.symbol = κ.collateral) := by
      intro row stood
      obtain ⟨κ', kind, symbols⟩ := ht k row stood
      cases (kind_kept h keeps kind).symm.trans kind'
      exact ⟨hg.idle k row stood κ kind foreign, fun live => (symbols live).1⟩
    rcases apply_cdp h k with ⟨-, same⟩ | ⟨-, moved⟩
    · exact (earlier it (same ▸ found)).1
    · obtain ⟨κ', kind, -⟩ := ht.earlier h found
      cases (kind_kept h keeps kind).symm.trans kind'
      exact moved.idle hs hg kind foreign (fun row stood => (earlier row stood).2)
        (fun row stood => (earlier row stood).1) found

/-! ## Payments -/

/-- The account that a call makes pay, and what it pays: towards a debt or as a bid. -/
def payment (s : State) : Action → Option (Name × Asset)
  | .wipe owner _ quantity => some (owner, quantity)
  | .shut owner symbl => (s.cdps.lookup (symbl, owner)).bind fun it =>
    if 0 < it.stablecoin.amount then some (owner, it.stablecoin) else none
  | .liquify bidder _ _ bidamt => some (bidder, bidamt)
  | _ => none

/-- Between `s` and `s'`, `sub_balance` takes `value` from a row of `payer` tagged `code`. -/
def Debited (s s' : State) (payer : Name) (value : Asset) (code : Name) : Prop :=
  ∃ b b' earlier later, Moved s.accounts earlier b ∧ subBalance b payer value = .ok (b', code) ∧
    Moved b' later s'.accounts

section Payments

variable {payer owner bidder code : Name} {symbl : SymbolCode} {value bidamt : Asset}

theorem Debited.first {b : Accounts} {later : List Move}
    (paid : subBalance s.accounts payer value = .ok (b, code)) (rest : Moved b later s'.accounts) :
    Debited s s' payer value code :=
  ⟨_, _, [], later, Ledger.Posted.nil _, paid, rest⟩

/-- A bid that is taken is paid, whatever else the auction step moves. -/
theorem Bidding.paid {st : Stat} {row it : Cdp} {lot : Lot} (hs : Sound s)
    (h : Bidding c s bidder owner symbl bidamt st it lot)
    (found : s.cdps.lookup (symbl, owner) = some row) (opened : openAuction c s st row = .ok it) :
    ∃ b b' code earlier later, Moved s.accounts earlier b ∧
      subBalance b bidder bidamt = .ok (b', code) ∧ Moved b' later lot.accounts := by
  cases h with
  | first _ taken _ =>
    obtain ⟨_, code, -, paid, rfl⟩ := firstBid_ok taken
    exact ⟨_, _, code, [], [], Ledger.Posted.nil _, paid, Ledger.Posted.nil _⟩
  | next bt _ _ taken =>
    obtain ⟨_, code, _, -, -, -, paid, refunded, rfl⟩ := outbid_ok taken
    exact ⟨_, _, code, [], _, Ledger.Posted.nil _, paid, refunded⟩
  | roll bt spent standing _ awarded taken =>
    have moved : ∃ earlier, Moved s.accounts earlier spent.accounts := by
      rcases awardCollateral_ok awarded with ⟨-, rfl⟩ | ⟨_, _, -, -, moved, rfl⟩
      · exact ⟨[], Ledger.Posted.nil _⟩
      · exact ⟨_, moved⟩
    obtain ⟨earlier, moved⟩ := moved
    obtain ⟨_, _, _, code, _, -, -, -, -, paid, -, rfl⟩ :=
      roll_ok hs standing found opened awarded taken
    exact ⟨_, _, code, earlier, [], moved, paid, Ledger.Posted.nil _⟩

/-- A call that makes an account pay debits it. -/
theorem payment_debited (hs : Sound s) (h : apply c s a = .ok s')
    (pays : payment s a = some (payer, value)) : ∃ code, Debited s s' payer value code := by
  cases a with
  | wipe owner symbl quantity =>
    cases pays
    obtain ⟨_, _, _, _, _, _, code, _, _, -, -, -, -, -, -, -, -, -, -, fee, paid, -, rfl⟩ :=
      wipe_ok h
    exact ⟨code, _, _, _, [], (subBalance_ok fee).1, paid, Ledger.Posted.nil _⟩
  | shut owner symbl =>
    obtain ⟨st, it, _, _, _, _, -, -, found, -, debt, back, rfl⟩ := shut_ok h
    simp only [payment, found, Option.bind_some] at pays
    split at pays
    · rename_i owing
      cases pays
      rcases shutDebt_ok debt with ⟨code, -, paid, -, -⟩ | ⟨none, -, -⟩
      · rcases shutCollateral_ok back with ⟨-, moved, -, -⟩ | ⟨-, rfl, -⟩
        · exact ⟨code, .first paid moved⟩
        · exact ⟨code, .first paid (Ledger.Posted.nil _)⟩
      · omega
    · cases pays
  | liquify bidder owner symbl bidamt =>
    cases pays
    obtain ⟨st, row, it, lot, -, -, -, found, opened, bidding, done⟩ := liquify_ok h
    obtain ⟨b, b', code, earlier, later, before, paid, rest⟩ := bidding.paid hs found opened
    rcases finish_ok done with ⟨-, rfl⟩ | ⟨_, _, -, settled, rfl⟩
    · exact ⟨code, b, b', earlier, later, before, paid, rest⟩
    · rcases settleLot_ok settled with ⟨-, rfl, -⟩ | ⟨_, -, moved, -, -⟩
      · exact ⟨code, b, b', earlier, later, before, paid, rest⟩
      · exact ⟨code, b, b', earlier, _, before, paid, rest.append moved⟩
  | _ => cases pays

/-- The tag that `sub_balance` returns is still on the row when the call ends. -/
theorem Debited.tag (h : Debited s s' payer value code) : ∃ row,
    s'.accounts.lookup (value.symbol.code, payer) = some row ∧
      row.label = (value.symbol, code) := by
  obtain ⟨b, b', _, _, -, paid, rest⟩ := h
  obtain ⟨moved, old, found, tag, symbol, -⟩ := subBalance_ok paid
  obtain ⟨mid, kept, label⟩ := moved.keeps found
  obtain ⟨row, found', label'⟩ := rest.keeps kept
  refine ⟨row, found', ?_⟩
  rw [label', label, Account.label, tag, symbol]

end Payments

theorem genuine_after (self : Name) (clock : Nat) (es : List Event) (y : Symbol)
    (cents : y.precision = 2)
    (calm : Along (step self) (Meets self fun c _ a => KeepsTypes c a ∧ Undeposited y a)
      (World.genesis clock) es) :
    Kept self (after self clock es).state ∧ Genuine self y (after self clock es).state := by
  refine invariant ((Kept.queueless self).and (Genuine.queueless self y))
    (fun c s a s' own kept ok h => ?_) ⟨Kept.empty self, Genuine.empty self y⟩ calm
  subst own
  obtain ⟨kept, genuine⟩ := kept
  exact ⟨kept.apply ok.1 h,
    genuine.apply kept.sound kept.typed ok.1 ok.2 (unvoted_cents cents) h⟩

/-- As long as no token is deposited in the symbol of a stablecoin, debts and
bids in it are paid from balances that the contract has issued. -/
theorem paid_in_own_stablecoin (self : Name) (clock : Nat) (es : List Event) (e : Event)
    (T : SymbolCode) (st : Stat) (payer : Name) (value : Asset)
    (calm : Along (step self) (Meets self fun c _ a => KeepsTypes c a ∧ Undeposited value.symbol a)
      (World.genesis clock) es)
    (called : Succeeds self (after self clock es) e c s a)
    (type : s.stats.lookup (self, T) = some st) (stable : value.symbol = st.totalStablecoin.symbol)
    (pays : payment s a = some (payer, value)) :
    (∃ code, Debited s (step self (after self clock es) e).state payer value code) ∧
      ∀ code, Debited s (step self (after self clock es) e).state payer value code →
        code = self := by
  have cents : value.symbol.precision = 2 := by
    obtain ⟨-, sound⟩ := call_meets Sound.queueless (sound_after self clock es) called.called
    rw [stable]
    exact (sound.stats _ st type).cents
  obtain ⟨rfl, kept, genuine⟩ := call_meets
    ((Kept.queueless self).and (Genuine.queueless self value.symbol))
    (genuine_after self clock es value.symbol cents calm) called.called
  refine ⟨payment_debited kept.sound called.done pays, fun code debited => ?_⟩
  have keeps : KeepsTypes c a ∧ Undeposited value.symbol a := by
    cases a with
    | referended | deposit => cases pays
    | _ => exact ⟨trivial, trivial⟩
  have ends := genuine.apply kept.sound kept.typed keeps.1 keeps.2 (unvoted_cents cents) called.done
  obtain ⟨row, found, label⟩ := debited.tag
  have symbol : row.balance.symbol = value.symbol := congrArg Prod.fst label
  have tag : row.code = code := congrArg Prod.snd label
  rw [← tag, ends.rows _ row found symbol, issuer, if_neg]
  intro iq
  rw [iq] at cents
  cases cents

section

open Sample

/-- `nick` owes 100 USD and has IQ for the fee. -/
def indebted : List Event :=
  funded EOS 200 1000000 ++
    [borrow 10000, .act [nick] (.deposit IQ_NAME nick daiqcontract ⟨1000, IQ_SYMBOL⟩ [])]

def repay : Event := .act [nick] (.wipe nick FUD ⟨4000, USD⟩)

theorem paid_in_own_stablecoin_nick :
    (∃ code, Debited (after daiqcontract 1000 indebted).state
      (step daiqcontract (after daiqcontract 1000 indebted) repay).state nick ⟨4000, USD⟩ code) ∧
    ∀ code, Debited (after daiqcontract 1000 indebted).state
      (step daiqcontract (after daiqcontract 1000 indebted) repay).state nick ⟨4000, USD⟩ code →
        code = daiqcontract :=
  paid_in_own_stablecoin daiqcontract 1000 indebted repay FUD
    { (terms EOS 150).draft with
      live := true, lastVote := 1005, totalStablecoin := ⟨10000, USD⟩
      totalCollateral := ⟨⟨1000000, EOS⟩, eosioToken⟩ }
    nick ⟨4000, USD⟩ (by decide +kernel) (.of_isOk rfl (by decide +kernel))
      (by decide +kernel) rfl rfl

/-- `sick` has 50 USD of another contract. -/
def forged : List Event :=
  indebted ++
    [ .act [sick] (.deposit fakeos sick daiqcontract ⟨5000, USD⟩ []),
      .act [daiqcontract] (.upfeed daiqcontract ⟨200, USD⟩ FUD EOS) ]

def forgedBid : Event := .act [sick] (.liquify sick nick FUD ⟨5000, USD⟩)

/-- They are taken as a bid and lower the debt of `nick`. -/
theorem forged_bid_taken : ∃ c s st,
    Succeeds daiqcontract (after daiqcontract 1000 forged) forgedBid c s
      (.liquify sick nick FUD ⟨5000, USD⟩) ∧
    s.stats.lookup (daiqcontract, FUD) = some st ∧ USD = st.totalStablecoin.symbol ∧
    payment s (.liquify sick nick FUD ⟨5000, USD⟩) = some (sick, ⟨5000, USD⟩) ∧
    (step daiqcontract (after daiqcontract 1000 forged) forgedBid).state.cdps.lookup (FUD, nick) =
      some ⟨1005, ⟨1000000, EOS⟩, ⟨10000, USD⟩, false⟩ ∧
    Debited s (step daiqcontract (after daiqcontract 1000 forged) forgedBid).state
      sick ⟨5000, USD⟩ fakeos ∧ fakeos ≠ daiqcontract := by
  have called : Succeeds daiqcontract (after daiqcontract 1000 forged) forgedBid
      _ (after daiqcontract 1000 forged).state (.liquify sick nick FUD ⟨5000, USD⟩) :=
    .of_isOk rfl (by decide +kernel)
  obtain ⟨code, debited⟩ := payment_debited (sound_after daiqcontract 1000 forged) called.done rfl
  obtain ⟨row, found, label⟩ := debited.tag
  have left : (step daiqcontract (after daiqcontract 1000 forged) forgedBid).state.accounts.lookup
      (USD.code, sick) = some ⟨⟨0, USD⟩, fakeos⟩ := by decide +kernel
  cases found.symm.trans left
  cases label
  exact ⟨_, _, { (terms EOS 150).draft with
      live := true, lastVote := 1005, totalStablecoin := ⟨10000, USD⟩
      totalCollateral := ⟨⟨1000000, EOS⟩, eosioToken⟩ },
    called, by decide +kernel, rfl, rfl, by decide +kernel, debited, by decide⟩

end

end DecentralBank.Maker
