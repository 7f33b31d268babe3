import DecentralBank.Maker.Genuine

/-!
# Stablecoin and debt

What circulates of a stablecoin, and what is locked up of it as collateral, is
at most the debt in it, unless an auction makes some to pay a debt in IQ.
-/

namespace DecentralBank.Maker

open Runs

/-- The amount of an asset, if it is in `y`. -/
def worth (y : Symbol) (value : Asset) : Int := if value.symbol = y then value.amount else 0

/-- All balances in `y`. -/
def circulating (y : Symbol) (accounts : Accounts) : Int :=
  accounts.total fun _ row => worth y row.balance

/-- No balance in `y` is negative. -/
def Covered (y : Symbol) (accounts : Accounts) : Prop :=
  accounts.All fun _ row => row.balance.symbol = y → 0 ≤ row.balance.amount

/-- From `a` to `b` the balances in `y` move by `change` and stay covered. -/
structure Shifted (y : Symbol) (a b : Accounts) (change : Int) : Prop where
  sum : circulating y b = circulating y a + change
  covered : Covered y a → Covered y b

section Accounts

variable {y : Symbol} {a b d : Accounts} {owner code : Name} {value : Asset}

@[simp] theorem worth_mk (y : Symbol) (amount : Int) (symbol : Symbol) :
    worth y ⟨amount, symbol⟩ = if symbol = y then amount else 0 := rfl

theorem circulating_moved {moves : List Move} (h : Moved a moves b) :
    circulating y b = circulating y a +
      (moves.map fun m => (if m.label.1 = y then 1 else 0) * m.amount).sum := by
  refine h.total_eq (fun _ label => if label.1 = y then 1 else 0) fun k row => ?_
  by_cases symbol : row.balance.symbol = y <;> simp [worth, Account.label, Account.amount, symbol]

theorem Covered.post {m : Move} (h : Covered y a) (moved : Moved a [m] b)
    (enough : m.label.1 = y → 0 ≤ Ledger.held Account.amount a m.key + m.amount) : Covered y b := by
  obtain ⟨row, rfl, label, sum, -⟩ := moved.of_single
  refine Table.All.insert h fun symbol => ?_
  have : row.balance.amount = Ledger.held Account.amount a m.key + m.amount := sum
  rw [this]
  exact enough (by rw [← label]; exact symbol)

theorem Shifted.refl (y : Symbol) (a : Accounts) : Shifted y a a 0 := ⟨(add_zero _).symm, id⟩

theorem Shifted.debit {change : Int} (h : Shifted y a b change)
    (paid : subBalance b owner value = .ok (d, code)) : Shifted y a d (change - worth y value) := by
  obtain ⟨moved, row, found, -, -, enough⟩ := subBalance_ok paid
  constructor
  · rw [circulating_moved moved, h.sum]
    by_cases symbol : value.symbol = y
    · simp [Maker.debit, worth, symbol]
      omega
    · simp [Maker.debit, worth, symbol]
  · intro covered
    refine (h.covered covered).post moved fun _ => ?_
    simp only [Maker.debit, Ledger.held_some found, Account.amount]
    omega

theorem Shifted.credit {change : Int} (h : Shifted y a b change)
    (moved : Moved b [Maker.credit owner value code] d)
    (gain : value.symbol = y → 0 ≤ value.amount) :
    Shifted y a d (change + worth y value) := by
  constructor
  · rw [circulating_moved moved, h.sum]
    by_cases symbol : value.symbol = y
    · simp [Maker.credit, worth, symbol]
      omega
    · simp [Maker.credit, worth, symbol]
  · intro covered
    have before := h.covered covered
    obtain ⟨-, -, -, -, same⟩ := moved.of_single
    refine before.post moved fun symbol => ?_
    have standing : 0 ≤ Ledger.held Account.amount b (value.symbol.code, owner) := by
      cases found : b.lookup (value.symbol.code, owner) with
      | none => rw [Ledger.held_none found]
      | some row =>
        rw [Ledger.held_some found]
        exact before _ row found ((congrArg Prod.fst (same row found)).trans symbol)
    have := gain symbol
    simp only [Maker.credit]
    omega

theorem Shifted.elsewhere {change : Int} {m : Move} (h : Shifted y a b change)
    (moved : Moved b [m] d) (other : m.label.1 ≠ y) : Shifted y a d change := by
  constructor
  · rw [circulating_moved moved, h.sum]
    simp [other]
  · intro covered
    exact (h.covered covered).post moved fun symbol => absurd symbol other

end Accounts

/-- What a CDP holds in `y`, less what it owes in `y`. -/
def net (y : Symbol) (it : Cdp) : Int := worth y it.collateral - worth y it.stablecoin

/-- No call rolls a remainder in IQ over, at a price of IQ in `y`, so that it
buys some `y` to be sold or asks for a negative amount of `y`. -/
def Unminted (y : Symbol) (c : Ctx) (s : State) : Action → Prop
  | .liquify _ owner symbl _ =>
    ∀ st ∈ s.stats.lookup (c.self, symbl), ∀ it ∈ s.cdps.lookup (symbl, owner),
      ∀ bt ∈ s.bids.lookup (symbl, owner), ∀ fv ∈ s.feeds.lookup IQ_SYMBOL.code,
        roundOpen c st bt = false → it.stablecoin.symbol = IQ_SYMBOL → fv.price.symbol = y →
          (0 < it.stablecoin.amount → i64 (it.stablecoin.amount * fv.price.amount) = 0) ∧
          (it.stablecoin.amount < 0 → 0 ≤ i64 (-i64 (it.stablecoin.amount * fv.price.amount)))
  | _ => True

instance (y : Symbol) (c : Ctx) (s : State) : (a : Action) → Decidable (Unminted y c s a)
  | .liquify .. => by unfold Unminted; infer_instance
  | .openCdp .. | .close .. | .shut .. | .lock .. | .bail .. | .draw .. | .wipe .. | .settle ..
  | .vote .. | .propose .. | .referended .. | .upfeed .. | .withdraw .. | .deposit .. =>
    isTrue trivial

variable {c : Ctx} {s s' : State} {a : Action} {y : Symbol}

section Auctions

variable {bidder owner : Name} {symbl : SymbolCode} {bidamt : Asset} {st : Stat} {it row : Cdp}
  {lot : Lot}

theorem worth_sub (value other : Asset) (same : other.symbol = value.symbol) :
    worth y ⟨value.amount - other.amount, value.symbol⟩ = worth y value - worth y other := by
  unfold worth
  simp only [same]
  split <;> omega

theorem worth_add (value other : Asset) (same : other.symbol = value.symbol) :
    worth y ⟨value.amount + other.amount, value.symbol⟩ = worth y value + worth y other := by
  unfold worth
  simp only [same]
  split <;> omega

/-- The collateral of a CDP is not negative, if it is in `y`. -/
def Cdp.Whole (y : Symbol) (it : Cdp) : Prop := it.collateral.symbol = y → 0 ≤ it.collateral.amount

theorem Cdp.Whole.worth (h : it.Whole y) : 0 ≤ worth y it.collateral := by
  unfold Maker.worth
  split
  · rename_i symbol
    exact h symbol
  · exact le_refl 0

/-- Converting a remainder makes no `y`. -/
theorem Converted.net {price : Asset} {next : Cdp} (h : Converted it price next)
    (foreign : y ≠ IQ_SYMBOL)
    (unminted : it.stablecoin.symbol = IQ_SYMBOL → price.symbol = y →
      (0 < it.stablecoin.amount → i64 (it.stablecoin.amount * price.amount) = 0) ∧
      (it.stablecoin.amount < 0 → 0 ≤ i64 (-i64 (it.stablecoin.amount * price.amount)))) :
    Maker.net y next ≤ -worth y it.stablecoin ∧ next.Whole y := by
  cases h with
  | shortIQ short iq =>
    by_cases priced : price.symbol = y
    · have none := (unminted iq priced).1 short
      constructor
      · simp [Maker.net, priced, none]
      · intro _
        exact none.ge
    · constructor
      · simp [Maker.net, priced]
      · intro symbol
        exact absurd symbol priced
  | short short other =>
    constructor
    · simp [Maker.net, foreign.symm]
    · intro symbol
      exact absurd symbol.symm foreign
  | surplusIQ surplus iq =>
    have apart : it.stablecoin.symbol ≠ y := fun e => foreign (e.symm.trans iq)
    constructor
    · by_cases priced : price.symbol = y
      · have asked := (unminted iq priced).2 surplus
        simp [Maker.net, worth, Asset.neg, priced, apart, asked]
      · simp [Maker.net, worth, Asset.neg, priced, apart]
    · intro symbol
      exact absurd symbol apart
  | surplus surplus other =>
    constructor
    · by_cases symbol : it.stablecoin.symbol = y
      · simp [Maker.net, worth, Asset.neg, symbol, foreign.symm]
      · simp [Maker.net, worth, Asset.neg, symbol, foreign.symm]
    · intro _
      simp only [Asset.neg]
      omega

/-- Opening an auction adds the penalty to the debt. -/
theorem openAuction_net (hi : row.Sound s.feeds) (opened : openAuction c s st row = .ok it) :
    net y it ≤ net y row ∧ it.collateral = row.collateral := by
  rcases openAuction_ok opened with ⟨-, rfl⟩ | ⟨_, _, live, -, -, -, -, rfl⟩
  · exact ⟨le_refl _, rfl⟩
  · have debt := hi.debt live
    have word := u64_lt ((u64 row.stablecoin.amount : Int) * st.penaltyRatio)
    have more : row.stablecoin.amount ≤ penalised st row.stablecoin.amount := by
      rw [Asset.maxAmount] at debt
      rw [penalised, i64_of_lt (by omega) (by omega)]
      omega
    refine ⟨?_, rfl⟩
    simp only [net, worth]
    split <;> split <;> omega

/-- A bid makes no `y`: what it takes from the balances it takes off the debt. -/
theorem Bidding.backed (hs : Sound s) (h : Bidding c s bidder owner symbl bidamt st it lot)
    (foreign : y ≠ IQ_SYMBOL) (type : s.stats.lookup (c.self, symbl) = some st)
    (found : s.cdps.lookup (symbl, owner) = some row) (opened : openAuction c s st row = .ok it)
    (whole : it.Whole y) (calm : Unminted y c s (.liquify bidder owner symbl bidamt)) :
    ∃ change, Shifted y s.accounts lot.accounts change ∧ change + net y lot.it ≤ net y it ∧
      lot.it.Whole y := by
  have start := Shifted.refl y s.accounts
  cases h with
  | first _ taken _ =>
    obtain ⟨_, _, symbol, paid, rfl⟩ := firstBid_ok taken
    refine ⟨_, start.debit paid, ?_, whole⟩
    simp only [net, worth_sub _ _ symbol]
    omega
  | next bt standing _ taken =>
    obtain ⟨_, _, _, symbol, same, -, paid, refunded, rfl⟩ := outbid_ok taken
    refine ⟨_, (start.debit paid).credit refunded fun _ => (hs.bids _ _ standing).1.le, ?_, whole⟩
    have less :=
      worth_sub (y := y) it.stablecoin ⟨bidamt.amount - bt.bidamt.amount, bidamt.symbol⟩ symbol
    have raise := worth_sub (y := y) bidamt bt.bidamt same
    simp only at less raise
    simp only [net, less, raise]
    omega
  | roll bt spent standing expired awarded taken =>
    have same := standing_unopened hs standing found opened
    subst same
    have award : Shifted y s.accounts spent.accounts 0 := by
      rcases awardCollateral_ok awarded with ⟨-, rfl⟩ | ⟨_, _, -, -, moved, rfl⟩
      · exact start
      · simpa using start.credit moved fun _ => le_refl 0
    obtain ⟨fv, next, _, _, _, debt, iq, converted, symbol, paid, -, rfl⟩ :=
      roll_ok hs standing found opened awarded taken
    have unminted := calm st type _ found bt standing fv iq expired
    obtain ⟨made, whole'⟩ := (convertRemainder_ok debt converted).net foreign unminted
    refine ⟨_, award.debit paid, ?_, whole'⟩
    have held := whole.worth
    simp only [net, worth_sub _ _ symbol] at made ⊢
    omega

end Auctions

/-! ## The balance of a stablecoin -/

/-- What CDPs hold in `y`, less what they owe in `y`. -/
def locked (y : Symbol) (cdps : Table (SymbolCode × Name) Cdp) : Int :=
  cdps.total fun _ it => net y it

structure Backed (y : Symbol) (s : State) : Prop where
  balance : circulating y s.accounts + locked y s.cdps ≤ 0
  covered : Covered y s.accounts
  whole : s.cdps.All fun _ it => it.Whole y

theorem Backed.empty (y : Symbol) : Backed y State.empty :=
  ⟨le_refl 0, Table.All.empty _, Table.All.empty _⟩

theorem Backed.queueless (y : Symbol) : Queueless (Backed y) := fun _ _ h => ⟨h.1, h.2, h.3⟩

theorem Backed.shift (hb : Backed y s) {change : Int}
    (shifted : Shifted y s.accounts s'.accounts change)
    (offset : change + locked y s'.cdps ≤ locked y s.cdps)
    (whole : s'.cdps.All fun _ it => it.Whole y) : Backed y s' := by
  refine ⟨?_, shifted.covered hb.covered, whole⟩
  have before := hb.balance
  rw [shifted.sum]
  omega

section Cdps

variable {cdps : Table (SymbolCode × Name) Cdp} {k : SymbolCode × Name} {it next : Cdp}

theorem locked_insert (found : cdps.lookup k = some it) :
    locked y (cdps.insert k next) = locked y cdps - net y it + net y next := by
  rw [locked, Table.total_insert, Table.weightAt_some found, ← locked]

theorem locked_erase (found : cdps.lookup k = some it) :
    locked y (cdps.erase k) = locked y cdps - net y it := by
  rw [locked, Table.total_erase, Table.weightAt_some found, ← locked]

end Cdps

/-- The refund loop only erases balances in `y`. -/
theorem refunds_backed {rows : List ((_ : SymbolCode × Name) × Account)} {a b : Accounts}
    (foreign : y ≠ IQ_SYMBOL) (h : rows.foldlM refund a = .ok b) (covered : Covered y a) :
    circulating y b ≤ circulating y a ∧ Covered y b := by
  induction rows generalizing a with
  | nil =>
    cases h
    exact ⟨le_refl _, covered⟩
  | cons row rows ih =>
    simp only [List.foldlM_cons, Checked.bind_eq_ok] at h
    obtain ⟨a₁, first, rest⟩ := h
    obtain ⟨paid, moved, rfl⟩ := refund_ok first
    have shifted := (Shifted.refl y a).elsewhere moved foreign.symm
    have kept := shifted.covered covered
    obtain ⟨le, after⟩ := ih rest (Table.All.erase kept _)
    refine ⟨le.trans ?_, after⟩
    have gone : 0 ≤ Table.weightAt (fun _ row => worth y (Account.balance row)) paid row.1 := by
      cases found : paid.lookup row.1 with
      | none => rw [Table.weightAt_none found]
      | some old =>
        rw [Table.weightAt_some found, worth]
        split
        · rename_i symbol
          exact kept _ old found symbol
        · exact le_refl 0
    have sum := shifted.sum
    rw [circulating, Table.total_erase, ← circulating]
    omega

/-- What a CDP that is shut pays back is what it gives back, and the rest was issued for it. -/
theorem Backed.shut (hs : Sound s) (hb : Backed y s) {owner : Name} {symbl : SymbolCode}
    (h : Maker.shut c s owner symbl = .ok s') : Backed y s' := by
  have start := Shifted.refl y s.accounts
  obtain ⟨st, it, paid, _, accounts, _, -, -, found, live, debt, back, rfl⟩ := shut_ok h
  have row := hs.cdps _ _ found
  have repaid : Shifted y s.accounts paid (-worth y it.stablecoin) := by
    rcases shutDebt_ok debt with ⟨_, -, debited, -, -⟩ | ⟨none, rfl, -⟩
    · simpa using start.debit debited
    · have zero : worth y it.stablecoin = 0 := by
        have := row.debt live
        unfold worth
        split <;> omega
      simpa [zero] using start
  have returned :
      Shifted y s.accounts accounts (-worth y it.stablecoin + worth y it.collateral) := by
    rcases shutCollateral_ok back with ⟨positive, moved, -, -⟩ | ⟨none, rfl, -⟩
    · exact repaid.credit moved fun _ => positive.le
    · have zero : worth y it.collateral = 0 := by
        have := row.collateral live
        unfold worth
        split <;> omega
      simpa [zero] using repaid
  refine hb.shift returned ?_ (Table.All.erase hb.whole _)
  rw [locked_erase found, net]
  omega

theorem Backed.liquify (hs : Sound s) (hb : Backed y s) (foreign : y ≠ IQ_SYMBOL)
    {bidder owner : Name} {symbl : SymbolCode} {bidamt : Asset}
    (unminted : Unminted y c s (.liquify bidder owner symbl bidamt))
    (h : Maker.liquify c s bidder owner symbl bidamt = .ok s') : Backed y s' := by
  obtain ⟨st, row, it, lot, -, -, type, found, opened, bidding, done⟩ := liquify_ok h
  obtain ⟨raised, collateral⟩ := openAuction_net (y := y) (hs.cdps _ _ found) opened
  have whole : it.Whole y := by
    rw [Cdp.Whole, collateral]
    exact hb.whole _ _ found
  obtain ⟨change, shifted, offset, whole'⟩ :=
    bidding.backed hs foreign type found opened whole unminted
  rcases finish_ok done with ⟨-, rfl⟩ | ⟨_, _, ended, settled, rfl⟩
  · refine hb.shift shifted ?_ (Table.All.insert hb.whole whole')
    rw [locked_insert found]
    omega
  · have gone : worth y lot.it.stablecoin = 0 := by simp [worth, ended]
    rw [net, gone] at offset
    rcases settleLot_ok settled with ⟨none, rfl, -⟩ | ⟨_, -, moved, -, -⟩
    · have empty : worth y lot.it.collateral = 0 := by simp [worth, none]
      refine hb.shift shifted ?_ (Table.All.erase hb.whole _)
      rw [locked_erase found]
      omega
    · refine hb.shift (shifted.credit moved whole') ?_ (Table.All.erase hb.whole _)
      rw [locked_erase found]
      omega

theorem Backed.apply (hs : Sound s) (hg : Genuine c.self y s) (hb : Backed y s)
    (cents : y.precision = 2) (calm : Undeposited y a) (unminted : Unminted y c s a)
    (h : Maker.apply c s a = .ok s') : Backed y s' := by
  have foreign : y ≠ IQ_SYMBOL := by
    rintro rfl
    cases cents
  have start := Shifted.refl y s.accounts
  cases a with
  | upfeed feeder price cdpType symbol =>
    obtain ⟨-, rfl⟩ := upfeed_ok h
    exact ⟨hb.1, hb.2, hb.3⟩
  | openCdp owner symbl ramPayer =>
    obtain ⟨st, _, -, -, -, free, rfl⟩ := openCdp_ok h
    refine hb.shift start ?_ (Table.All.insert hb.whole fun _ => le_refl 0)
    rw [locked, Table.total_insert, Table.weightAt_none free, ← locked]
    simp [net]
  | close owner symbl =>
    obtain ⟨row, -, found, zero, rfl⟩ := close_ok h
    refine ⟨?_, Table.All.erase hb.covered _, hb.whole⟩
    have gone : worth y row.balance = 0 := by simp [worth, zero]
    rw [circulating, Table.total_erase, Table.weightAt_some found, gone, ← circulating, sub_zero]
    exact hb.balance
  | shut owner symbl => exact hb.shut hs h
  | lock owner symbl quantity =>
    obtain ⟨st, it, _, _, -, positive, -, -, found, live, symbol, paid, -, -, rfl⟩ := lock_ok h
    have row := (hs.cdps _ _ found).collateral live
    refine hb.shift (start.debit paid) ?_ (Table.All.insert hb.whole fun _ => ?_)
    · rw [locked_insert found]
      simp only [net, worth_add _ _ symbol.symm]
      omega
    · simp only
      omega
  | bail owner symbl quantity =>
    obtain ⟨st, it, _, _, _, -, positive, -, -, found, -, symbol, less, -, -, -, moved, rfl⟩ :=
      bail_ok h
    refine hb.shift (start.credit moved fun _ => positive.le) ?_
      (Table.All.insert hb.whole fun _ => ?_)
    · rw [locked_insert found]
      simp only [net, worth_sub _ _ symbol.symm]
      omega
    · simp only
      omega
  | draw owner symbl quantity =>
    obtain ⟨st, it, _, _, _, _, -, positive, -, -, found, -, symbol, -, -, -, -, -, moved, rfl⟩ :=
      draw_ok h
    have whole : it.Whole y := hb.whole _ _ found
    refine hb.shift (start.credit moved fun _ => positive.le) ?_ (Table.All.insert hb.whole whole)
    rw [locked_insert found]
    simp only [net, worth_add _ _ symbol.symm]
    omega
  | wipe owner symbl quantity =>
    obtain ⟨_, it, _, _, _, _, _, _, _, -, positive, -, -, found, -, symbol,
      less, -, -, fee, paid, -, rfl⟩ := wipe_ok h
    have whole : it.Whole y := hb.whole _ _ found
    refine hb.shift ((start.debit fee).debit paid) ?_ (Table.All.insert hb.whole whole)
    rw [locked_insert found]
    simp only [net, worth_sub _ _ symbol.symm, worth_mk, if_neg foreign.symm]
    omega
  | settle feeder symbl =>
    obtain ⟨_, -, rfl⟩ := settle_ok h
    exact ⟨hb.1, hb.2, hb.3⟩
  | vote voter symbl against quantity =>
    obtain ⟨_, paid, _, _, _, -, positive, iq, -, debited, escrowed, -, rfl⟩ := vote_ok h
    obtain ⟨code, moved, -⟩ := escrow_ok escrowed
    have spent : worth y quantity = 0 := by simp [worth, iq, foreign.symm]
    have ballot : (⟨symbl, 3⟩ : Symbol) ≠ y := by
      rintro rfl
      cases cents
    refine hb.shift ((start.debit debited).elsewhere moved ballot) ?_ hb.whole
    simp only
    omega
  | propose proposer symbl terms =>
    obtain ⟨_, -, -, -, -, -, -, -, rfl⟩ := propose_ok h
    exact ⟨hb.1, hb.2, hb.3⟩
  | referended proposer symbl =>
    obtain ⟨-, prop, -, -, ⟨-, -, rfl⟩ | ⟨_, _, -, -, refunded, rfl⟩⟩ := referended_ok h
    · exact ⟨hb.1, hb.2, hb.3⟩
    · obtain ⟨le, covered⟩ := refunds_backed foreign refunded hb.covered
      refine ⟨?_, covered, hb.whole⟩
      have := hb.balance
      simp only
      omega
  | liquify bidder owner symbl bidamt => exact hb.liquify hs foreign unminted h
  | withdraw owner quantity memo =>
    obtain ⟨value, code, _, _, -, -, paid, own, -, rfl⟩ := withdraw_ok h
    -- the contract's own tokens cannot be withdrawn
    obtain ⟨-, row, found, tag, symbol, -⟩ := subBalance_ok paid
    have other : value.symbol ≠ y := by
      intro same
      have genuine := hg.rows _ row found (symbol.trans same)
      rw [issuer, if_neg foreign, tag] at genuine
      exact own genuine
    refine hb.shift (start.debit paid) ?_ hb.whole
    simp only [worth, if_neg other]
    omega
  | deposit code source target quantity memo =>
    obtain ⟨-, -, ⟨-, rfl⟩ | ⟨_, _, -, -, -, moved, rfl⟩⟩ := deposit_ok (apply_deposit_ok h).2
    · exact ⟨hb.1, hb.2, hb.3⟩
    · have other : quantity.symbol ≠ y := fun same => foreign (calm same)
      refine hb.shift (start.elsewhere moved other) ?_ hb.whole
      simp only
      omega

/-! ## Backing -/

/-- The balances in `y` that the contract has issued. -/
def issued (own : Name) (y : Symbol) (accounts : Accounts) : Int :=
  accounts.total fun _ row => if row.label = (y, own) then row.amount else 0

/-- The debt of the CDPs whose type has the stablecoin `y`. -/
def owing (own : Name) (y : Symbol) (s : State) : Int :=
  s.cdps.total fun k it =>
    if (kindOf own s.stats k.1).map Kind.stablecoin = some y then it.stablecoin.amount else 0

/-- No CDP is in liquidation. -/
def NoAuctions (s : State) : Prop := ∀ e ∈ s.cdps.entries, e.2.live = true

instance (s : State) : Decidable (NoAuctions s) := inferInstanceAs (Decidable (∀ e ∈ _, _))

theorem issued_le {own : Name} {accounts : Accounts} (covered : Covered y accounts) :
    issued own y accounts ≤ circulating y accounts := by
  refine Table.total_le fun k row found => ?_
  by_cases symbol : row.balance.symbol = y
  · have := covered k row found symbol
    simp only [worth, Account.amount, if_pos symbol]
    split <;> omega
  · have other : row.label ≠ (y, own) := fun e => symbol (congrArg Prod.fst e)
    simp [worth, symbol, other]

/-- With no CDP in liquidation, what CDPs owe in `y` is owed by the types of `y`. -/
theorem locked_owing {own : Name} (hs : Sound s) (typed : Typed own s)
    (idle : NoAuctions s) : 0 ≤ locked y s.cdps + owing own y s := by
  rw [locked, owing, ← Table.total_add]
  have none : s.cdps.total (fun _ _ => 0) = 0 := Table.total_zero fun _ _ _ => rfl
  rw [← none]
  refine Table.total_le fun k it found => ?_
  have live : it.live = true := idle _ ((Table.lookup_iff_mem _ _ _).mp found)
  obtain ⟨κ, kind, symbols⟩ := typed k it found
  have collateral := ((hs.cdps k it found).collateral live).1
  have symbol := (symbols live).2
  simp only [kind, Option.map_some, Option.some_inj, ← symbol, net, worth]
  split <;> split <;> omega

/-- As long as no token is deposited in it and no auction makes any of it, a
stablecoin in the accounts is backed by debt whenever no CDP is in liquidation. -/
theorem stablecoin_backed (self : Name) (clock : Nat) (es : List Event) (y : Symbol)
    (calm : Along (step self)
      (Meets self fun c s a => KeepsTypes c a ∧ Undeposited y a ∧ Unminted y c s a)
      (World.genesis clock) es)
    (T : SymbolCode) (st : Stat)
    (type : (after self clock es).state.stats.lookup (self, T) = some st)
    (stable : st.totalStablecoin.symbol = y)
    (idle : NoAuctions (after self clock es).state) :
    issued self y (after self clock es).state.accounts ≤
      owing self y (after self clock es).state := by
  have cents : y.precision = 2 := by
    rw [← stable]
    exact ((sound_after self clock es).stats _ st type).cents
  have run := invariant
    ((Kept.queueless self).and ((Genuine.queueless self y).and (Backed.queueless y)))
    (fun c s a s' own kept ok h => by
      subst own
      obtain ⟨kept, genuine, backed⟩ := kept
      exact ⟨kept.apply ok.1 h,
        genuine.apply kept.sound kept.typed ok.1 ok.2.1 (unvoted_cents cents) h,
        backed.apply kept.sound genuine cents ok.2.1 ok.2.2 h⟩)
    ⟨Kept.empty self, Genuine.empty self y, Backed.empty y⟩ calm
  obtain ⟨⟨sound, typed, -⟩, -, backed⟩ := run
  have balance : circulating y (after self clock es).state.accounts +
      locked y (after self clock es).state.cdps ≤ 0 := backed.balance
  have debts : 0 ≤ locked y (after self clock es).state.cdps +
      owing self y (after self clock es).state := locked_owing sound typed idle
  calc issued self y (after self clock es).state.accounts
      ≤ circulating y (after self clock es).state.accounts := issued_le backed.covered
    _ ≤ -locked y (after self clock es).state.cdps := by omega
    _ ≤ owing self y (after self clock es).state := by omega

section

open Sample

/-- `nick` borrows, repays a part, and his CDP goes through an auction. -/
def liquidated : List Event :=
  indebted ++
    [ repay,
      .act [sick] (.deposit eosioToken sick daiqcontract ⟨2000000, EOS⟩ []),
      .act [sick] (.openCdp sick FUD sick),
      .act [sick] (.lock sick FUD ⟨2000000, EOS⟩),
      .act [sick] (.draw sick FUD ⟨15000, USD⟩),
      .act [daiqcontract] (.upfeed daiqcontract ⟨200, USD⟩ FUD EOS),
      .act [nick] (.liquify nick nick FUD ⟨5000, USD⟩),
      .act [sick] (.liquify sick nick FUD ⟨9000, USD⟩) ]

theorem stablecoin_backed_liquidated :
    issued daiqcontract USD (after daiqcontract 1000 liquidated).state.accounts ≤
      owing daiqcontract USD (after daiqcontract 1000 liquidated).state :=
  stablecoin_backed daiqcontract 1000 liquidated USD (by decide +kernel) FUD
    { (terms EOS 150).draft with
      live := true, lastVote := 1005, totalStablecoin := ⟨21000, USD⟩
      totalCollateral := ⟨⟨3000000, EOS⟩, eosioToken⟩ }
    (by decide +kernel) rfl (by decide +kernel)

/-- `sick` pays the debt of `nick` off with USD of another contract. -/
def forgedAway : List Event :=
  indebted ++
    [ .act [sick] (.deposit fakeos sick daiqcontract ⟨15000, USD⟩ []),
      .act [daiqcontract] (.upfeed daiqcontract ⟨200, USD⟩ FUD EOS),
      .act [nick] (.liquify nick nick FUD ⟨5000, USD⟩),
      .act [sick] (.liquify sick nick FUD ⟨15000, USD⟩) ]

/-- `sick` overpays the debt of `nick` by 10 USD, which are sold for 2 IQ. `rick`
pays them in two rounds, of which the second sells USD made for it. -/
def overpaid : List Event :=
  indebted ++
    [ .act [sick] (.deposit eosioToken sick daiqcontract ⟨2000000, EOS⟩ []),
      .act [sick] (.openCdp sick FUD sick),
      .act [sick] (.lock sick FUD ⟨2000000, EOS⟩),
      .act [sick] (.draw sick FUD ⟨20000, USD⟩),
      .act [daiqcontract] (.upfeed daiqcontract ⟨200, USD⟩ FUD EOS),
      .act [nick] (.liquify nick nick FUD ⟨5000, USD⟩),
      .act [sick] (.liquify sick nick FUD ⟨16000, USD⟩),
      .elapse 5,
      .act [rick] (.deposit IQ_NAME rick daiqcontract ⟨1000, IQ_SYMBOL⟩ []),
      .act [rick] (.liquify rick nick FUD ⟨1000, IQ_SYMBOL⟩),
      .elapse 5,
      .act [rick] (.liquify rick nick FUD ⟨1000, IQ_SYMBOL⟩) ]

theorem unbacked_stablecoin :
    (NoAuctions (after daiqcontract 1000 forgedAway).state ∧
      issued daiqcontract USD (after daiqcontract 1000 forgedAway).state.accounts = 10000 ∧
      owing daiqcontract USD (after daiqcontract 1000 forgedAway).state = 0) ∧
    (NoAuctions (after daiqcontract 1000 overpaid).state ∧
      issued daiqcontract USD (after daiqcontract 1000 overpaid).state.accounts = 514000 ∧
      owing daiqcontract USD (after daiqcontract 1000 overpaid).state = 20000) := by
  decide +kernel

end

end DecentralBank.Maker
