import DecentralBank.Maker.Delivery

/-!
# Bids within a round

From the bid that opens a round, each bid in it pays back the one before. What
is left to pay and the bid that stands make up the debt that the round was
opened on, and nobody but the standing bidder has paid.
-/

namespace DecentralBank.Maker

open Runs

/-! ## A round -/

/-- A call that bids on the CDP at `k`. -/
def Action.bidsOn (k : SymbolCode × Name) : Action → Bool
  | .liquify _ owner symbl _ => decide ((symbl, owner) = k)
  | _ => false

def Event.bidsOn (k : SymbolCode × Name) : Event → Bool
  | .act _ action => action.bidsOn k
  | _ => false

/-- Nothing but time passes. -/
def Event.waits : Event → Bool
  | .elapse _ => true
  | _ => false

/-- A bid on the CDP at `k` that is taken is made in the round that is on, and
leaves something to pay. -/
def InRound (k : SymbolCode × Name) (c : Ctx) (s : State) (a : Action) : Prop :=
  match a with
  | .liquify bidder owner symbl bidamt =>
    (symbl, owner) = k → (liquify c s bidder owner symbl bidamt).isOk = true →
      ∀ st ∈ s.stats.lookup (c.self, symbl), ∀ row ∈ s.cdps.lookup k, ∀ bt ∈ s.bids.lookup k,
        roundOpen c st bt = true ∧ bidamt.amount - bt.bidamt.amount ≠ row.stablecoin.amount
  | _ => True

instance (k : SymbolCode × Name) (c : Ctx) (s : State) : (a : Action) → Decidable (InRound k c s a)
  | .liquify .. => inferInstanceAs (Decidable (_ → _ → ∀ _ ∈ _, ∀ _ ∈ _, ∀ _ ∈ _, _ ∧ _))
  | .openCdp .. | .close .. | .shut .. | .lock .. | .bail .. | .draw .. | .wipe .. | .settle ..
  | .vote .. | .propose .. | .referended .. | .upfeed .. | .withdraw .. | .deposit .. =>
    isTrue trivial

/-- The CDP as a bid finds it on offer when no round on it is on: with the
penalty, or converted to what the last round left. -/
inductive Opening (c : Ctx) (s : State) (st : Stat) (k : SymbolCode × Name) (row : Cdp) : Cdp → Prop
  | first (none : s.bids.lookup k = none) :
      Opening c s st k row { row with
        live := false
        stablecoin := ⟨penalised st row.stablecoin.amount, row.stablecoin.symbol⟩ }
  | roll {next : Cdp} (bt : Bid) (standing : s.bids.lookup k = some bt)
      (expired : roundOpen c st bt = false) (offers : nextRound s row = some next) :
      Opening c s st k row next

/-- A round on `offered` is on: what is left to pay and the bid that stands
make up its debt, and its collateral is on offer. -/
structure OnOffer (k : SymbolCode × Name) (offered : Cdp) (s : State) (row : Cdp) (bt : Bid) :
    Prop where
  found : s.cdps.lookup k = some row
  standing : s.bids.lookup k = some bt
  debt : row.stablecoin.amount + bt.bidamt.amount = offered.stablecoin.amount
  owed : row.stablecoin.symbol = offered.stablecoin.symbol
  bid : bt.bidamt.symbol = offered.stablecoin.symbol
  collateral : row.collateral = offered.collateral

/-- What the bid has taken from an account. -/
def Bid.pledge (bt : Bid) (k : SymbolCode × Name) : Int :=
  if k = (bt.bidamt.symbol.code, bt.bidder) then bt.bidamt.amount else 0

/-- What the bid that stands on the CDP at `k` has taken from an account. -/
def pledgedOn (k : SymbolCode × Name) (s : State) (account : SymbolCode × Name) : Int :=
  (s.bids.lookup k).elim 0 fun bt => bt.pledge account

/-- The totals that the contract keeps, of a feed and of a type. -/
inductive Total
  | feed (T : SymbolCode)
  | stablecoin (T : SymbolCode)
  | collateral (T : SymbolCode)
  | fees (T : SymbolCode)
  deriving DecidableEq

def Total.amount (own : Name) (s : State) : Total → Int
  | .feed T => tracked T s.feeds
  | .stablecoin T => (s.stats.lookup (own, T)).elim 0 fun st => st.totalStablecoin.amount
  | .collateral T => (s.stats.lookup (own, T)).elim 0 fun st => st.totalCollateral.quantity.amount
  | .fees T => (s.stats.lookup (own, T)).elim 0 fun st => st.feeBalance.amount

/-- Every row stands, under its label. -/
def Relabels (a b : Accounts) : Prop :=
  ∀ k balance, a.lookup k = some balance →
    ∃ balance', b.lookup k = some balance' ∧ balance'.label = balance.label

theorem Relabels.trans {a b d : Accounts} (h : Relabels a b) (g : Relabels b d) : Relabels a d := by
  intro k balance found
  obtain ⟨_, found', same⟩ := h k balance found
  obtain ⟨balance', last, same'⟩ := g k _ found'
  exact ⟨balance', last, same'.trans same⟩

theorem Relabels.of_moved {a b : Accounts} {moves : List Move} (h : Moved a moves b) :
    Relabels a b :=
  fun _ _ found => h.keeps found

variable {c : Ctx} {s s' : State} {bidder owner : Name} {symbl : SymbolCode} {bidamt : Asset}
  {st : Stat} {row offered : Cdp} {bt : Bid} {k account : SymbolCode × Name} {a : Action}

theorem totals_eq {own : Name} (stats : ∀ j, s'.stats.lookup j = s.stats.lookup j)
    (feeds : s'.feeds = s.feeds) : ∀ t : Total, t.amount own s' = t.amount own s := by
  intro t
  cases t <;> simp only [Total.amount, stats, feeds]

/-! ## One bid -/

/-- What a bid in a round writes. -/
theorem within_ok (hs : Sound s) (h : liquify c s bidder owner symbl bidamt = .ok s')
    (found : s.cdps.lookup (symbl, owner) = some row)
    (standing : s.bids.lookup (symbl, owner) = some bt)
    (within : InRound (symbl, owner) c s (.liquify bidder owner symbl bidamt)) :
    ∃ st debited code accounts, s.stats.lookup (c.self, symbl) = some st ∧
      bidamt.symbol = row.stablecoin.symbol ∧ bt.bidamt.symbol = bidamt.symbol ∧
      minRaise st bt.bidamt.amount ≤ u64 bidamt.amount ∧
      subBalance s.accounts bidder bidamt = .ok (debited, code) ∧
      Moved debited [credit bt.bidder bt.bidamt (refundContract c row)] accounts ∧
      s' = { s with
        accounts
        stats := s.stats.insert (c.self, symbl) st
        cdps := s.cdps.insert (symbl, owner) { row with stablecoin :=
          ⟨row.stablecoin.amount - (bidamt.amount - bt.bidamt.amount), row.stablecoin.symbol⟩ }
        bids := s.bids.insert (symbl, owner) { bt with bidder, bidamt, lastbid := c.now } } := by
  have accepted : (liquify c s bidder owner symbl bidamt).isOk = true := by rw [h]; rfl
  obtain ⟨st, row', it, lot, -, -, type, found', opened, bidding, done⟩ := liquify_ok h
  cases found.symm.trans found'
  cases standing_unopened hs standing found opened
  obtain ⟨running, left⟩ := within rfl accepted st type row found bt standing
  cases bidding with
  | first none => cases none.symm.trans standing
  | next bt' standing' _ taken =>
    cases standing.symm.trans standing'
    obtain ⟨debited, code, accounts, symbol, same, raised, paid, refunded, rfl⟩ := outbid_ok taken
    obtain ⟨-, rfl⟩ | ⟨_, _, paidOff, -⟩ := finish_ok done
    · exact ⟨st, debited, code, accounts, type, symbol, same, raised, paid, refunded, rfl⟩
    · simp only at paidOff
      omega
  | roll bt' spent standing' expired =>
    cases standing.symm.trans standing'
    rw [running] at expired
    cases expired

/-- A bid in a round leaves the round on, the balances but for the pledges, the
totals and the labels of the rows. -/
theorem within_conserves (hs : Sound s) (h : liquify c s bidder owner symbl bidamt = .ok s')
    (on : OnOffer (symbl, owner) offered s row bt)
    (within : InRound (symbl, owner) c s (.liquify bidder owner symbl bidamt)) :
    (∃ row' bt', OnOffer (symbl, owner) offered s' row' bt') ∧
      (∀ account,
        Ledger.held Account.amount s'.accounts account + pledgedOn (symbl, owner) s' account =
          Ledger.held Account.amount s.accounts account + pledgedOn (symbl, owner) s account) ∧
      (∀ t : Total, t.amount c.self s' = t.amount c.self s) ∧ Relabels s.accounts s'.accounts := by
  obtain ⟨st, debited, code, accounts, type, symbol, same, -, paid, refunded, rfl⟩ :=
    within_ok hs h on.found on.standing within
  refine ⟨⟨_, _, AList.lookup_insert _, AList.lookup_insert _, ?_, on.owed, symbol.trans on.owed,
    on.collateral⟩, fun account => ?_, totals_eq (Table.lookup_rewritten type) rfl, ?_⟩
  · have := on.debt
    simp only
    omega
  · have debit := held_debit (k := account) paid
    have credit := held_credit (k := account) refunded
    simp only [pledgedOn, AList.lookup_insert, on.standing, Option.elim_some, Bid.pledge]
    omega
  · exact (Relabels.of_moved (subBalance_ok paid).1).trans (.of_moved refunded)

/-- What a bid that opens a round leaves: the standing bid is all that balances lack. -/
structure Opened (own : Name) (k : SymbolCode × Name) (offered : Cdp) (s s' : State) : Prop where
  onOffer : ∃ row bt, OnOffer k offered s' row bt
  balances : ∀ account, Ledger.held Account.amount s'.accounts account + pledgedOn k s' account =
    Ledger.held Account.amount s.accounts account
  totals : s.bids.lookup k = none → ∀ t : Total, t.amount own s' = t.amount own s
  labels : Relabels s.accounts s'.accounts

theorem first_opened (ha : Auctioned s) (h : liquify c s bidder owner symbl bidamt = .ok s')
    (type : s.stats.lookup (c.self, symbl) = some st)
    (found : s.cdps.lookup (symbl, owner) = some row) (none : s.bids.lookup (symbl, owner) = none)
    (left : penalised st row.stablecoin.amount ≠ bidamt.amount) :
    Opened c.self (symbl, owner) { row with
      live := false
      stablecoin := ⟨penalised st row.stablecoin.amount, row.stablecoin.symbol⟩ } s s' := by
  obtain ⟨st', row', it, lot, -, -, type', found', opened, bidding, done⟩ := liquify_ok h
  cases type.symm.trans type'
  cases found.symm.trans found'
  have put : it = { row with
      live := false
      stablecoin := ⟨penalised st row.stablecoin.amount, row.stablecoin.symbol⟩ } := by
    obtain ⟨dead, -⟩ | ⟨_, _, -, -, -, -, -, put⟩ := openAuction_ok opened
    · obtain ⟨bt, standing, -⟩ := ha _ _ found dead
      cases none.symm.trans standing
    · exact put
  subst put
  cases bidding with
  | first _ taken _ =>
    obtain ⟨accounts, code, symbol, paid, rfl⟩ := firstBid_ok taken
    obtain ⟨-, rfl⟩ | ⟨_, _, paidOff, -⟩ := finish_ok done
    · refine ⟨⟨_, _, AList.lookup_insert _, AList.lookup_insert _, ?_, rfl, symbol, rfl⟩,
        fun account => ?_, fun _ => totals_eq (Table.lookup_rewritten type) rfl,
        .of_moved (subBalance_ok paid).1⟩
      · simp only
        omega
      · have debit := held_debit (k := account) paid
        simp only [pledgedOn, AList.lookup_insert, Option.elim_some, Bid.pledge]
        omega
    · simp only at paidOff
      omega
  | next bt standing => cases none.symm.trans standing
  | roll bt spent standing => cases none.symm.trans standing

theorem rolled_opened {next : Cdp} (hs : Sound s)
    (h : liquify c s bidder owner symbl bidamt = .ok s')
    (type : s.stats.lookup (c.self, symbl) = some st)
    (found : s.cdps.lookup (symbl, owner) = some row)
    (standing : s.bids.lookup (symbl, owner) = some bt) (expired : roundOpen c st bt = false)
    (offers : nextRound s row = some next) (left : next.stablecoin.amount ≠ bidamt.amount) :
    Opened c.self (symbl, owner) next s s' := by
  obtain ⟨st', row', it, lot, -, -, type', found', opened, bidding, done⟩ := liquify_ok h
  cases type.symm.trans type'
  cases found.symm.trans found'
  cases standing_unopened hs standing found opened
  cases bidding with
  | first none => cases none.symm.trans standing
  | next bt' standing' running =>
    cases standing.symm.trans standing'
    rw [expired] at running
    cases running
  | roll bt' spent standing' _ awarded taken =>
    cases standing.symm.trans standing'
    obtain ⟨fv, next', accounts, code, fs, -, iq, converted, symbol, paid, feed, rfl⟩ :=
      roll_ok hs standing found opened awarded taken
    cases (nextRound_eq iq converted).symm.trans offers
    have award : Relabels s.accounts spent.accounts := by
      obtain ⟨-, rfl⟩ | ⟨_, _, -, -, moved, rfl⟩ := awardCollateral_ok awarded
      · exact fun _ balance found => ⟨balance, found, rfl⟩
      · exact .of_moved moved
    obtain ⟨-, rfl⟩ | ⟨_, _, paidOff, -⟩ := finish_ok done
    · refine ⟨⟨_, _, AList.lookup_insert _, AList.lookup_insert _, ?_, rfl, symbol, rfl⟩,
        fun account => ?_, fun none => ?_, award.trans (.of_moved (subBalance_ok paid).1)⟩
      · simp only
        omega
      · have debit := held_debit (k := account) paid
        have same := award_held (k := account) awarded
        simp only [pledgedOn, AList.lookup_insert, Option.elim_some, Bid.pledge]
        omega
      · cases none.symm.trans standing
    · simp only at paidOff left
      omega

theorem opening_opened (hs : Sound s) (ha : Auctioned s)
    (h : liquify c s bidder owner symbl bidamt = .ok s')
    (type : s.stats.lookup (c.self, symbl) = some st)
    (found : s.cdps.lookup (symbl, owner) = some row)
    (opens : Opening c s st (symbl, owner) row offered)
    (left : offered.stablecoin.amount ≠ bidamt.amount) :
    Opened c.self (symbl, owner) offered s s' := by
  cases opens with
  | first none => exact first_opened ha h type found none left
  | roll bt standing expired offers =>
    exact rolled_opened hs h type found standing expired offers left

/-! ## Other calls -/

/-- A call that is no bid on a CDP in liquidation leaves it and the bid that stands on it. -/
theorem auction_kept (hs : Sound s) (h : apply c s a = .ok s')
    (found : s.cdps.lookup k = some row) (standing : s.bids.lookup k = some bt)
    (other : a.bidsOn k = false) : s'.cdps.lookup k = some row ∧ s'.bids.lookup k = some bt := by
  have cdp : s'.cdps.lookup k = some row := by
    obtain kept | ⟨bidder, bidamt, rfl⟩ := dead_kept h found (standing_dead hs standing found)
    · exact kept
    · simp [Action.bidsOn] at other
  refine ⟨cdp, ?_⟩
  by_cases auction : a.auctions = false
  · rw [(apply_frame h).1 auction]
    exact standing
  · cases a with
    | liquify bidder owner symbl bidamt =>
      obtain ⟨_, _, _, _, -, -, -, -, -, -, done⟩ := liquify_ok h
      obtain ⟨-, -, bid⟩ | ⟨rfl, -⟩ := finish_lookup done k
      · exact bid.trans standing
      · simp [Action.bidsOn] at other
    | _ => exact absurd rfl auction

/-! ## Every run -/

section Runs

variable {self : Name} {w : World} {e : Event} {es : List Event}

theorem call_bidsOn (called : w.call self e = some (c, s, a)) : a.bidsOn k = e.bidsOn k := by
  cases e with
  | act auth action =>
    cases called
    rfl
  | fire id =>
    simp only [World.call] at called
    split at called
    · split at called
      · cases called
        rfl
      · cases called
    · cases called
  | elapse seconds => cases called

/-- A round is on in a sound state. -/
def OnSale (k : SymbolCode × Name) (offered : Cdp) (s : State) : Prop :=
  Sound s ∧ ∃ row bt, OnOffer k offered s row bt

theorem OnSale.queueless (k : SymbolCode × Name) (offered : Cdp) : Queueless (OnSale k offered) :=
  fun s d h => ⟨Sound.queueless s d h.1, h.2.imp fun _ h => h.imp fun _ on =>
    ⟨on.found, on.standing, on.debt, on.owed, on.bid, on.collateral⟩⟩

theorem OnSale.bid (on : OnSale k offered s) (h : apply c s a = .ok s') (bids : a.bidsOn k = true)
    (within : InRound k c s a) : OnSale k offered s' ∧
      (∀ account, Ledger.held Account.amount s'.accounts account + pledgedOn k s' account =
        Ledger.held Account.amount s.accounts account + pledgedOn k s account) ∧
      (∀ t : Total, t.amount c.self s' = t.amount c.self s) ∧ Relabels s.accounts s'.accounts := by
  obtain ⟨sound, row, bt, on⟩ := on
  cases a with
  | liquify bidder owner symbl bidamt =>
    simp only [Action.bidsOn, decide_eq_true_eq] at bids
    subst bids
    obtain ⟨round, kept⟩ := within_conserves sound h on within
    exact ⟨⟨sound.apply h, round⟩, kept⟩
  | _ => cases bids

theorem OnSale.other (on : OnSale k offered s) (h : apply c s a = .ok s')
    (other : a.bidsOn k = false) : OnSale k offered s' ∧
      ∀ account, pledgedOn k s' account = pledgedOn k s account := by
  obtain ⟨sound, row, bt, on⟩ := on
  obtain ⟨cdp, bid⟩ := auction_kept sound h on.found on.standing other
  refine ⟨⟨sound.apply h, row, bt, cdp, bid, on.debt, on.owed, on.bid, on.collateral⟩,
    fun account => ?_⟩
  rw [pledgedOn, pledgedOn, bid, on.standing]

theorem OnSale.apply (on : OnSale k offered s) (within : InRound k c s a)
    (h : Maker.apply c s a = .ok s') : OnSale k offered s' := by
  cases bids : a.bidsOn k with
  | true => exact (on.bid h bids within).1
  | false => exact (on.other h bids).1

/-- What the bids of a round keep, a run in the round moves by what its other calls move. -/
theorem round_run (on : OnSale k offered w.state)
    (h : Along (step self) (Meets self (InRound k)) w es)
    {f d : State → Int}
    (still : ∀ s q, f { s with deferred := q } = f s ∧ d { s with deferred := q } = d s)
    (bids : ∀ c s a s', c.self = self → OnSale k offered s → InRound k c s a →
      Maker.apply c s a = .ok s' → a.bidsOn k = true → f s' + d s' = f s + d s)
    (others : ∀ c s a s', OnSale k offered s → Maker.apply c s a = .ok s' → a.bidsOn k = false →
      d s' = d s) :
    f (run (step self) w es).state + d (run (step self) w es).state = f w.state + d w.state +
      tally (step self) (apart (step self) (Event.bidsOn k) fun w => f w.state) w es := by
  have queue := OnSale.queueless k offered
  have kept (c s a s') (_ : c.self = self) (on : OnSale k offered s) (within : InRound k c s a)
      (h : Maker.apply c s a = .ok s') : OnSale k offered s' := on.apply within h
  refine run_apart (f := fun w => f w.state) (d := fun w => d w.state)
    (I := fun w => OnSale k offered w.state) (kept_step queue kept) (fun w e on within one => ?_)
    (fun w e on within one => ?_) on h
  · obtain ⟨q, same, -⟩ | ⟨c, q, a, called, own, applied, -⟩ := step_cases self w e
    · rw [same, (still w.state q).1, (still w.state q).2]
    · have bid := bids c _ a _ own (queue w.state q on) (within _ called) applied
        ((call_bidsOn called).trans one)
      rw [bid, (still w.state q).1, (still w.state q).2]
  · obtain ⟨q, same, -⟩ | ⟨c, q, a, called, -, applied, -⟩ := step_cases self w e
    · rw [same, (still w.state q).2]
    · rw [others c _ a _ (queue w.state q on) applied ((call_bidsOn called).trans one),
        (still w.state q).2]

theorem round_balance (on : OnSale k offered w.state)
    (h : Along (step self) (Meets self (InRound k)) w es) (account : SymbolCode × Name) :
    Ledger.held Account.amount (run (step self) w es).state.accounts account +
        pledgedOn k (run (step self) w es).state account =
      Ledger.held Account.amount w.state.accounts account + pledgedOn k w.state account +
        tally (step self) (apart (step self) (Event.bidsOn k)
          fun w => Ledger.held Account.amount w.state.accounts account) w es :=
  round_run (f := fun s => Ledger.held Account.amount s.accounts account)
    (d := fun s => pledgedOn k s account) on h (fun _ _ => ⟨rfl, rfl⟩)
    (fun _ _ _ _ _ on within h one => (on.bid h one within).2.1 account)
    (fun _ _ _ _ on h one => (on.other h one).2 account)

theorem round_total (on : OnSale k offered w.state)
    (h : Along (step self) (Meets self (InRound k)) w es) (t : Total) :
    t.amount self (run (step self) w es).state = t.amount self w.state +
      tally (step self) (apart (step self) (Event.bidsOn k) fun w =>
        t.amount self w.state) w es := by
  have kept := round_run (f := t.amount self) (d := fun _ => 0) on h
    (fun s q => ⟨by cases t <;> rfl, rfl⟩)
    (fun c _ _ _ own on within h one => by
      rw [← own, (on.bid h one within).2.2.1 t])
    (fun _ _ _ _ _ _ _ => rfl)
  omega

/-- While nobody does anything but bid, every row stands under its label. -/
theorem round_relabels (on : OnSale k offered w.state)
    (h : Along (step self) (Meets self (InRound k)) w es)
    (alone : ∀ e ∈ es, e.bidsOn k = true ∨ e.waits = true) :
    Relabels w.state.accounts (run (step self) w es).state.accounts := by
  have queue := OnSale.queueless k offered
  have start : OnSale k offered w.state ∧ Relabels w.state.accounts w.state.accounts :=
    ⟨on, fun _ balance found => ⟨balance, found, rfl⟩⟩
  refine (run_invariant
    (I := fun v => OnSale k offered v.state ∧ Relabels w.state.accounts v.state.accounts)
    (fun v e kept both => ?_) start (along_and h (along_of_forall alone w))).2
  refine ⟨kept_step queue (fun c s a s' _ on within h => on.apply within h) v e kept.1 both.1, ?_⟩
  obtain ⟨q, same, -⟩ | ⟨c, q, a, called, -, applied, -⟩ := step_cases self v e
  · rw [same]
    exact kept.2
  · rcases both.2 with bids | waits
    · exact kept.2.trans ((queue v.state q kept.1).bid applied ((call_bidsOn called).trans bids)
        (both.1 _ called)).2.2.2
    · cases e with
      | elapse seconds => cases called
      | _ => cases waits

theorem alone_still (f : State → Int)
    (alone : ∀ e ∈ es, e.bidsOn k = true ∨ e.waits = true) (w : World) :
    tally (step self) (apart (step self) (Event.bidsOn k) fun w => f w.state) w es = 0 := by
  refine tally_eq_zero (along_mono (fun w e quiet => ?_) (along_of_forall alone w))
  unfold apart
  rcases quiet with bids | waits
  · rw [if_pos bids]
  · split
    · rfl
    · cases e with
      | elapse seconds => exact sub_self _
      | _ => cases waits

end Runs

/-- Over a round, from the bid that opens it and through any bids that follow, with any other calls
among them: what is left to pay and the standing bid make up the debt that the round was opened on,
on the same collateral; every balance is what it was before the round, but for the standing bid and
for what other calls move, and so is every total. -/
theorem round_conserves (self : Name) (clock : Nat) (before : List Event) (e : Event)
    (es : List Event)
    (ok : Succeeds self (after self clock before) e c s (.liquify bidder owner symbl bidamt))
    (type : s.stats.lookup (self, symbl) = some st)
    (found : s.cdps.lookup (symbl, owner) = some row)
    (opens : Opening c s st (symbl, owner) row offered)
    (left : offered.stablecoin.amount ≠ bidamt.amount)
    (within : Along (step self) (Meets self (InRound (symbl, owner)))
      (step self (after self clock before) e) es) :
    let w := step self (after self clock before) e
    let w' := run (step self) w es
    let others := apart (step self) (Event.bidsOn (symbl, owner))
    ∃ row' bt, OnOffer (symbl, owner) offered w'.state row' bt ∧
      (∀ account, Ledger.held Account.amount w'.state.accounts account =
        Ledger.held Account.amount s.accounts account +
          tally (step self) (others fun w =>
            Ledger.held Account.amount w.state.accounts account) w es -
          bt.pledge account) ∧
      (∀ t : Total, t.amount self w'.state = t.amount self w.state +
        tally (step self) (others fun w => t.amount self w.state) w es) ∧
      (s.bids.lookup (symbl, owner) = none → ∀ t : Total, t.amount self w.state = t.amount self s) ∧
      ((∀ e ∈ es, e.bidsOn (symbl, owner) = true ∨ e.waits = true) →
        (∀ t : Total, t.amount self w'.state = t.amount self w.state) ∧
        ∀ account balance, s.accounts.lookup account = some balance →
          ∃ balance', w'.state.accounts.lookup account = some balance' ∧
            balance'.label = balance.label ∧
              balance'.amount = balance.amount - bt.pledge account) := by
  intro w w' others
  obtain ⟨sound, auctioned⟩ := auctioned_after self clock before
  obtain ⟨rfl, sound, auctioned⟩ :=
    call_meets (Sound.queueless.and Auctioned.queueless) ⟨sound, auctioned⟩ ok.called
  obtain ⟨round, paid, counted, labels⟩ :=
    opening_opened sound auctioned ok.done type found opens left
  have on : OnSale (symbl, owner) offered w.state := ⟨sound.apply ok.done, round⟩
  have onSale : OnSale (symbl, owner) offered w'.state :=
    invariant (OnSale.queueless _ _) (fun _ _ _ _ _ on within h => on.apply within h) on within
  obtain ⟨-, row', bt, last⟩ := onSale
  have pledge (account : SymbolCode × Name) :
      pledgedOn (symbl, owner) w'.state account = bt.pledge account := by
    rw [pledgedOn, last.standing, Option.elim_some]
  have balances (account : SymbolCode × Name) := round_balance on within account
  refine ⟨row', bt, last, fun account => ?_, round_total on within, counted, fun alone => ⟨?_, ?_⟩⟩
  · have moved := balances account
    rw [pledge, paid account] at moved
    simp only [others, w']
    omega
  · intro t
    rw [round_total on within t, alone_still (fun s => t.amount c.self s) alone, add_zero]
  · intro account balance stood
    obtain ⟨balance', stands, same⟩ :=
      (labels.trans (round_relabels on within alone)) account balance stood
    have moved := balances account
    rw [pledge, paid account, Ledger.held_some stood, Ledger.held_some stands,
      alone_still (fun s => Ledger.held Account.amount s.accounts account) alone] at moved
    exact ⟨balance', stands, same, by omega⟩

section

open Sample

/-- `sick` and `nick` outbid each other and themselves while `rick` deposits IQ. -/
def outbidding : List Event :=
  [ bidOnNick sick 6000,
    .elapse 2,
    bidOnNick nick 8000,
    .act [rick] (.deposit IQ_NAME rick daiqcontract ⟨1000, IQ_SYMBOL⟩ []),
    bidOnNick nick 9600,
    .elapse 2,
    bidOnNick sick 12000 ]

/-- `nick` has his bids back when that of `sick` stands. -/
theorem round_conserves_nick :
    let w := step daiqcontract (after daiqcontract 1000 (atRisk 15000)) (bidOnNick nick 5000)
    let w' := run (step daiqcontract) w outbidding
    ∃ row bt, OnOffer (FUD, nick) ⟨1005, ⟨1000000, EOS⟩, ⟨15000, USD⟩, false⟩ w'.state row bt ∧
      Ledger.held Account.amount w'.state.accounts (USD.code, nick) =
        10000 - bt.pledge (USD.code, nick) := by
  intro w w'
  have type : (after daiqcontract 1000 (atRisk 15000)).state.stats.lookup (daiqcontract, FUD) =
      some (fudType 25000 3000000) := by decide +kernel
  have found : (after daiqcontract 1000 (atRisk 15000)).state.cdps.lookup (FUD, nick) =
      some nickRisk := by decide +kernel
  obtain ⟨row, bt, on, balances, -⟩ := round_conserves daiqcontract 1000 (atRisk 15000)
    (bidOnNick nick 5000) outbidding (.of_isOk rfl (by decide +kernel)) type found
    (.first (by decide +kernel)) (by decide +kernel) (by decide +kernel)
  have penalty : penalised (fudType 25000 3000000) nickRisk.stablecoin.amount = 15000 := by
    decide +kernel
  rw [penalty] at on
  refine ⟨row, bt, on, ?_⟩
  have quiet : tally (step daiqcontract) (apart (step daiqcontract) (Event.bidsOn (FUD, nick))
      fun w => Ledger.held Account.amount w.state.accounts (USD.code, nick)) w outbidding = 0 := by
    decide +kernel
  have own : Ledger.held Account.amount (after daiqcontract 1000 (atRisk 15000)).state.accounts
      (USD.code, nick) = 10000 := by decide +kernel
  have restored := balances (USD.code, nick)
  rw [quiet, add_zero, own] at restored
  unfold w' w
  exact restored

end

end DecentralBank.Maker
