import DecentralBank.Maker.Bids
import DecentralBank.Maker.Circulation

/-!
# What the winner of a round gets

A round ends when it has run out, or with the bid that leaves nothing to pay;
one call can end two. A bid that leaves nothing is handed the collateral on
offer. Of a round that has run out the collateral is taken out of the CDP
before it is read for the credit and for the totals.
-/

namespace DecentralBank.Maker

open Runs

/-! ## Rounds that end -/

structure Round where
  winner : Name
  collateral : Asset
  deriving DecidableEq

/-- What the round hands to an account. -/
def Round.due (r : Round) (k : SymbolCode × Name) : Int :=
  if k = (r.collateral.symbol.code, r.winner) then r.collateral.amount else 0

/-- The round that ends with a bid after which `left` is to be paid. -/
def closing (bidder : Name) (left : Int) (collateral : Asset) : List Round :=
  if left = 0 then [⟨bidder, collateral⟩] else []

/-- The CDP as the next round offers it. -/
def nextRound (s : State) (row : Cdp) : Option Cdp :=
  (s.feeds.lookup IQ_SYMBOL.code).bind fun fv => (convertRemainder row fv.price).toOption

/-- The round that has run out, won by the bid that stands. -/
def expiredRounds (c : Ctx) (st : Stat) (row : Cdp) (bt : Bid) : List Round :=
  if roundOpen c st bt then [] else [⟨bt.bidder, row.collateral⟩]

/-- The round that the bid itself ends: the one it is made in, or the next one that it opens. -/
def closedRounds (c : Ctx) (s : State) (st : Stat) (row : Cdp) (bt : Bid) (bidder : Name)
    (bidamt : Asset) : List Round :=
  if roundOpen c st bt then
    closing bidder (row.stablecoin.amount - (bidamt.amount - bt.bidamt.amount)) row.collateral
  else (nextRound s row).elim [] fun next =>
    closing bidder (next.stablecoin.amount - bidamt.amount) next.collateral

/-- The rounds that end with a call on a CDP in liquidation. -/
def endedRounds (c : Ctx) (s : State) (st : Stat) (row : Cdp) (bt : Bid) (bidder : Name)
    (bidamt : Asset) : List Round :=
  expiredRounds c st row bt ++ closedRounds c s st row bt bidder bidamt

/-! ## What is handed out -/

/-- What the bid itself moves: its payment, and the refund of the one that it displaces. -/
def bidMoves (c : Ctx) (st : Stat) (bt : Bid) (bidder : Name) (bidamt : Asset)
    (k : SymbolCode × Name) : Int :=
  (if roundOpen c st bt ∧ k = (bt.bidamt.symbol.code, bt.bidder) then bt.bidamt.amount else 0) -
    if k = (bidamt.symbol.code, bidder) then bidamt.amount else 0

/-- What a bid that opens a next round takes out of circulation. -/
def retired (c : Ctx) (st : Stat) (bt : Bid) (bidamt : Asset) (T : SymbolCode) : Int :=
  if roundOpen c st bt then 0 else under T bidamt

/-- Each of the rounds hands its collateral to its winner, under the contract it
comes from, and counts it in circulation; the CDP is left with what the next
round offers, if there is one. -/
structure Delivered (c : Ctx) (s s' : State) (owner : Name) (symbl : SymbolCode) (st : Stat)
    (row : Cdp) (bt : Bid) (bidder : Name) (bidamt : Asset) (rounds : List Round) : Prop where
  credited : ∀ k, Ledger.held Account.amount s'.accounts k =
    Ledger.held Account.amount s.accounts k +
    bidMoves c st bt bidder bidamt k + (rounds.map fun r => r.due k).sum
  tagged : ∀ r ∈ rounds, r.collateral.amount ≠ 0 → ∃ balance,
    s'.accounts.lookup (r.collateral.symbol.code, r.winner) = some balance ∧
      balance.label = (r.collateral.symbol, collateralContract c st r.collateral)
  counted : ∀ T, tracked T s'.feeds = tracked T s.feeds - retired c st bt bidamt T +
    (rounds.map fun r => under T r.collateral).sum
  gone : ∀ it ∈ s'.cdps.lookup (symbl, owner), ∃ next ∈ nextRound s row,
    it.collateral = next.collateral

variable {c : Ctx} {s s' : State} {bidder owner : Name} {symbl : SymbolCode} {bidamt : Asset}
  {st : Stat} {row it : Cdp} {bt : Bid} {lot : Lot} {k : SymbolCode × Name} {T : SymbolCode}

section Accounts

variable {a b : Accounts} {code : Name} {value : Asset}

theorem held_debit (h : subBalance a owner value = .ok (b, code)) :
    Ledger.held Account.amount b k = Ledger.held Account.amount a k -
      if k = (value.symbol.code, owner) then value.amount else 0 := by
  rw [(subBalance_ok h).1.held_eq k]
  simp only [debit, List.map_cons, List.map_nil, List.sum_cons, List.sum_nil]
  split <;> omega

theorem held_credit (h : Moved a [credit owner value code] b) :
    Ledger.held Account.amount b k = Ledger.held Account.amount a k +
      if k = (value.symbol.code, owner) then value.amount else 0 := by
  rw [h.held_eq k]
  simp only [credit, List.map_cons, List.map_nil, List.sum_cons, List.sum_nil, add_zero]

theorem label_credit (h : Moved a [credit owner value code] b) :
    ∃ balance, b.lookup (value.symbol.code, owner) = some balance ∧
      balance.label = (value.symbol, code) := by
  obtain ⟨balance, rfl, label, -, -⟩ := h.of_single
  exact ⟨balance, AList.lookup_insert _, label⟩

end Accounts

/-! ## What the code does -/

/-- The bid that leaves nothing to pay is handed what is on offer. -/
theorem finish_held (h : finish c s owner symbl lot = .ok s') (k : SymbolCode × Name) :
    Ledger.held Account.amount s'.accounts k = Ledger.held Account.amount lot.accounts k +
      ((closing lot.bt.bidder lot.it.stablecoin.amount lot.it.collateral).map
        fun r => r.due k).sum := by
  obtain ⟨left, rfl⟩ | ⟨_, _, paid, settled, rfl⟩ := finish_ok h
  · simp [closing, left]
  · obtain ⟨zero, rfl, -⟩ | ⟨_, -, moved, -, -⟩ := settleLot_ok settled
    · simp [closing, paid, Round.due, zero]
    · simp [closing, paid, Round.due, held_credit moved]

theorem finish_tracked (h : finish c s owner symbl lot = .ok s') (T : SymbolCode) :
    tracked T s'.feeds = tracked T lot.feeds +
      ((closing lot.bt.bidder lot.it.stablecoin.amount lot.it.collateral).map
        fun r => under T r.collateral).sum := by
  obtain ⟨left, rfl⟩ | ⟨_, _, paid, settled, rfl⟩ := finish_ok h
  · simp [closing, left]
  · obtain ⟨zero, -, rfl⟩ | ⟨_, -, -, feed, rfl⟩ := settleLot_ok settled
    · simp [closing, paid, under, zero]
    · simp [closing, paid, tracked_more feed]

theorem finish_tagged (h : finish c s owner symbl lot = .ok s') {r : Round}
    (ended : r ∈ closing lot.bt.bidder lot.it.stablecoin.amount lot.it.collateral)
    (some : r.collateral.amount ≠ 0) : ∃ balance,
      s'.accounts.lookup (r.collateral.symbol.code, r.winner) = .some balance ∧
        balance.label = (r.collateral.symbol, collateralContract c lot.stat r.collateral) := by
  unfold closing at ended
  split at ended
  · rename_i paid
    cases List.mem_singleton.mp ended
    obtain ⟨left, -⟩ | ⟨_, _, -, settled, rfl⟩ := finish_ok h
    · exact absurd paid left
    · obtain ⟨zero, -⟩ | ⟨_, -, moved, -, -⟩ := settleLot_ok settled
      · exact absurd zero some
      · exact label_credit moved
  · cases ended

theorem nextRound_eq {fv : Feed} {next : Cdp} (iq : s.feeds.lookup IQ_SYMBOL.code = some fv)
    (converted : convertRemainder row fv.price = .ok next) : nextRound s row = some next := by
  simp [nextRound, iq, converted, Except.toOption]

theorem award_held {spent : Lot} (h : awardCollateral c s st row bt = .ok spent) :
    Ledger.held Account.amount spent.accounts k = Ledger.held Account.amount s.accounts k := by
  obtain ⟨-, rfl⟩ | ⟨_, _, -, -, moved, rfl⟩ := awardCollateral_ok h
  · rfl
  · rw [held_credit moved]
    split
    · exact add_zero _
    · exact add_zero _

/-- A call hands out what is on offer in the round that its bid ends, and nothing of one that
has run out. -/
theorem closed_delivered (hs : Sound s) (h : liquify c s bidder owner symbl bidamt = .ok s')
    (type : s.stats.lookup (c.self, symbl) = some st)
    (found : s.cdps.lookup (symbl, owner) = some row)
    (standing : s.bids.lookup (symbl, owner) = some bt)
    (ends : endedRounds c s st row bt bidder bidamt ≠ []) :
    Delivered c s s' owner symbl st row bt bidder bidamt
      (closedRounds c s st row bt bidder bidamt) := by
  obtain ⟨st', row', it, lot, -, -, type', found', opened, bidding, done⟩ := liquify_ok h
  cases type.symm.trans type'
  cases found.symm.trans found'
  cases standing_unopened hs standing found opened
  have stat := bidding.stat_eq
  cases bidding with
  | first none => cases none.symm.trans standing
  | next bt' standing' running taken =>
    cases standing.symm.trans standing'
    obtain ⟨_, _, _, -, -, -, paid, refunded, rfl⟩ := outbid_ok taken
    have rounds : closedRounds c s st row bt bidder bidamt = closing bidder
        (row.stablecoin.amount - (bidamt.amount - bt.bidamt.amount)) row.collateral := by
      rw [closedRounds, if_pos running]
    refine ⟨fun k => ?_, fun r ended some => ?_, fun T => ?_, fun it stays => ?_⟩
    · rw [finish_held done, held_credit refunded, held_debit paid, rounds]
      simp only [bidMoves, running, true_and]
      omega
    · exact finish_tagged done (rounds ▸ ended) some
    · rw [finish_tracked done, rounds, retired, if_pos running, sub_zero]
    · obtain ⟨left, -⟩ | ⟨_, _, -, -, rfl⟩ := finish_ok done
      · rw [endedRounds, expiredRounds, if_pos running, rounds, closing, if_neg left] at ends
        exact absurd rfl ends
      · rw [Option.mem_def, AList.lookup_erase] at stays
        cases stays
  | roll bt' spent standing' expired awarded taken =>
    cases standing.symm.trans standing'
    obtain ⟨fv, next, _, _, fs, -, iq, converted, -, paid, feed, rfl⟩ :=
      roll_ok hs standing found opened awarded taken
    have offers := nextRound_eq iq converted
    have rounds : closedRounds c s st row bt bidder bidamt =
        closing bidder (next.stablecoin.amount - bidamt.amount) next.collateral := by
      simp [closedRounds, expired, offers]
    refine ⟨fun k => ?_, fun r ended some => ?_, fun T => ?_, fun it stays => ?_⟩
    · rw [finish_held done, held_debit paid, award_held awarded, rounds]
      simp only [bidMoves, expired, Bool.false_eq_true, false_and, if_false]
      omega
    · exact finish_tagged done (rounds ▸ ended) some
    · have same : tracked T spent.feeds = tracked T s.feeds := by
        rw [tracked, award_feeds awarded, tracked]
      rw [finish_tracked done, tracked_less ((award_feeds awarded _).trans feed), same, rounds]
      simp only [retired, expired, Bool.false_eq_true, if_false]
    · refine ⟨next, offers, ?_⟩
      obtain ⟨other, -⟩ | ⟨-, ⟨cdp, -⟩ | ⟨none, -⟩⟩ := finish_lookup done (symbl, owner)
      · exact absurd rfl other
      · cases cdp.symm.trans stays
        rfl
      · cases none.symm.trans stays

/-- A call that ends a round delivers the collateral to the winner of each round that it ends if
and only if none has run out with collateral on offer. -/
theorem delivered_iff (self : Name) (clock : Nat) (es : List Event) (e : Event)
    (ok : Succeeds self (after self clock es) e c s (.liquify bidder owner symbl bidamt))
    (type : s.stats.lookup (self, symbl) = some st)
    (found : s.cdps.lookup (symbl, owner) = some row)
    (standing : s.bids.lookup (symbl, owner) = some bt)
    (ends : endedRounds c s st row bt bidder bidamt ≠ []) :
    Delivered c s (step self (after self clock es) e).state owner symbl st row bt bidder bidamt
        (endedRounds c s st row bt bidder bidamt) ↔
      roundOpen c st bt = true ∨ row.collateral.amount = 0 := by
  obtain ⟨rfl, sound⟩ := call_meets Sound.queueless (sound_after _ clock es) ok.called
  have closed := closed_delivered sound ok.done type found standing ends
  constructor
  · intro all
    by_cases running : roundOpen c st bt = true
    · exact Or.inl running
    · -- the winner's balance moves by what is delivered and by nothing else
      have promised := all.credited (row.collateral.symbol.code, bt.bidder)
      have paid := closed.credited (row.collateral.symbol.code, bt.bidder)
      rw [paid, endedRounds, expiredRounds, if_neg running, List.map_append,
        List.sum_append] at promised
      simp only [Round.due, List.map_cons, List.map_nil, List.sum_cons, List.sum_nil,
        if_true] at promised
      right
      omega
  · intro delivers
    have nothing (f : Round → Int) (zero : ∀ r : Round, r.collateral.amount = 0 → f r = 0) :
        ((endedRounds c s st row bt bidder bidamt).map f).sum =
          ((closedRounds c s st row bt bidder bidamt).map f).sum := by
      rw [endedRounds, List.map_append, List.sum_append, expiredRounds]
      split
      · exact zero_add _
      · rename_i expired
        simp [zero ⟨bt.bidder, row.collateral⟩ (delivers.resolve_left expired)]
    refine ⟨fun k => ?_, fun r ended some => ?_, fun T => ?_, closed.gone⟩
    · rw [closed.credited k, nothing]
      intro r zero
      simp [Round.due, zero]
    · rcases List.mem_append.mp ended with early | late
      · unfold expiredRounds at early
        split at early
        · cases early
        · rename_i expired
          cases List.mem_singleton.mp early
          exact absurd (delivers.resolve_left expired) some
      · exact closed.tagged r late some
    · rw [closed.counted T, nothing]
      intro r zero
      simp [under, zero]

section

open Sample

/-- `nick` bids half of what he owes. -/
def underway : List Event := atRisk 15000 ++ [bidOnNick nick 5000]

def nickAuction : Cdp := ⟨1005, ⟨1000000, EOS⟩, ⟨10000, USD⟩, false⟩

def nickBid : Bid := ⟨nick, ⟨5000, USD⟩, 1010, 1010⟩

/-- `sick` pays all of it off. -/
theorem delivered_sick :
    let w := after daiqcontract 1000 underway
    Delivered (w.ctx daiqcontract [sick]) w.state (step daiqcontract w (bidOnNick sick 15000)).state
      nick FUD (fudType 25000 3000000) nickAuction nickBid sick ⟨15000, USD⟩
      (endedRounds (w.ctx daiqcontract [sick]) w.state (fudType 25000 3000000) nickAuction nickBid
        sick ⟨15000, USD⟩) := by
  intro w
  have running : roundOpen (w.ctx daiqcontract [sick]) (fudType 25000 3000000) nickBid = true := by
    decide +kernel
  exact (delivered_iff daiqcontract 1000 underway (bidOnNick sick 15000)
    (.of_isOk rfl (by decide +kernel)) (by decide +kernel) (by decide +kernel) (by decide +kernel)
    (by decide +kernel)).mpr (Or.inl running)

/-- The round of `nick` has run out when `sick` bids on the remainder, and `nick` gets no EOS. -/
theorem expired_undelivered :
    let w := after daiqcontract 1000 (underway ++ [.elapse 5])
    let c := w.ctx daiqcontract [sick]
    let rounds := endedRounds c w.state (fudType 25000 3000000) nickAuction nickBid sick ⟨4000, USD⟩
    Succeeds daiqcontract w (bidOnNick sick 4000) c w.state (.liquify sick nick FUD ⟨4000, USD⟩) ∧
      w.state.stats.lookup (daiqcontract, FUD) = some (fudType 25000 3000000) ∧
      w.state.cdps.lookup (FUD, nick) = some nickAuction ∧
      w.state.bids.lookup (FUD, nick) = some nickBid ∧ rounds = [⟨nick, ⟨1000000, EOS⟩⟩] ∧
      ¬ Delivered c w.state (step daiqcontract w (bidOnNick sick 4000)).state nick FUD
        (fudType 25000 3000000) nickAuction nickBid sick ⟨4000, USD⟩ rounds := by
  intro w c rounds
  refine ⟨.of_isOk rfl (by decide +kernel), by decide +kernel, by decide +kernel, by decide +kernel,
    by decide +kernel, fun all => ?_⟩
  have promised := all.credited (EOS.code, nick)
  revert promised
  decide +kernel

end

end DecentralBank.Maker
