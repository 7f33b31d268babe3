import DecentralBank.Maker.Auctions
import DecentralBank.Maker.Genuine

/-!
# Bids that are taken

A bid that the auction asks for is refused only where it would end an auction
that has no bid yet, or where a balance row or a feed is in another symbol or
from another contract than what the bid pays out.
-/

namespace DecentralBank.Maker

open Checked Runs

variable {c : Ctx} {s s' : State} {a : Action}

/-! ## The bids an auction asks for -/

/-- A failure of checked arithmetic. -/
def OutOfRange (e : String) : Prop :=
  e ∈ ["addition underflow", "addition overflow", "subtraction underflow", "subtraction overflow",
    "magnitude of asset amount must be less than 2^62"]

/-- The balance of `owner` covers `value`. -/
def Payable (accounts : Accounts) (owner : Name) (value : Asset) : Prop :=
  ∃ row, accounts.lookup (value.symbol.code, owner) = some row ∧
    row.balance.symbol = value.symbol ∧ value.amount ≤ row.balance.amount

/-- What the winner of an expired round is credited for the collateral: none of it. -/
def awarded (c : Ctx) (st : Stat) (winner : Name) (collateral : Asset) : List Move :=
  if collateral.amount = 0 then []
  else [credit winner ⟨0, collateral.symbol⟩ (collateralContract c st ⟨0, collateral.symbol⟩)]

/-- What a bid that leaves `left` to pay is credited: all the collateral once nothing is left. -/
def prize (c : Ctx) (st : Stat) (bidder : Name) (left : Int) (collateral : Asset) : List Move :=
  if left = 0 ∧ collateral.amount ≠ 0
  then [credit bidder collateral (collateralContract c st collateral)] else []

/-- What a bid on top of `bt` pays out beside the refund. -/
def outbidPrize (c : Ctx) (st : Stat) (row : Cdp) (bt : Bid) (bidder : Name) (bidamt : Asset) :
    List Move :=
  prize c st bidder (row.stablecoin.amount - (bidamt.amount - bt.bidamt.amount)) row.collateral

/-- What a bid that opens the next round, on the remainder converted to `next`, pays out itself. -/
def rollPrize (c : Ctx) (st : Stat) (next : Cdp) (bidder : Name) (bidamt : Asset) : List Move :=
  prize c st bidder (next.stablecoin.amount - bidamt.amount) next.collateral

/-- The bid is one that the CDP's auction asks for. -/
inductive Asked (c : Ctx) (s : State) (owner : Name) (symbl : SymbolCode) (bidamt : Asset)
    (st : Stat) (row : Cdp) : Prop
  | first (fc : Feed) (liq : Nat) (live : row.live = true) (owed : 0 < row.stablecoin.amount)
      (feed : s.feeds.lookup row.collateral.symbol.code = some fc)
      (fresh : c.freshSince ≤ fc.stamp ∨ st.live = false)
      (ratio : liquifyRatio fc row = .ok liq) (below : liq < st.liquid8Ratio)
      (symbol : bidamt.symbol = row.stablecoin.symbol)
  | next (bt : Bid) (dead : row.live = false) (standing : s.bids.lookup (symbl, owner) = some bt)
      (running : roundOpen c st bt = true) (symbol : bidamt.symbol = row.stablecoin.symbol)
      (raised : minRaise st bt.bidamt.amount ≤ u64 bidamt.amount)
  | roll (bt : Bid) (fv : Feed) (dead : row.live = false)
      (standing : s.bids.lookup (symbl, owner) = some bt)
      (expired : roundOpen c st bt = false)
      (iq : s.feeds.lookup IQ_SYMBOL.code = some fv) (fresh : c.freshSince ≤ fv.stamp)
      (positive : 0 < fv.price.amount)
      (symbol : ∀ next, convertRemainder row fv.price = .ok next →
        bidamt.symbol = next.stablecoin.symbol)

/-- A positive bid that the bidder has authorised and can pay, on a CDP of a type. -/
structure Offered (c : Ctx) (s : State) (bidder owner : Name) (symbl : SymbolCode) (bidamt : Asset)
    (st : Stat) (row : Cdp) : Prop where
  auth : bidder ∈ c.auth
  named : symbl.isValid = true
  valid : bidamt.isValid = true
  positive : 0 < bidamt.amount
  payable : Payable s.accounts bidder bidamt
  type : s.stats.lookup (c.self, symbl) = some st
  found : s.cdps.lookup (symbl, owner) = some row
  asked : Asked c s owner symbl bidamt st row

/-- The symbol that a feed counts. -/
def counts (feeds : Table SymbolCode Feed) (k : SymbolCode) : Option Symbol :=
  (feeds.lookup k).map fun f => f.total.symbol

/-- The symbols of credits. -/
def symbols (credits : List Move) : List Symbol := credits.map fun m => m.label.1

/-- The credits have the labels of the rows they go to, and feeds count `counted`. -/
def Clear (s : State) (credits : List Move) (counted : List Symbol) : Prop :=
  Ledger.Fits Account.label s.accounts credits ∧ ∀ y ∈ counted, counts s.feeds y.code = some y

/-- Nothing is in the way of the bid. -/
def Unblocked (c : Ctx) (s : State) (bidder owner : Name) (symbl : SymbolCode) (bidamt : Asset)
    (st : Stat) (row : Cdp) : Prop :=
  match s.bids.lookup (symbl, owner) with
  | none => bidamt.amount ≠ penalised st row.stablecoin.amount
  | some bt =>
    if roundOpen c st bt then
      Clear s (credit bt.bidder bt.bidamt (refundContract c row) ::
        outbidPrize c st row bt bidder bidamt) (symbols (outbidPrize c st row bt bidder bidamt))
    else
      Clear s (awarded c st bt.bidder row.collateral)
        (bidamt.symbol :: symbols (awarded c st bt.bidder row.collateral)) ∧
      ∀ fv next, s.feeds.lookup IQ_SYMBOL.code = some fv →
        convertRemainder row fv.price = .ok next →
        Clear s (awarded c st bt.bidder row.collateral ++ rollPrize c st next bidder bidamt)
          (symbols (rollPrize c st next bidder bidamt))

/-! ## Success up to the range of amounts -/

section Range

variable {accounts : Accounts} {owner code : Name} {value : Asset}

theorem make_inRange {amount : Int} {symbol : Symbol} (valid : symbol.isValid = true) :
    FailsOnly OutOfRange (Asset.make amount symbol) := by
  simp [Asset.make, valid, OutOfRange]

theorem add_inRange {x y : Asset} (same : y.symbol = x.symbol) :
    FailsOnly OutOfRange (x.add y) := by
  simp [Asset.add, same, OutOfRange]

theorem sub_inRange {x y : Asset} (same : y.symbol = x.symbol) :
    FailsOnly OutOfRange (x.sub y) := by
  simp [Asset.sub, same, OutOfRange]

theorem subBalance_inRange (payable : Payable accounts owner value) :
    FailsOnly OutOfRange (subBalance accounts owner value) := by
  obtain ⟨row, found, same, covered⟩ := payable
  simp [subBalance, find, found, covered, sub_inRange same.symm]

theorem addBalance_inRange
    (fits : ∀ row, accounts.lookup (value.symbol.code, owner) = some row →
      row.label = (value.symbol, code)) :
    FailsOnly OutOfRange (addBalance accounts owner value code) := by
  unfold addBalance
  cases found : accounts.lookup (value.symbol.code, owner) with
  | none => simp
  | some row =>
    obtain ⟨same, tag⟩ := Prod.mk.inj (fits row found)
    simp [tag, add_inRange same.symm]

/-- Credits leave the balance payable. -/
theorem Payable.credited {b : Accounts} {moves : List Move} (h : Payable accounts owner value)
    (moved : Moved accounts moves b) (kept : ∀ m ∈ moves, 0 ≤ m.amount) :
    Payable b owner value := by
  obtain ⟨row, found, same, covered⟩ := h
  obtain ⟨new, found', label⟩ := moved.keeps found
  have held := moved.held_eq (value.symbol.code, owner)
  rw [Ledger.held_some found, Ledger.held_some found'] at held
  have more : 0 ≤ (moves.map fun m =>
      if (value.symbol.code, owner) = m.key then m.amount else 0).sum := by
    refine List.sum_nonneg fun x mem => ?_
    obtain ⟨m, posted, rfl⟩ := List.mem_map.mp mem
    split
    · exact kept m posted
    · exact le_refl 0
  refine ⟨new, found', (Prod.mk.inj label).1.trans same, ?_⟩
  simp only [Account.amount] at held
  linarith

/-- What fits the rows before a debit fits with the debit. -/
theorem debit_fits {b : Accounts} {moves : List Move}
    (paid : subBalance accounts owner value = .ok (b, code))
    (fits : Ledger.Fits Account.label accounts moves) :
    Ledger.Fits Account.label accounts (debit owner value code :: moves) := by
  obtain ⟨-, row, found, tag, symbol, -⟩ := subBalance_ok paid
  exact fits.cons found (by rw [Account.label, tag, symbol, debit])

end Range

section Auctions

variable {bidder owner : Name} {symbl : SymbolCode} {bidamt : Asset} {st : Stat} {it row : Cdp}
  {bt : Bid} {lot : Lot}

theorem firstBid_inRange (payable : Payable s.accounts bidder bidamt)
    (symbol : bidamt.symbol = it.stablecoin.symbol) :
    FailsOnly OutOfRange (firstBid c s st it bidder bidamt) := by
  simp [firstBid, symbol, subBalance_inRange payable, sub_inRange symbol]

theorem outbid_inRange (payable : Payable s.accounts bidder bidamt)
    (symbol : bidamt.symbol = it.stablecoin.symbol) (standing : bt.bidamt.symbol = bidamt.symbol)
    (raised : minRaise st bt.bidamt.amount ≤ u64 bidamt.amount)
    (fits : Ledger.Fits Account.label s.accounts
        [credit bt.bidder bt.bidamt (refundContract c it)]) :
    FailsOnly OutOfRange (outbid c s st it bt bidder bidamt) := by
  refine .check symbol (.check raised (.bind (subBalance_inRange payable) fun debited paid => ?_))
  refine .bind (addBalance_inRange fun row found => ?_) fun accounts _ => ?_
  · exact (subBalance_ok paid).1.fit (debit_fits paid fits) (by simp) (by simp)
      (p := credit bt.bidder bt.bidamt (refundContract c it)) found
  · refine .bind (sub_inRange standing) fun difference raise => ?_
    obtain ⟨-, -, -, rfl⟩ := Asset.sub_eq_ok.mp raise
    exact .bind (sub_inRange symbol) fun _ _ => failsOnly_pure _

theorem award_inRange
    (fits : Ledger.Fits Account.label s.accounts (awarded c st bt.bidder it.collateral))
    (feeds : ∀ y ∈ symbols (awarded c st bt.bidder it.collateral), counts s.feeds y.code = some y) :
    FailsOnly OutOfRange (awardCollateral c s st it bt) := by
  refine failsOnly_ite.mpr ⟨fun _ => failsOnly_pure _, fun some => ?_⟩
  rw [awarded, if_neg some] at fits feeds
  refine .bind (sub_inRange rfl) fun collateral spent => ?_
  obtain ⟨-, -, -, rfl⟩ := Asset.sub_eq_ok.mp spent
  obtain ⟨fc, feed, counted⟩ := Option.map_eq_some_iff.mp (feeds it.collateral.symbol (by
    simp [symbols, credit]))
  refine .row feed (.bind (add_inRange counted.symm) fun total _ => .bind ?_ fun quantity _ => ?_)
  · exact failsOnly_ite.mpr ⟨fun same => sub_inRange same.2.symm, fun _ => failsOnly_pure _⟩
  · refine .bind (addBalance_inRange fun row found => ?_) fun _ _ => failsOnly_pure _
    rw [Int.sub_self]
    exact (fits _ (List.mem_singleton_self _)).1 row found

theorem convert_inRange {price : Asset} (positive : 0 < price.amount)
    (valid : price.symbol.isValid = true) : FailsOnly OutOfRange (convertRemainder it price) := by
  have worth : FailsOnly OutOfRange (divI64 (i64 (it.stablecoin.amount * 1000)) price.amount) :=
    .check (by omega) (.check (by omega) (failsOnly_pure _))
  have iq : IQ_SYMBOL.isValid = true := by decide
  refine failsOnly_ite.mpr ⟨fun _ => failsOnly_ite.mpr ⟨fun _ => ?_, fun _ => ?_⟩,
    fun _ => failsOnly_ite.mpr ⟨fun _ => ?_, fun _ => ?_⟩⟩
  · exact .bind (make_inRange valid) fun _ _ => failsOnly_pure _
  · exact .bind worth fun _ _ => .bind (make_inRange iq) fun _ _ => failsOnly_pure _
  · exact .bind (make_inRange valid) fun _ _ => failsOnly_pure _
  · exact .bind worth fun _ _ => .bind (make_inRange iq) fun _ _ => failsOnly_pure _

theorem offer_inRange {fv fs : Feed} (iq : lot.feeds.lookup IQ_SYMBOL.code = some fv)
    (fresh : c.freshSince ≤ fv.stamp)
    (positive : 0 < fv.price.amount) (valid : fv.price.symbol.isValid = true)
    (symbol : ∀ next, convertRemainder lot.it fv.price = .ok next →
      bidamt.symbol = next.stablecoin.symbol)
    (payable : Payable lot.accounts bidder bidamt)
    (feed : lot.feeds.lookup bidamt.symbol.code = some fs)
    (counted : fs.total.symbol = bidamt.symbol) :
    FailsOnly OutOfRange (offerRemainder c lot bidder bidamt) := by
  refine failsOnly_ite.mpr ⟨fun _ => failsOnly_pure _, fun _ => ?_⟩
  refine .row iq (.check fresh (.bind (convert_inRange positive valid) fun next converted => ?_))
  refine .check (symbol next converted) (.bind (subBalance_inRange payable) fun paid _ => ?_)
  refine .row feed (.bind (sub_inRange counted.symm) fun total _ => ?_)
  exact .bind (sub_inRange (symbol next converted)) fun _ _ => failsOnly_pure _

/-- Handing out the rest of a closed auction. -/
theorem finish_inRange {moves : List Move} (moved : Moved s.accounts moves lot.accounts)
    (fits : Ledger.Fits Account.label s.accounts
      (moves ++ prize c lot.stat lot.bt.bidder lot.it.stablecoin.amount lot.it.collateral))
    (feeds :
      ∀ y ∈ symbols (prize c lot.stat lot.bt.bidder lot.it.stablecoin.amount lot.it.collateral),
        counts lot.feeds y.code = some y) :
    FailsOnly OutOfRange (finish c s owner symbl lot) := by
  refine failsOnly_ite.mpr ⟨fun paid => ?_, fun _ => failsOnly_pure _⟩
  refine .bind (failsOnly_ite.mpr ⟨fun _ => failsOnly_pure _, fun some => ?_⟩) fun _ _ =>
    failsOnly_pure _
  rw [prize, if_pos ⟨paid, some⟩] at fits feeds
  refine .bind (addBalance_inRange fun row found => ?_) fun accounts _ => ?_
  · exact moved.fit fits (fun q mem => List.mem_append_left _ mem) (by simp)
      (p := credit lot.bt.bidder lot.it.collateral
        (collateralContract c lot.stat lot.it.collateral)) found
  · obtain ⟨fc, feed, counted⟩ := Option.map_eq_some_iff.mp (feeds lot.it.collateral.symbol (by
      simp [symbols, credit]))
    exact .row feed (.bind (add_inRange counted.symm) fun _ _ => failsOnly_pure _)

/-! ## What a bid that is taken shows -/

/-- Moving a feed's total leaves the symbol it counts. -/
theorem counts_insert {feeds : Table SymbolCode Feed} {j : SymbolCode} {f : Feed} {total : Asset}
    (h : feeds.lookup j = some f) (same : total.symbol = f.total.symbol) :
    counts (feeds.insert j { f with total }) = counts feeds := by
  funext k
  simp only [counts, Table.lookup_insert]
  split
  · rename_i here
    rw [here, h, Option.map_some, Option.map_some, same]
  · rfl

theorem award_clear {spent : Lot} (h : awardCollateral c s st it bt = .ok spent) :
    Moved s.accounts (awarded c st bt.bidder it.collateral) spent.accounts ∧
      (∀ y ∈ symbols (awarded c st bt.bidder it.collateral), counts s.feeds y.code = some y) ∧
      counts spent.feeds = counts s.feeds := by
  simp only [awardCollateral, ite_eq_ok, bind_eq_ok, find_eq_ok, Asset.add_eq_ok, Asset.sub_eq_ok,
    pure_eq_ok, Int.sub_self] at h
  rcases h with ⟨zero, rfl⟩ | ⟨some, _, ⟨-, -, -, rfl⟩, fc, feed, _, ⟨same, -, -, rfl⟩,
    _, -, _, paid, rfl⟩
  · rw [awarded, if_pos zero]
    exact ⟨Ledger.Posted.nil _, by simp [symbols], rfl⟩
  · rw [awarded, if_neg some]
    refine ⟨addBalance_moved paid, fun y mem => ?_, counts_insert feed rfl⟩
    simp only [symbols, credit, List.map_cons, List.map_nil, List.mem_singleton] at mem
    rw [mem, counts, feed, Option.map_some, ← same]

theorem finish_clear (h : finish c s owner symbl lot = .ok s') :
    Moved lot.accounts
      (prize c lot.stat lot.bt.bidder lot.it.stablecoin.amount lot.it.collateral) s'.accounts ∧
    ∀ y ∈ symbols (prize c lot.stat lot.bt.bidder lot.it.stablecoin.amount lot.it.collateral),
      counts lot.feeds y.code = some y := by
  simp only [finish, settleLot, ite_eq_ok, bind_eq_ok, find_eq_ok, Asset.add_eq_ok, pure_eq_ok,
    Prod.exists, Prod.mk.injEq] at h
  rcases h with ⟨paid, _, _,
    ⟨zero, rfl, rfl⟩ | ⟨some, _, credited, fc, feed, _, ⟨same, -, -, rfl⟩, rfl, rfl⟩,
      rfl⟩ | ⟨left, rfl⟩
  · rw [prize, if_neg fun h => h.2 zero]
    exact ⟨Ledger.Posted.nil _, by simp [symbols]⟩
  · rw [prize, if_pos ⟨paid, some⟩]
    refine ⟨addBalance_moved credited, fun y mem => ?_⟩
    simp only [symbols, credit, List.map_cons, List.map_nil, List.mem_singleton] at mem
    rw [mem, counts, feed, Option.map_some, ← same]
  · rw [prize, if_neg fun h => left h.1]
    exact ⟨Ledger.Posted.nil _, by simp [symbols]⟩

theorem offer_counts {spent : Lot} (h : offerRemainder c spent bidder bidamt = .ok lot)
    (debt : spent.it.stablecoin.amount ≠ 0) :
    counts spent.feeds bidamt.symbol.code = some bidamt.symbol ∧
      counts lot.feeds = counts spent.feeds := by
  simp only [offerRemainder, ite_eq_ok, bind_eq_ok, require_eq_ok, find_eq_ok, Asset.sub_eq_ok,
    pure_eq_ok, exists_const, Prod.exists] at h
  rcases h
    with ⟨zero, -⟩ | ⟨-, _, -, -, _, -, -, _, _, -, fs, feed, _, ⟨same, -, -, rfl⟩, _, -, rfl⟩
  · exact absurd zero debt
  · refine ⟨?_, counts_insert feed rfl⟩
    rw [counts, feed, Option.map_some, ← same]

theorem unblocked_of_ok (hs : Sound s) (ha : Auctioned s)
    (h : liquify c s bidder owner symbl bidamt = .ok s')
    (type : s.stats.lookup (c.self, symbl) = some st)
    (found : s.cdps.lookup (symbl, owner) = some row) :
    Unblocked c s bidder owner symbl bidamt st row := by
  obtain ⟨st', row', it, lot, -, -, type', found', opened, bidding, done⟩ := liquify_ok h
  cases type.symm.trans type'
  cases found.symm.trans found'
  obtain ⟨paid, counted⟩ := finish_clear done
  have stat := bidding.stat_eq
  cases bidding with
  | first none taken left =>
    obtain ⟨_, _, -, -, rfl⟩ := firstBid_ok taken
    simp only [Unblocked, none]
    rcases openAuction_ok opened with ⟨dead, rfl⟩ | ⟨_, _, -, -, -, -, -, rfl⟩
    · obtain ⟨bt, standing, -⟩ := ha _ _ found dead
      cases none.symm.trans standing
    · simp only at left
      omega
  | next bt standing running taken =>
    cases standing_unopened hs standing found opened
    obtain ⟨_, code, _, symbol, same, raised, debited, refunded, rfl⟩ := outbid_ok taken
    simp only [Unblocked, standing, running, if_true]
    have moved := ((subBalance_ok debited).1.append refunded).append paid
    exact ⟨moved.fits.mono (by simp +contextual [outbidPrize]), counted⟩
  | roll bt spent standing expired awarded taken =>
    cases standing_unopened hs standing found opened
    simp only [Unblocked, standing, expired]
    obtain ⟨credited, awardCounted, kept⟩ := award_clear awarded
    obtain ⟨bidCounted, kept'⟩ :=
      offer_counts taken (award_owing hs standing found opened awarded)
    refine ⟨⟨credited.fits, ?_⟩, fun fv next iq converted => ?_⟩
    · rw [List.forall_mem_cons]
      exact ⟨kept ▸ bidCounted, awardCounted⟩
    · obtain ⟨fv', next', _, code, _, -, iq', converted', -, debited, -, rfl⟩ :=
        roll_ok hs standing found opened awarded taken
      cases iq.symm.trans iq'
      cases converted.symm.trans converted'
      rw [kept', kept] at counted
      have moved := (credited.append (subBalance_ok debited).1).append paid
      refine ⟨moved.fits.mono fun m mem => ?_, counted⟩
      rw [rollPrize, List.mem_append] at mem
      simp only [List.mem_append]
      tauto

/-! ## Bids that are not blocked -/

theorem open_inRange (live : row.live = true) (owed : 0 < row.stablecoin.amount)
    {fc : Feed} {liq : Nat}
    (feed : s.feeds.lookup row.collateral.symbol.code = some fc)
    (fresh : c.freshSince ≤ fc.stamp ∨ st.live = false) (ratio : liquifyRatio fc row = .ok liq)
    (below : liq < st.liquid8Ratio) : FailsOnly OutOfRange (openAuction c s st row) := by
  refine failsOnly_ite.mpr ⟨fun _ => ?_, fun dead => absurd live dead⟩
  refine .check owed (.row feed (.check fresh ?_))
  rw [ratio]
  exact .check below (failsOnly_pure _)

theorem next_inRange (payable : Payable s.accounts bidder bidamt)
    (symbol : bidamt.symbol = it.stablecoin.symbol)
    (standing : bt.bidamt.symbol = it.stablecoin.symbol)
    (raised : minRaise st bt.bidamt.amount ≤ u64 bidamt.amount)
    (clear : Clear s (credit bt.bidder bt.bidamt (refundContract c it) ::
      outbidPrize c st it bt bidder bidamt) (symbols (outbidPrize c st it bt bidder bidamt))) :
    FailsOnly OutOfRange (do
      let lot ← outbid c s st it bt bidder bidamt
      finish c s owner symbl lot) := by
  obtain ⟨fits, counted⟩ := clear
  refine .bind (outbid_inRange payable symbol (standing.trans symbol.symm) raised
    (fits.mono (by simp))) fun lot taken => ?_
  obtain ⟨_, code, _, -, -, -, debited, refunded, rfl⟩ := outbid_ok taken
  exact finish_inRange ((subBalance_ok debited).1.append refunded) (debit_fits debited fits) counted

theorem roll_inRange {fv : Feed} (debt : it.stablecoin.amount ≠ 0)
    (payable : Payable s.accounts bidder bidamt)
    (iq : s.feeds.lookup IQ_SYMBOL.code = some fv) (fresh : c.freshSince ≤ fv.stamp)
    (positive : 0 < fv.price.amount) (valid : fv.price.symbol.isValid = true)
    (symbol : ∀ next, convertRemainder it fv.price = .ok next →
        bidamt.symbol = next.stablecoin.symbol)
    (award : Clear s (awarded c st bt.bidder it.collateral)
      (bidamt.symbol :: symbols (awarded c st bt.bidder it.collateral)))
    (clear : ∀ next, convertRemainder it fv.price = .ok next →
      Clear s (awarded c st bt.bidder it.collateral ++ rollPrize c st next bidder bidamt)
        (symbols (rollPrize c st next bidder bidamt))) :
    FailsOnly OutOfRange (do
      let lot ← rollover c s st it bt bidder bidamt
      finish c s owner symbl lot) := by
  rw [Clear, List.forall_mem_cons] at award
  obtain ⟨fits, bidCounted, awardCounted⟩ := award
  refine .bind (.bind (award_inRange fits awardCounted) fun spent awarded => ?_) fun lot taken => ?_
  · obtain ⟨fs, feed, counted⟩ := Option.map_eq_some_iff.mp bidCounted
    refine offer_inRange ((award_feeds awarded _).trans iq) fresh positive valid ?_ ?_
      ((award_feeds awarded _).trans feed) counted
    · rw [convert_award awarded]
      exact symbol
    · refine payable.credited (award_clear awarded).1 fun m mem => ?_
      unfold Maker.awarded at mem
      split at mem
      · cases mem
      · cases List.mem_singleton.mp mem
        exact le_refl 0
  · simp only [rollover, bind_eq_ok] at taken
    obtain ⟨spent, awarded, taken⟩ := taken
    have left : spent.it.stablecoin.amount ≠ 0 := by
      rw [(award_rows awarded).1]
      exact debt
    obtain ⟨credited, -, kept⟩ := award_clear awarded
    have kept' := (offer_counts taken left).2
    rcases offerRemainder_ok taken with ⟨zero, -⟩ |
      ⟨fv', next, _, code, _, -, iq', converted, -, debited, -, rfl⟩
    · exact absurd zero left
    · rw [award_feeds awarded] at iq'
      cases iq.symm.trans iq'
      rw [convert_award awarded] at converted
      obtain ⟨fits', counted⟩ := clear next converted
      have stat := award_stat awarded
      obtain ⟨moved, row, found, tag, symbol', -⟩ := subBalance_ok debited
      refine finish_inRange (credited.append moved) ?_ ?_
      · obtain ⟨old, stood, -⟩ := payable
        obtain ⟨mid, stands, label⟩ := credited.keeps stood
        cases stands.symm.trans found
        have own : old.label = (debit bidder bidamt code).label := by
          rw [← label, Account.label, tag, symbol', debit]
        refine (fits'.cons stood own).mono fun m mem => ?_
        simp only [stat, List.mem_append, List.mem_cons, List.not_mem_nil, or_false] at mem ⊢
        rw [rollPrize]
        tauto
      · rw [kept', kept, stat]
        exact counted

/-- Prices are in valid symbols. -/
def Named (s : State) : Prop := ∀ k q, quote s.feeds k = some q → q.1.symbol.isValid = true

theorem Named.empty : Named State.empty := fun k q hq => by cases hq

theorem Named.queueless : Queueless Named := fun _ _ h => h

theorem Named.apply (hn : Named s) (h : Maker.apply c s a = .ok s') : Named s' := by
  intro k q hq
  rcases apply_quote h with same | ⟨_, price, _, symbol, rfl, -, rfl⟩
  · exact hn k q (same ▸ hq)
  · obtain old | ⟨-, ⟨-, rfl⟩ | ⟨f, stored, rfl⟩⟩ := upfed_quote hq
    · exact hn k q old
    · exact (upfeed_valid h).2
    · have valid := hn _ _ (quote_of_lookup stored)
      exact valid

theorem liquify_inRange (hs : Sound s) (ha : Auctioned s) (hn : Named s)
    (offered : Offered c s bidder owner symbl bidamt st row)
    (clear : Unblocked c s bidder owner symbl bidamt st row) :
    FailsOnly OutOfRange (liquify c s bidder owner symbl bidamt) := by
  obtain ⟨auth, named, valid, positive, payable, type, found, asked⟩ := offered
  refine .check auth (.check named (.check ⟨valid, positive⟩ (.row type (.row found ?_))))
  cases asked with
  | first fc liq live owed feed fresh ratio below symbol =>
    have none : s.bids.lookup (symbl, owner) = none := by
      cases standing : s.bids.lookup (symbl, owner) with
      | none => rfl
      | some bt =>
        rw [standing_dead hs standing found] at live
        cases live
    refine .bind (open_inRange live owed feed fresh ratio below) fun it opened => ?_
    simp only [none, Unblocked] at clear ⊢
    rcases openAuction_ok opened with ⟨dead, -⟩ | ⟨_, _, -, -, -, -, -, rfl⟩
    · rw [live] at dead
      cases dead
    · refine .bind (firstBid_inRange payable symbol) fun lot taken => ?_
      obtain ⟨_, _, -, -, rfl⟩ := firstBid_ok taken
      have left : penalised st row.stablecoin.amount - bidamt.amount ≠ 0 := by omega
      exact .check left (failsOnly_ite.mpr ⟨fun zero => absurd zero left,
        fun _ => failsOnly_pure _⟩)
  | next bt dead standing running symbol raised =>
    have opened : openAuction c s st row = .ok row := by simp [openAuction, dead, pure, Except.pure]
    obtain ⟨bt', standing', same⟩ := ha _ row found dead
    cases standing.symm.trans standing'
    simp only [standing, Unblocked, running, if_true] at clear
    refine .bind (opened ▸ failsOnly_ok row) fun it same' => ?_
    cases opened.symm.trans same'
    simp only [standing, nextBid, running, if_true]
    exact next_inRange payable symbol same raised clear
  | roll bt fv dead standing expired iq fresh positive symbol =>
    have opened : openAuction c s st row = .ok row := by simp [openAuction, dead, pure, Except.pure]
    simp only [standing, Unblocked, expired] at clear
    refine .bind (opened ▸ failsOnly_ok row) fun it same' => ?_
    cases opened.symm.trans same'
    simp only [standing, nextBid, expired]
    exact roll_inRange ((hs.cdps _ row found).left dead) payable iq fresh positive
      (hn _ _ (quote_of_lookup iq)) symbol clear.1 fun next converted =>
        clear.2 fv next iq converted

end Auctions

/-- A bid that the auction asks for, with no amount out of range, is taken if
and only if nothing is in its way. -/
theorem bid_taken_iff (self : Name) (clock : Nat) (es : List Event) (e : Event)
    (c : Ctx) (s : State)
    (bidder owner : Name) (symbl : SymbolCode) (bidamt : Asset) (st : Stat) (row : Cdp)
    (called : (after self clock es).call self e =
      some (c, s, .liquify bidder owner symbl bidamt))
    (offered : Offered c s bidder owner symbl bidamt st row)
    (inRange : ∀ m, apply c s (.liquify bidder owner symbl bidamt) = .error m → ¬ OutOfRange m) :
    (∃ s', apply c s (.liquify bidder owner symbl bidamt) = .ok s') ↔
      Unblocked c s bidder owner symbl bidamt st row := by
  obtain ⟨sound, auctioned, named⟩ : Sound (after self clock es).state ∧
      Auctioned (after self clock es).state ∧ Named (after self clock es).state :=
    always (Sound.queueless.and (Auctioned.queueless.and Named.queueless))
      (fun _ _ _ _ _ kept h => ⟨kept.1.apply h, kept.2.1.apply kept.1 h, kept.2.2.apply h⟩)
      ⟨Sound.empty, Auctioned.empty, Named.empty⟩
  obtain ⟨-, sound, auctioned, named⟩ :=
    call_meets (Sound.queueless.and (Auctioned.queueless.and Named.queueless))
      ⟨sound, auctioned, named⟩ called
  constructor
  · rintro ⟨s', done⟩
    exact unblocked_of_ok sound auctioned done offered.type offered.found
  · intro clear
    exact (liquify_inRange sound auctioned named offered clear).succeeds inRange

section

open Sample

/-- `sick` borrows `drawn`, and then a vote raises the liquidation ratio. -/
def atRisk (drawn : Int) : List Event :=
  indebted ++
    [ .act [sick] (.deposit eosioToken sick daiqcontract ⟨2000000, EOS⟩ []),
      .act [sick] (.openCdp sick FUD sick),
      .act [sick] (.lock sick FUD ⟨2000000, EOS⟩),
      .act [sick] (.draw sick FUD ⟨drawn, USD⟩) ] ++
    referendum rick 1005 (terms EOS 1000)

def bidOnNick (bidder : Name) (amount : Int) : Event :=
  .act [bidder] (.liquify bidder nick FUD ⟨amount, USD⟩)

/-- The type while `total` is owed. -/
def fudType (total collateral : Int) : Stat :=
  { (terms EOS 1000).draft with
    live := true, lastVote := 1010, totalStablecoin := ⟨total, USD⟩
    totalCollateral := ⟨⟨collateral, EOS⟩, eosioToken⟩ }

def nickRisk : Cdp := ⟨1005, ⟨1000000, EOS⟩, ⟨10000, USD⟩, true⟩

theorem bid_taken_iff_sick : ∃ c s,
    (after daiqcontract 1000 (atRisk 15000)).call daiqcontract (bidOnNick sick 5000) =
      some (c, s, .liquify sick nick FUD ⟨5000, USD⟩) ∧
    ((∃ s', apply c s (.liquify sick nick FUD ⟨5000, USD⟩) = .ok s') ↔
      Unblocked c s sick nick FUD ⟨5000, USD⟩ (fudType 25000 3000000) nickRisk) := by
  refine ⟨_, _, rfl,
    bid_taken_iff daiqcontract 1000 (atRisk 15000) (bidOnNick sick 5000) _ _ sick nick FUD
      ⟨5000, USD⟩ (fudType 25000 3000000) nickRisk rfl ?_ ?_⟩
  · exact ⟨by decide, by decide, by decide, by decide,
      ⟨⟨⟨15000, USD⟩, daiqcontract⟩, by decide +kernel, rfl, by decide⟩, by decide +kernel,
      by decide +kernel, .first ⟨⟨0, EOS⟩, ⟨200, USD⟩, 1000⟩ 200 rfl (by decide)
        (by decide +kernel) (by decide +kernel) (by decide +kernel) (by decide) rfl⟩
  · intro m failed
    have ok : failure (apply ((after daiqcontract 1000 (atRisk 15000)).ctx daiqcontract [sick])
        (after daiqcontract 1000 (atRisk 15000)).state (.liquify sick nick FUD ⟨5000, USD⟩)) =
          none := by
      decide +kernel
    rw [failure_eq_some.mpr failed] at ok
    cases ok

/-- `sick` has no USD but 50 of another contract, and bids them: a bid takes any. -/
def entrenched : List Event :=
  indebted ++ [.act [sick] (.deposit fakeos sick daiqcontract ⟨5000, USD⟩ [])] ++
    referendum rick 1005 (terms EOS 1000) ++ [bidOnNick sick 5000]

/-- A first bid of the whole debt with the penalty is refused, and so is any
bid on top of the one of `sick`. -/
theorem bids_refused :
    (∃ c s st row,
        (after daiqcontract 1000 (atRisk 15000)).call daiqcontract (bidOnNick sick 15000) =
          some (c, s, .liquify sick nick FUD ⟨15000, USD⟩) ∧
      Offered c s sick nick FUD ⟨15000, USD⟩ st row ∧ penalised st row.stablecoin.amount = 15000 ∧
      apply c s (.liquify sick nick FUD ⟨15000, USD⟩) =
        .error "cannot pass end iterator to erase") ∧
    ∃ c s st row, (after daiqcontract 1000 entrenched).call daiqcontract (bidOnNick nick 10000) =
        some (c, s, .liquify nick nick FUD ⟨10000, USD⟩) ∧
      Offered c s nick nick FUD ⟨10000, USD⟩ st row ∧
      apply c s (.liquify nick nick FUD ⟨10000, USD⟩) = .error "wrong contract" := by
  refine ⟨⟨_, _, fudType 25000 3000000, nickRisk, rfl, ?_, by decide +kernel,
      failure_eq_some.mp (by decide +kernel)⟩,
    _, _, fudType 10000 1000000, ⟨1005, ⟨1000000, EOS⟩, ⟨10000, USD⟩, false⟩, rfl, ?_,
    failure_eq_some.mp (by decide +kernel)⟩
  · exact ⟨by decide, by decide, by decide, by decide,
      ⟨⟨⟨15000, USD⟩, daiqcontract⟩, by decide +kernel, rfl, by decide⟩, by decide +kernel,
      by decide +kernel, .first ⟨⟨0, EOS⟩, ⟨200, USD⟩, 1000⟩ 200 rfl (by decide)
        (by decide +kernel) (by decide +kernel) (by decide +kernel) (by decide) rfl⟩
  · exact ⟨by decide, by decide, by decide, by decide,
      ⟨⟨⟨10000, USD⟩, daiqcontract⟩, by decide +kernel, rfl, by decide⟩, by decide +kernel,
      by decide +kernel, .next ⟨sick, ⟨5000, USD⟩, 1010, 1010⟩ rfl (by decide +kernel)
        (by decide +kernel) rfl (by decide +kernel)⟩

end

end DecentralBank.Maker
