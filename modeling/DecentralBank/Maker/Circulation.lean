import DecentralBank.Maker.Genuine

/-!
# What the feeds count

A feed is meant to count the balances under its symbol. Most actions write the
balances and the counter together; a few move balances and leave the counter.
-/

namespace DecentralBank.Maker

open Runs

variable {c : Ctx} {s s' : State} {a : Action} {T : SymbolCode}

/-! ## What is not counted -/

/-- What the feed of `T` counts. -/
def tracked (T : SymbolCode) (feeds : Table SymbolCode Feed) : Int :=
  (feeds.lookup T).elim 0 fun f => f.total.amount

/-- The part of an asset that is in the scope of `T`. -/
def under (T : SymbolCode) (x : Asset) : Int := if x.symbol.code = T then x.amount else 0

/-- What the feed of `T`, if any, counts beyond the balances. -/
def gap (T : SymbolCode) (s : State) : Int :=
  if Fed s.feeds T then tracked T s.feeds - escrowed T s.accounts else 0

/-- The fee of a `wipe`. -/
def feeDue (c : Ctx) (s : State) (owner : Name) (symbl : SymbolCode) (quantity : Asset) : Int :=
  match s.stats.lookup (c.self, symbl), s.cdps.lookup (symbl, owner),
      s.feeds.lookup IQ_SYMBOL.code with
  | some st, some it, some fv =>
    match stabilityFee st (c.since it.created) quantity fv.price with
    | .ok apr => i64 apr
    | .error _ => 0
  | _, _, _ => 0

/-- What a decision pays from the votes on `symbl`. -/
def decided (T : SymbolCode) (s : State) (symbl : SymbolCode) (prop : Proposal) : Int :=
  if prop.yay.amount = prop.nay.amount then 0
  else if symbl = T then escrowed T s.accounts
  else if IQ_SYMBOL.code = T then -escrowed symbl s.accounts else 0

/-- What a bid takes: all of it while the round is open, less the bid it displaces. -/
def bidTaken (T : SymbolCode) (c : Ctx) (s : State) (owner : Name) (symbl : SymbolCode)
    (bidamt : Asset) : Int :=
  match s.bids.lookup (symbl, owner), s.stats.lookup (c.self, symbl) with
  | none, _ => under T bidamt
  | some bt, some st => if roundOpen c st bt then under T bidamt - under T bt.bidamt else 0
  | some _, none => 0

/-- What a call takes from the balances under `T` and leaves in the counter. -/
def leaked (T : SymbolCode) (c : Ctx) (s : State) : Action → Int
  | .wipe owner symbl quantity => if IQ_SYMBOL.code = T then feeDue c s owner symbl quantity else 0
  | .shut owner symbl =>
    (s.cdps.lookup (symbl, owner)).elim 0 fun it => under T it.stablecoin - under T it.collateral
  | .vote _ symbl _ quantity => under T quantity - if symbl = T then quantity.amount else 0
  | .referended _ symbl => (s.props.lookup symbl).elim 0 (decided T s symbl)
  | .liquify _ owner symbl bidamt => bidTaken T c s owner symbl bidamt
  | _ => 0

/-- A new feed counts none of the balances that it finds. -/
def missed (T : SymbolCode) (s : State) : Action → Int
  | .upfeed _ _ _ symbl => if symbl.code = T then -escrowed T s.accounts else 0
  | _ => 0

/-- What a call moves under `T` without counting it. -/
def unrecorded (T : SymbolCode) (c : Ctx) (s : State) (a : Action) : Int :=
  if Fed s.feeds T then leaked T c s a else missed T s a

/-! ## Writes of balances and counters -/

section Writes

variable {feeds : Table SymbolCode Feed} {b : Accounts} {owner code : Name} {value : Asset}

theorem tracked_insert {j : SymbolCode} {f : Feed} (h : feeds.lookup j = some f) (total : Asset) :
    tracked T (feeds.insert j { f with total }) =
      tracked T feeds + if j = T then total.amount - f.total.amount else 0 := by
  simp only [tracked, Table.lookup_insert]
  by_cases here : j = T
  · subst here
    simp [h]
  · have other : T ≠ j := fun e => here e.symm
    simp [here, other]

theorem escrowed_debit {a : Accounts} (h : subBalance a owner value = .ok (b, code)) :
    escrowed T b = escrowed T a - under T value := by
  rw [escrowed_moved (subBalance_ok h).1, under]
  by_cases here : value.symbol.code = T
  · simp [debit, here, Int.sub_eq_add_neg]
  · simp [debit, here]

theorem escrowed_credit {a : Accounts} (h : Moved a [credit owner value code] b) :
    escrowed T b = escrowed T a + under T value := by
  rw [escrowed_moved h, under]
  by_cases here : value.symbol.code = T
  · simp [credit, here]
  · simp [credit, here]

/-- A credit that is counted. -/
theorem tracked_more {f : Feed} (h : feeds.lookup value.symbol.code = some f) :
    tracked T (feeds.insert value.symbol.code
      { f with total := ⟨f.total.amount + value.amount, f.total.symbol⟩ }) =
      tracked T feeds + under T value := by
  rw [tracked_insert h, under]
  split
  · simp only
    omega
  · rfl

/-- A debit that is counted. -/
theorem tracked_less {f : Feed} (h : feeds.lookup value.symbol.code = some f) :
    tracked T (feeds.insert value.symbol.code
      { f with total := ⟨f.total.amount - value.amount, f.total.symbol⟩ }) =
      tracked T feeds - under T value := by
  rw [tracked_insert h, under]
  split
  · simp only
    omega
  · omega

end Writes

section Refunds

variable {a b : Accounts} {symbl : SymbolCode} {row : (_ : SymbolCode × Name) × Account}
  {rows : List ((_ : SymbolCode × Name) × Account)}

/-- Each turn pays in IQ what it erases elsewhere. -/
theorem refunds_escrowed (h : rows.foldlM refund a = .ok b)
    (other : ∀ row ∈ rows, row.1.1 ≠ IQ_SYMBOL.code) :
    escrowed IQ_SYMBOL.code b =
      escrowed IQ_SYMBOL.code a + (rows.map fun row => row.2.amount).sum := by
  refine Checked.foldlM_sum ?_ h
  intro row mem a b turned
  obtain ⟨paid, moved, rfl⟩ := refund_ok turned
  have erased : escrowed IQ_SYMBOL.code (paid.erase row.1) = escrowed IQ_SYMBOL.code paid := by
    refine escrowed_same fun u => ?_
    rw [Table.lookup_erase, if_neg fun e => other row mem (congrArg Prod.fst e).symm]
  rw [erased, escrowed_credit moved]
  simp only [under, if_true]

theorem escrowed_none (h : ∀ u, b.lookup (T, u) = none) : escrowed T b = 0 := by
  refine Table.total_zero fun k row found => ?_
  split
  · rename_i scope
    rw [show k = (T, k.2) from Prod.ext scope rfl, h] at found
    cases found
  · rfl

/-- A decision empties the scope of the proposal and pays into the one of IQ. -/
theorem refundVotes_escrowed (h : refundVotes a symbl = .ok b) : escrowed T b =
    if symbl = T then 0
    else escrowed T a + if IQ_SYMBOL.code = T then escrowed symbl a else 0 := by
  by_cases iq : symbl = IQ_SYMBOL.code
  · have erased := refundVotes_iq h iq
    by_cases here : symbl = T
    · rw [if_pos here]
      exact escrowed_none fun u => by rw [erased, if_pos here.symm]
    · rw [if_neg here, if_neg (iq ▸ here), add_zero]
      exact escrowed_same fun u => by rw [erased, if_neg fun e : T = symbl => here e.symm]
  · by_cases here : symbl = T
    · rw [if_pos here]
      refine escrowed_none fun u => ?_
      rw [refundVotes_lookup h fun e => iq (here.trans e), if_pos here.symm]
    · rw [if_neg here]
      by_cases paid : IQ_SYMBOL.code = T
      · subst paid
        have rows := Table.total_filter (fun _ row => Account.amount row)
          (fun k : SymbolCode × Name => k.1 = symbl) a
        simp only [decide_eq_true_eq] at rows
        rw [if_pos rfl,
          refunds_escrowed h fun row mem => by rw [mem_scope_code mem]; exact iq, ← rows]
        rfl
      · rw [if_neg paid, add_zero]
        refine escrowed_same fun u => ?_
        rw [refundVotes_lookup h fun e => paid e.symm, if_neg fun e : T = symbl => here e.symm]

end Refunds

/-! ## Calls -/

/-- What the feed of `T` counts, less the balances. -/
def excess (T : SymbolCode) (feeds : Table SymbolCode Feed) (accounts : Accounts) : Int :=
  tracked T feeds - escrowed T accounts

section Bids

variable {bidder owner : Name} {symbl : SymbolCode} {bidamt : Asset} {st : Stat}
    {it : Cdp} {lot : Lot}

theorem under_zero {y : Symbol} : under T ⟨0, y⟩ = 0 := by
  rw [under]
  split <;> rfl

theorem award_excess {bt : Bid} {spent : Lot} (h : awardCollateral c s st it bt = .ok spent) :
    excess T spent.feeds spent.accounts = excess T s.feeds s.accounts := by
  obtain ⟨-, rfl⟩ | ⟨fc, _, -, feed, moved, rfl⟩ := awardCollateral_ok h
  · rfl
  · have counter : tracked T (s.feeds.insert it.collateral.symbol.code fc) = tracked T s.feeds := by
      have := tracked_insert (T := T) feed fc.total
      simpa using this
    rw [excess, excess, counter, escrowed_credit moved, under_zero, add_zero]

theorem Bidding.excess (h : Bidding c s bidder owner symbl bidamt st it lot)
    (type : s.stats.lookup (c.self, symbl) = some st) :
    Maker.excess T lot.feeds lot.accounts =
      Maker.excess T s.feeds s.accounts + bidTaken T c s owner symbl bidamt := by
  cases h with
  | first none taken _ =>
    obtain ⟨_, _, -, paid, rfl⟩ := firstBid_ok taken
    simp only [Maker.excess, bidTaken, none, escrowed_debit paid]
    omega
  | next bt standing running taken =>
    obtain ⟨_, _, _, -, -, -, paid, refunded, rfl⟩ := outbid_ok taken
    simp only [Maker.excess, bidTaken, standing, type, running, if_true, escrowed_credit refunded,
      escrowed_debit paid]
    omega
  | roll bt spent standing expired awarded taken =>
    rw [← award_excess awarded]
    simp only [bidTaken, standing, type, expired]
    obtain ⟨-, rfl⟩ | ⟨_, _, _, _, fs, -, -, -, -, paid, feed, rfl⟩ := offerRemainder_ok taken
    · simp
    · simp only [Maker.excess, escrowed_debit paid, tracked_less feed]
      simp

theorem finish_excess (h : finish c s owner symbl lot = .ok s') :
    excess T s'.feeds s'.accounts = excess T lot.feeds lot.accounts := by
  obtain ⟨-, rfl⟩ | ⟨_, _, -, settled, rfl⟩ := finish_ok h
  · rfl
  · obtain ⟨-, rfl, rfl⟩ | ⟨fc, -, moved, feed, rfl⟩ := settleLot_ok settled
    · rfl
    · rw [excess, excess, tracked_more feed, escrowed_credit moved]
      omega

end Bids

/-- A call raises the excess by what it leaks. -/
theorem apply_leaked (hs : Sound s) (fed : Fed s.feeds T) (h : apply c s a = .ok s') :
    excess T s'.feeds s'.accounts = excess T s.feeds s.accounts + leaked T c s a := by
  cases a with
  | upfeed feeder price cdpType symbol =>
    obtain ⟨-, rfl⟩ := upfeed_ok h
    have counter : tracked T (s.feeds.insert symbol.code
        (Maker.fed c price symbol (s.feeds.lookup symbol.code))) = tracked T s.feeds := by
      simp only [tracked, Table.lookup_insert]
      by_cases here : T = symbol.code
      · subst here
        obtain ⟨f, feed⟩ := Option.isSome_iff_exists.mp fed
        simp [feed, Maker.fed]
      · rw [if_neg here]
    simp only [excess, leaked, counter, add_zero]
  | openCdp owner symbl ramPayer =>
    obtain ⟨_, _, -, -, -, -, rfl⟩ := openCdp_ok h
    exact (add_zero _).symm
  | close owner symbl =>
    obtain ⟨row, -, found, zero, rfl⟩ := close_ok h
    have erased : escrowed T (s.accounts.erase (symbl, owner)) = escrowed T s.accounts := by
      rw [escrowed, Table.total_erase, Table.weightAt_some found, Account.amount, zero, ite_self,
        sub_zero, escrowed]
    simp only [excess, leaked, erased, add_zero]
  | shut owner symbl =>
    obtain ⟨st, it, paid, _, _, _, -, -, found, live, debt, back, rfl⟩ := shut_ok h
    have row := hs.cdps _ _ found
    have repaid : escrowed T paid = escrowed T s.accounts - under T it.stablecoin := by
      obtain ⟨_, -, debited, -, -⟩ | ⟨none, rfl, -⟩ := shutDebt_ok debt
      · exact escrowed_debit debited
      · have zero : it.stablecoin.amount = 0 := le_antisymm none (row.debt live).1
        rw [under, zero, ite_self, sub_zero]
    simp only [excess, leaked, found, Option.elim_some]
    obtain ⟨-, moved, -, -⟩ | ⟨none, rfl, -⟩ := shutCollateral_ok back
    · rw [escrowed_credit moved, repaid]
      omega
    · have zero : it.collateral.amount = 0 := le_antisymm none (row.collateral live).1
      have kept : under T it.collateral = 0 := by rw [under, zero, ite_self]
      rw [repaid, kept]
      omega
  | lock owner symbl quantity =>
    obtain ⟨_, _, fc, _, -, -, -, -, -, -, -, paid, -, feed, rfl⟩ := lock_ok h
    simp only [excess, leaked, tracked_less feed, escrowed_debit paid]
    omega
  | bail owner symbl quantity =>
    obtain ⟨_, _, fc, _, _, -, -, -, -, -, -, -, -, feed, -, -, moved, rfl⟩ := bail_ok h
    simp only [excess, leaked, tracked_more feed, escrowed_credit moved]
    omega
  | draw owner symbl quantity =>
    obtain ⟨_, _, _, _, fs, _, -, -, -, -, -, -, -, -, -, -, -, feed, moved, rfl⟩ := draw_ok h
    simp only [excess, leaked, tracked_more feed, escrowed_credit moved]
    omega
  | wipe owner symbl quantity =>
    obtain ⟨st, it, fv, apr, _, _, _, fs, _, -, -, type, -, found, -, -, -, iq, accrued,
      fee, paid, feed, rfl⟩ := wipe_ok h
    simp only [excess, leaked, feeDue, type, found, iq, accrued, tracked_less feed,
      escrowed_debit paid, escrowed_debit fee, under]
    omega
  | settle feeder symbl =>
    obtain ⟨_, -, rfl⟩ := settle_ok h
    exact (add_zero _).symm
  | vote voter symbl against quantity =>
    obtain ⟨_, paid, _, _, _, -, -, -, -, debited, escrow, -, rfl⟩ := vote_ok h
    obtain ⟨_, moved, -⟩ := escrow_ok escrow
    simp only [excess, leaked, escrowed_moved moved, escrowed_debit debited,
      List.map_cons, List.map_nil, List.sum_cons, List.sum_nil]
    split <;> omega
  | propose proposer symbl terms =>
    obtain ⟨_, -, -, -, -, -, -, -, rfl⟩ := propose_ok h
    exact (add_zero _).symm
  | referended proposer symbl =>
    obtain ⟨-, prop, session, -, ⟨tie, -, rfl⟩ | ⟨_, _, split, -, refunded, rfl⟩⟩ := referended_ok h
    · simp [leaked, session, decided, tie, excess]
    · simp only [excess, leaked, session, Option.elim_some, decided, split, if_false,
        refundVotes_escrowed refunded]
      split
      · omega
      · split <;> omega
  | liquify bidder owner symbl bidamt =>
    obtain ⟨_, _, _, _, -, -, type, -, -, bidding, done⟩ := liquify_ok h
    rw [finish_excess done, bidding.excess type]
    rfl
  | withdraw owner quantity memo =>
    obtain ⟨_, _, fc, _, -, -, paid, -, feed, rfl⟩ := withdraw_ok h
    simp only [excess, leaked, tracked_less feed, escrowed_debit paid]
    omega
  | deposit code source target quantity memo =>
    obtain ⟨-, -, ⟨-, rfl⟩ | ⟨fc, _, -, -, feed, moved, rfl⟩⟩ := deposit_ok (apply_deposit_ok h).2
    · exact (add_zero _).symm
    · simp only [excess, leaked, tracked_more feed, escrowed_credit moved]
      omega

/-- A call raises the gap by what it does not record. -/
theorem apply_unrecorded (hs : Sound s) (h : apply c s a = .ok s') :
    gap T s' = gap T s + unrecorded T c s a := by
  by_cases fed : Fed s.feeds T
  · rw [gap, if_pos (fed.apply h), gap, if_pos fed, unrecorded, if_pos fed]
    exact apply_leaked hs fed h
  · rw [gap, gap, if_neg fed, unrecorded, if_neg fed, zero_add]
    by_cases fed' : Fed s'.feeds T
    · obtain before | ⟨feeder, price, cdpType, symbol, rfl, rfl⟩ := Fed.of_apply h fed'
      · exact absurd before fed
      · obtain ⟨-, rfl⟩ := upfeed_ok h
        have unfed : s.feeds.lookup symbol.code = none := by
          simpa only [Fed, Option.not_isSome_iff_eq_none] using fed
        rw [if_pos fed', missed, if_pos rfl, tracked, AList.lookup_insert, unfed]
        exact zero_sub _
    · rw [if_neg fed']
      cases a with
      | upfeed feeder price cdpType symbol =>
        obtain ⟨-, rfl⟩ := upfeed_ok h
        rw [missed, if_neg]
        rintro rfl
        exact fed' (by simp only [Fed, AList.lookup_insert, Option.isSome_some])
      | _ => rfl

/-- The gap is what the calls of the run have not recorded. -/
theorem gap_after (self : Name) (clock : Nat) (es : List Event) (T : SymbolCode) :
    gap T (after self clock es).state =
      tally (step self) (counted self (unrecorded T)) (World.genesis clock) es := by
  have raised := raised_eq (f := gap T) (g := unrecorded T) Sound.queueless
    (fun _ _ _ _ _ hs _ h => hs.apply h) (fun _ _ => rfl)
    (fun _ _ _ _ _ hs _ h => apply_unrecorded hs h) (w := World.genesis clock) Sound.empty
    (meets_true self _ es)
  rw [after, raised]
  exact zero_add _

/-- As long as no call moves balances under `T` that it does not count, the
feed of `T` counts all of them. -/
theorem circulation_counted (self : Name) (clock : Nat) (es : List Event) (T : SymbolCode)
    (recorded : Along (step self) (fun w e => counted self (unrecorded T) w e = 0)
      (World.genesis clock) es) (f : Feed)
    (feed : (after self clock es).state.feeds.lookup T = some f) :
    f.total.amount = escrowed T (after self clock es).state.accounts := by
  have none := gap_after self clock es T
  rw [tally_eq_zero recorded, gap, if_pos (Fed.of_lookup feed), tracked, feed] at none
  exact Int.eq_of_sub_eq_zero none

section

open Sample

theorem circulation_counted_nick : (0 : Int) =
    escrowed EOS.code (after daiqcontract 1000 indebted).state.accounts :=
  circulation_counted daiqcontract 1000 indebted EOS.code (by decide +kernel)
    ⟨⟨0, EOS⟩, ⟨200, USD⟩, 1000⟩ (by decide +kernel)

/-- `nick` locks 100.0000 EOS and draws 100.00 USD on it, then closes the CDP. -/
def shutOut : List Event := indebted ++ [.act [nick] (.shut nick FUD)]

/-- The collateral that `shut` hands back is not in circulation by the feed,
the stablecoin that it takes still is. -/
theorem shut_uncounted :
    (∃ f, (after daiqcontract 1000 shutOut).state.feeds.lookup EOS.code = some f ∧
      f.total.amount = 0 ∧
        escrowed EOS.code (after daiqcontract 1000 shutOut).state.accounts = 1000000) ∧
    ∃ f, (after daiqcontract 1000 shutOut).state.feeds.lookup USD.code = some f ∧
      f.total.amount = 10000 ∧
        escrowed USD.code (after daiqcontract 1000 shutOut).state.accounts = 0 :=
  ⟨⟨⟨⟨0, EOS⟩, ⟨200, USD⟩, 1000⟩, by decide +kernel, rfl, by decide +kernel⟩,
    ⟨⟨10000, USD⟩, ⟨100, USD⟩, 1000⟩, by decide +kernel, rfl, by decide +kernel⟩

end

end DecentralBank.Maker
