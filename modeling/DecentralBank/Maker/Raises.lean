import DecentralBank.Maker.Rounds

/-!
# Bids that rise

The least bid that an auction takes is the standing one and a percentage of
it, truncated to whole units and, for large bids, to a word. Bids rise by the
percentage where that drops nothing.
-/

namespace DecentralBank.Maker

open Runs

/-- The bid is larger than the standing one by `beg` percent, exactly. -/
structure Raised (beg : Nat) (standing bid : Int) : Prop where
  higher : standing < bid
  percent : standing * beg ≤ (bid - standing) * 100

/-- The percentage of the standing bid is a whole number of units, and its product fits a word. -/
def Whole (beg : Nat) (standing : Int) : Prop :=
  standing * beg % 100 = 0 ∧ standing * beg < 2 ^ 64

instance (beg : Nat) (standing : Int) : Decidable (Whole beg standing) :=
  inferInstanceAs (Decidable (_ ∧ _))

section Bids

variable {st : Stat} {standing bid : Int}

theorem minRaise_eq (st : Stat) (lo : 0 ≤ standing) (hi : standing ≤ Asset.maxAmount) :
    (minRaise st standing : Int) = standing + (u64 (standing * st.beg) / 100 : Nat) := by
  unfold Asset.maxAmount at hi
  have word : (u64 standing : Int) = standing := u64_of_lt lo (by omega)
  have percentage := u64_lt (standing * st.beg)
  rw [minRaise, word]
  exact u64_of_lt (by omega) (by omega)

theorem Raised.mono {beg : Nat} {more : Int} (h : Raised beg standing bid) (le : bid ≤ more) :
    Raised beg standing more :=
  ⟨h.higher.trans_le le, h.percent.trans (by omega)⟩

/-- The least bid that the code takes is raised by the exact percentage just when that is whole. -/
theorem least_raised_iff (lo : 0 < standing) (hi : standing ≤ Asset.maxAmount) (beg : 1 ≤ st.beg) :
    Raised st.beg standing (minRaise st standing) ↔ Whole st.beg standing := by
  have least : (minRaise st standing : Int) = _ := minRaise_eq st lo.le hi
  have product : standing ≤ standing * st.beg := by
    have := mul_le_mul_of_nonneg_left (show (1 : Int) ≤ st.beg by omega) lo.le
    omega
  have below := u64_lt (standing * st.beg)
  have congruent := u64_emod (standing * st.beg)
  constructor
  · intro raised
    have percent := raised.percent
    unfold Whole
    omega
  · intro whole
    have word : (u64 (standing * st.beg) : Int) = standing * st.beg :=
      u64_of_lt (by omega) whole.2
    have units := whole.1
    exact ⟨by omega, by omega⟩

end Bids

variable {c : Ctx} {s s' : State} {a : Action} {k : SymbolCode × Name}

/-! ## Bids are in range -/

def BidsInRange (s : State) : Prop := s.bids.All fun _ bt => bt.bidamt.amount ≤ Asset.maxAmount

section Range

variable {bidder owner : Name} {symbl : SymbolCode} {bidamt : Asset} {st : Stat}
    {it : Cdp} {lot : Lot}

theorem liquify_valid (h : liquify c s bidder owner symbl bidamt = .ok s') :
    symbl.isValid = true ∧ bidamt.isValid = true ∧ 0 < bidamt.amount := by
  simp only [liquify, Ctx.requireAuth_eq_ok, Checked.bind_eq_ok, Checked.require_eq_ok,
    exists_const] at h
  obtain ⟨-, named, valid, -⟩ := h
  exact ⟨named, valid⟩

theorem liquify_range (h : liquify c s bidder owner symbl bidamt = .ok s') :
    bidamt.amount ≤ Asset.maxAmount := by
  obtain ⟨-, valid, -⟩ := liquify_valid h
  simp only [Asset.isValid, Asset.isAmountWithinRange, Bool.and_eq_true, decide_eq_true_eq] at valid
  exact valid.1.2

/-- The bid that stands after a bid is that one or the one that stood. -/
theorem Bidding.stands (h : Bidding c s bidder owner symbl bidamt st it lot) :
    lot.bt.bidamt = bidamt ∨ s.bids.lookup (symbl, owner) = some lot.bt := by
  cases h with
  | first _ taken _ =>
    obtain ⟨_, _, -, -, rfl⟩ := firstBid_ok taken
    exact Or.inl rfl
  | next bt _ _ taken =>
    obtain ⟨_, _, _, -, -, -, -, -, rfl⟩ := outbid_ok taken
    exact Or.inl rfl
  | roll bt spent standing _ awarded taken =>
    obtain ⟨-, rfl⟩ | ⟨_, _, _, _, _, -, -, -, -, -, -, rfl⟩ := offerRemainder_ok taken
    · exact Or.inr ((award_rows awarded).2.2 ▸ standing)
    · exact Or.inl rfl

theorem BidsInRange.apply (hb : BidsInRange s) (h : Maker.apply c s a = .ok s') :
    BidsInRange s' := by
  by_cases auction : a.auctions = false
  · unfold BidsInRange
    rw [(apply_frame h).1 auction]
    exact hb
  · cases a with
    | liquify bidder owner symbl bidamt =>
      intro k bt hk
      have range := liquify_range h
      obtain ⟨_, _, _, lot, -, -, -, -, -, bidding, done⟩ := liquify_ok h
      obtain ⟨-, -, bid⟩ | ⟨rfl, ⟨-, bid⟩ | ⟨-, gone⟩⟩ := finish_lookup done k
      · exact hb k bt (bid ▸ hk)
      · cases bid.symm.trans hk
        obtain same | stood := bidding.stands
        · rw [same]
          exact range
        · exact hb _ _ stood
      · cases gone.symm.trans hk
    | _ => exact absurd rfl auction

end Range

/-- What the bids of every reachable state meet. -/
structure Ranged (s : State) : Prop where
  sound : Sound s
  auctioned : Auctioned s
  named : Named s
  bids : BidsInRange s

theorem Ranged.queueless : Queueless Ranged := fun s d h =>
  ⟨Sound.queueless s d h.sound, Auctioned.queueless s d h.auctioned,
    Named.queueless s d h.named, h.bids⟩

theorem Ranged.apply (hr : Ranged s) (h : Maker.apply c s a = .ok s') : Ranged s' :=
  ⟨hr.sound.apply h, hr.auctioned.apply hr.sound h, hr.named.apply h, hr.bids.apply h⟩

theorem ranged_after (self : Name) (clock : Nat) (es : List Event) :
    Ranged (after self clock es).state :=
  always Ranged.queueless (fun _ _ _ _ _ hr h => hr.apply h)
    ⟨Sound.empty, Auctioned.empty, Named.empty, Table.All.empty _⟩

/-! ## The least bid -/

section Least

variable {bidder owner : Name} {symbl : SymbolCode} {bidamt : Asset} {st : Stat} {row : Cdp}
  {bt : Bid}

/-- A bid that is taken on a standing one, while the round runs, of a type that
asks for one to a hundred percent. -/
structure Outbids (c : Ctx) (s : State) (bidder owner : Name) (symbl : SymbolCode) (bidamt : Asset)
    (st : Stat) (row : Cdp) (bt : Bid) : Prop where
  type : s.stats.lookup (c.self, symbl) = some st
  found : s.cdps.lookup (symbl, owner) = some row
  standing : s.bids.lookup (symbl, owner) = some bt
  running : roundOpen c st bt = true
  percent : 1 ≤ st.beg ∧ st.beg ≤ 100
  taken : (liquify c s bidder owner symbl bidamt).isOk = true

/-- The least bid that would do. -/
def leastBid (st : Stat) (bt : Bid) (bidamt : Asset) : Asset :=
  ⟨minRaise st bt.bidamt.amount, bidamt.symbol⟩

/-- `liquify` takes no bid below the least while the round runs. -/
theorem least_le (h : liquify c s bidder owner symbl bidamt = .ok s')
    (type : s.stats.lookup (c.self, symbl) = some st)
    (standing : s.bids.lookup (symbl, owner) = some bt) (running : roundOpen c st bt = true) :
    (minRaise st bt.bidamt.amount : Int) ≤ bidamt.amount := by
  obtain ⟨-, -, positive⟩ := liquify_valid h
  have range := liquify_range h
  obtain ⟨st', _, _, _, -, -, type', -, -, bidding, -⟩ := liquify_ok h
  cases type.symm.trans type'
  cases bidding with
  | first none => cases none.symm.trans standing
  | next bt' standing' _ taken =>
    cases standing.symm.trans standing'
    obtain ⟨_, _, _, -, -, above, -⟩ := outbid_ok taken
    unfold Asset.maxAmount at range
    rw [u64_of_nonneg (by omega) (by omega)] at above
    omega
  | roll bt' spent standing' expired =>
    cases standing.symm.trans standing'
    cases running.symm.trans expired

/-- Where a bid is taken the least one would be, from the same bidder, if it
leaves something to pay and no amount goes out of range. -/
theorem least_taken (hr : Ranged s)
    (h : Outbids c s bidder owner symbl bidamt st row bt)
    (left : minRaise st bt.bidamt.amount - bt.bidamt.amount ≠ row.stablecoin.amount)
    (inRange : ∀ m, liquify c s bidder owner symbl (leastBid st bt bidamt) = .error m →
      ¬ OutOfRange m) :
    (liquify c s bidder owner symbl (leastBid st bt bidamt)).isOk = true := by
  obtain ⟨hs, ha, hn, hb⟩ := hr
  obtain ⟨type, found, standing, running, -, taken⟩ := h
  obtain ⟨s', done⟩ := Checked.isOk_iff.mp taken
  obtain ⟨named, valid, positive⟩ := liquify_valid done
  have least := least_le done type standing running
  have range := liquify_range done
  have stood := (hs.bids _ _ standing).1
  have raise := minRaise_eq st stood.le (hb _ _ standing)
  have clear := unblocked_of_ok hs ha done type found
  obtain ⟨st', row', it, lot, auth, -, type', found', opened, bidding, -⟩ := liquify_ok done
  cases type.symm.trans type'
  cases found.symm.trans found'
  cases standing_unopened hs standing found opened
  cases bidding with
  | first none => cases none.symm.trans standing
  | roll bt' spent standing' expired =>
    cases standing.symm.trans standing'
    cases running.symm.trans expired
  | next bt' standing' _ taken =>
    cases standing.symm.trans standing'
    obtain ⟨_, _, _, symbol, -, -, paid, -, -⟩ := outbid_ok taken
    obtain ⟨-, own, owned, -, same, covered⟩ := subBalance_ok paid
    have word : u64 (leastBid st bt bidamt).amount = minRaise st bt.bidamt.amount :=
      u64_natCast (u64_lt _)
    have offered : Offered c s bidder owner symbl (leastBid st bt bidamt) st row := by
      refine ⟨auth, named, ?_, ?_, ⟨own, owned, same, ?_⟩, type, found,
        .next bt (standing_dead hs standing found) standing running symbol word.ge⟩
      · have inside : -Asset.maxAmount ≤ (minRaise st bt.bidamt.amount : Int) ∧
            (minRaise st bt.bidamt.amount : Int) ≤ Asset.maxAmount := by
          have := Asset.maxAmount_nonneg
          omega
        have coded := (Bool.and_eq_true_iff.mp valid).2
        exact Bool.and_eq_true_iff.mpr ⟨decide_eq_true inside, coded⟩
      · simp only [leastBid]
        omega
      · simp only [leastBid]
        omega
    have owing : row.stablecoin.amount -
        ((leastBid st bt bidamt).amount - bt.bidamt.amount) ≠ 0 := by
      simp only [leastBid]
      omega
    have nothing : outbidPrize c st row bt bidder (leastBid st bt bidamt) = [] :=
      if_neg fun paidOff => owing paidOff.1
    have unblocked : Unblocked c s bidder owner symbl (leastBid st bt bidamt) st row := by
      simp only [Unblocked, standing, running, if_true, nothing] at clear ⊢
      exact ⟨clear.1.mono (by simp), by simp [symbols]⟩
    obtain ⟨s'', done'⟩ := (liquify_inRange hs ha hn offered unblocked).succeeds inRange
    rw [done']
    rfl

/-- Every bid that would be taken in the place of one that is taken is raised by
the exact percentage, just when that is whole. -/
theorem taken_raised_iff (hr : Ranged s)
    (h : Outbids c s bidder owner symbl bidamt st row bt)
    (left : minRaise st bt.bidamt.amount - bt.bidamt.amount ≠ row.stablecoin.amount)
    (inRange : ∀ m, liquify c s bidder owner symbl (leastBid st bt bidamt) = .error m →
      ¬ OutOfRange m) :
    (∀ x, (liquify c s bidder owner symbl ⟨x, bidamt.symbol⟩).isOk = true →
      Raised st.beg bt.bidamt.amount x) ↔ Whole st.beg bt.bidamt.amount := by
  have least := least_raised_iff (hr.sound.bids _ _ h.standing).1 (hr.bids _ _ h.standing) h.percent.1
  constructor
  · intro raised
    exact least.mp (raised _ (least_taken hr h left inRange))
  · intro whole x taken
    obtain ⟨s', done⟩ := Checked.isOk_iff.mp taken
    exact (least.mpr whole).mono (least_le done h.type h.standing h.running)

end Least

/-! ## Every run -/

/-- A bid on the CDP at `k` that is taken on a standing one meets `P` of the type and of both. -/
def OnBid (k : SymbolCode × Name) (P : Stat → Int → Int → Prop) (c : Ctx) (s : State) (a : Action) :
    Prop :=
  match a with
  | .liquify bidder owner symbl bidamt =>
    (symbl, owner) = k → (liquify c s bidder owner symbl bidamt).isOk = true →
      ∀ st ∈ s.stats.lookup (c.self, symbl), ∀ bt ∈ s.bids.lookup k,
        P st bt.bidamt.amount bidamt.amount
  | _ => True

instance (k : SymbolCode × Name) (P : Stat → Int → Int → Prop) [∀ st x y, Decidable (P st x y)]
    (c : Ctx) (s : State) : (a : Action) → Decidable (OnBid k P c s a)
  | .liquify .. => inferInstanceAs (Decidable (_ → _ → ∀ _ ∈ _, ∀ _ ∈ _, P _ _ _))
  | .openCdp .. | .close .. | .shut .. | .lock .. | .bail .. | .draw .. | .wipe .. | .settle ..
  | .vote .. | .propose .. | .referended .. | .upfeed .. | .withdraw .. | .deposit .. =>
    isTrue trivial

/-- The amount of a bid on the CDP at `k`, if the event is one and it is taken. -/
def accepted (self : Name) (k : SymbolCode × Name) (w : World) : Event → Option Int
  | .act auth (.liquify bidder owner symbl bidamt) =>
    if (symbl, owner) = k ∧
        (liquify (w.ctx self auth) w.state bidder owner symbl bidamt).isOk = true
    then some bidamt.amount else none
  | _ => none

/-- The amounts of the bids on the CDP at `k` that a run takes. -/
def bidsTaken (self : Name) (k : SymbolCode × Name) : World → List Event → List Int
  | _, [] => []
  | w, e :: es => (accepted self k w e).toList ++ bidsTaken self k (step self w e) es

/-- A round that asks for one to a hundred percent, and no bid that ends it. -/
def Auctioning (k : SymbolCode × Name) (c : Ctx) (s : State) (a : Action) : Prop :=
  InRound k c s a ∧ OnBid k (fun st _ _ => 1 ≤ st.beg ∧ st.beg ≤ 100) c s a

instance (k : SymbolCode × Name) (c : Ctx) (s : State) (a : Action) :
    Decidable (Auctioning k c s a) :=
  inferInstanceAs (Decidable (_ ∧ _))

section Runs

variable {self : Name} {w : World} {e : Event} {es : List Event} {bt : Bid}

/-- A bid taken on one whose percentage is whole is raised by it. -/
theorem raised_of_whole (hr : Ranged s) (asked : Auctioning k c s a)
    (whole : OnBid k (fun st standing _ => Whole st.beg standing) c s a) :
    OnBid k (fun st => Raised st.beg) c s a := by
  cases a with
  | liquify bidder owner symbl bidamt =>
    rintro rfl taken st type bt standing
    obtain ⟨stood, row, found, -⟩ := hr.sound.bids _ bt standing
    obtain ⟨s', done⟩ := Checked.isOk_iff.mp taken
    have running := (asked.1 rfl taken st type row found bt standing).1
    have percent := asked.2 rfl taken st type bt standing
    have least := (least_raised_iff stood (hr.bids _ bt standing) percent.1).mpr
      (whole rfl taken st type bt standing)
    exact least.mono (least_le done type standing running)
  | _ => trivial

/-- The bid that stands changes with a bid that is taken and with nothing else. -/
theorem standing_step (hs : Sound w.state) (standing : w.state.bids.lookup k = some bt)
    (within : Meets self (InRound k) w e) :
    (accepted self k w e = none ∧ (step self w e).state.bids.lookup k = some bt) ∨
      ∃ bt', accepted self k w e = some bt'.bidamt.amount ∧
        (step self w e).state.bids.lookup k = some bt' ∧
        (Meets self (OnBid k fun st => Raised st.beg) w e →
          bt.bidamt.amount < bt'.bidamt.amount) := by
  obtain ⟨-, row, found, -⟩ := hs.bids k bt standing
  cases bids : e.bidsOn k with
  | false =>
    have none : accepted self k w e = none := by
      unfold accepted
      split
      · rename_i auth bidder owner symbl bidamt
        simp only [Event.bidsOn, Action.bidsOn, decide_eq_false_iff_not] at bids
        rw [if_neg fun taken => bids taken.1]
      · rfl
    refine Or.inl ⟨none, ?_⟩
    obtain ⟨q, same, -⟩ | ⟨c, q, a, called, -, applied, -⟩ := step_cases self w e
    · rw [same]
      exact standing
    · exact (auction_kept (Sound.queueless w.state q hs) applied found standing
        ((call_bidsOn called).trans bids)).2
  | true =>
    cases e with
    | act auth action =>
      cases action with
      | liquify bidder owner symbl bidamt =>
        simp only [Event.bidsOn, Action.bidsOn, decide_eq_true_eq] at bids
        subst bids
        simp only [accepted, true_and]
        cases taken : liquify (w.ctx self auth) w.state bidder owner symbl bidamt with
        | error message =>
          refine Or.inl ⟨rfl, ?_⟩
          simp only [step, World.call, apply, taken]
          exact standing
        | ok s' =>
          obtain ⟨st, _, _, accounts, type, -, -, -, -, -, written⟩ :=
            within_ok hs taken found standing (within _ rfl)
          refine Or.inr ⟨{ bt with bidder, bidamt, lastbid := (w.ctx self auth).now }, rfl, ?_, ?_⟩
          · simp only [step, World.call, apply, taken, written, AList.lookup_insert]
          · intro raised
            have ok : (liquify (w.ctx self auth) w.state bidder owner symbl bidamt).isOk =
                true := by
              rw [taken]
              rfl
            exact (raised _ rfl rfl ok st type bt standing).higher
      | _ => cases bids
    | _ => cases bids

theorem bidsTaken_increasing (hs : Sound w.state) (standing : w.state.bids.lookup k = some bt)
    (within : Along (step self) (Meets self (InRound k)) w es)
    (raised : Along (step self) (Meets self (OnBid k fun st => Raised st.beg)) w es) :
    List.IsChain (· < ·) (bt.bidamt.amount :: bidsTaken self k w es) := by
  induction es generalizing w bt with
  | nil => exact List.IsChain.singleton _
  | cons e es ih =>
    have sound : Sound (step self w e).state :=
      kept_step Sound.queueless (C := fun _ _ _ => True) (fun _ _ _ _ _ hs _ h => hs.apply h) w e hs
        fun _ _ => trivial
    obtain ⟨none, same⟩ | ⟨bt', some, moved, higher⟩ := standing_step hs standing within.1
    · rw [bidsTaken, none]
      exact ih sound same within.2 raised.2
    · rw [bidsTaken, some]
      exact List.isChain_cons_cons.mpr ⟨higher raised.1, ih sound moved within.2 raised.2⟩

end Runs

/-- From any state in which a bid stands and over any run of its round: if the percentage of each
bid that is outbid is whole, every bid that is taken is raised by it, and the bids strictly rise.
Where a bid is taken, all that would be taken in its place are so raised only if it is whole. -/
theorem bids_rise_iff (self : Name) (clock : Nat) (before : List Event) (k : SymbolCode × Name)
    (bt : Bid) (standing : (after self clock before).state.bids.lookup k = some bt) :
    (∀ es, Along (step self) (Meets self (Auctioning k)) (after self clock before) es →
      Along (step self) (Meets self (OnBid k fun st standing _ => Whole st.beg standing))
        (after self clock before) es →
      Along (step self) (Meets self (OnBid k fun st => Raised st.beg))
        (after self clock before) es ∧
      (bt.bidamt.amount :: bidsTaken self k (after self clock before) es).Pairwise (· < ·)) ∧
    ∀ e c s bidder bidamt st row,
      (after self clock before).call self e = some (c, s, .liquify bidder k.2 k.1 bidamt) →
      Outbids c s bidder k.2 k.1 bidamt st row bt →
      minRaise st bt.bidamt.amount - bt.bidamt.amount ≠ row.stablecoin.amount →
      (∀ m, liquify c s bidder k.2 k.1 (leastBid st bt bidamt) = .error m → ¬ OutOfRange m) →
      ((∀ x, (liquify c s bidder k.2 k.1 ⟨x, bidamt.symbol⟩).isOk = true →
        Raised st.beg bt.bidamt.amount x) ↔ Whole st.beg bt.bidamt.amount) := by
  have start := ranged_after self clock before
  refine ⟨fun es within whole => ?_, fun e c s bidder bidamt st row called outbids left inRange => ?_⟩
  · have raised : Along (step self) (Meets self (OnBid k fun st => Raised st.beg))
        (after self clock before) es := by
      refine (along_iff_along (C := fun _ _ => True) (I := fun w => Ranged w.state)
        (fun w e ranged asked => ?_) start (along_and within whole)).mpr (along_true _ es)
      refine Or.inl ⟨trivial, fun call called => ?_, ?_⟩
      · exact raised_of_whole (call_meets Ranged.queueless ranged called).2 (asked.1 call called)
          (asked.2 call called)
      · exact kept_step Ranged.queueless (C := fun _ _ _ => True)
          (fun _ _ _ _ _ hr _ h => hr.apply h) w e ranged fun _ _ => trivial
    have inRound := along_mono (fun _ _ asked call called => (asked call called).1) within
    exact ⟨raised, List.isChain_iff_pairwise.mp
      (bidsTaken_increasing start.sound standing inRound raised)⟩
  · have ranged := (call_meets Ranged.queueless start called).2
    exact taken_raised_iff ranged outbids left inRange

section

open Sample

/-- Each bid of `sick` and `nick` is more than a fifth larger than the last, and so is all
that `sick` could have bid first. -/
theorem bids_rise_nick :
    (bidsTaken daiqcontract (FUD, nick) (after daiqcontract 1000 underway) outbidding).Pairwise
        (· < ·) ∧
      ∀ x, (liquify ((after daiqcontract 1000 underway).ctx daiqcontract [sick])
        (after daiqcontract 1000 underway).state sick nick FUD ⟨x, USD⟩).isOk = true →
          Raised 20 5000 x := by
  have standing : (after daiqcontract 1000 underway).state.bids.lookup (FUD, nick) =
      some nickBid := by decide +kernel
  have called : (after daiqcontract 1000 underway).call daiqcontract (bidOnNick sick 6000) = some
      ((after daiqcontract 1000 underway).ctx daiqcontract [sick],
        (after daiqcontract 1000 underway).state, .liquify sick nick FUD ⟨6000, USD⟩) := rfl
  have outbids : Outbids ((after daiqcontract 1000 underway).ctx daiqcontract [sick])
      (after daiqcontract 1000 underway).state sick nick FUD ⟨6000, USD⟩
      (fudType 25000 3000000) nickAuction nickBid :=
    ⟨by decide +kernel, by decide +kernel, standing, by decide +kernel, by decide,
      by decide +kernel⟩
  have left : (minRaise (fudType 25000 3000000) nickBid.bidamt.amount : Int) -
      nickBid.bidamt.amount ≠ nickAuction.stablecoin.amount := by decide +kernel
  have succeeds : Checked.failure (liquify ((after daiqcontract 1000 underway).ctx daiqcontract
      [sick]) (after daiqcontract 1000 underway).state sick nick FUD
      (leastBid (fudType 25000 3000000) nickBid ⟨6000, USD⟩)) = none := by decide +kernel
  obtain ⟨rising, raised⟩ :=
    bids_rise_iff daiqcontract 1000 underway (FUD, nick) nickBid standing
  refine ⟨(rising outbidding (by decide +kernel) (by decide +kernel)).2.of_cons, ?_⟩
  refine (raised _ _ _ _ _ _ _ called outbids left fun m failed => ?_).mpr (by decide)
  rw [Checked.failure_eq_some.mpr failed] at succeeds
  cases succeeds

/-- On a first bid of four cents, 20 percent are no cent: `sick` bids the same again, and `nick`. -/
theorem bids_repeat :
    let before := atRisk 15000 ++ [bidOnNick nick 4]
    let es := [bidOnNick sick 4, bidOnNick nick 4]
    Along (step daiqcontract) (Meets daiqcontract (Auctioning (FUD, nick)))
        (after daiqcontract 1000 before) es ∧
      bidsTaken daiqcontract (FUD, nick) (after daiqcontract 1000 before) es = [4, 4] ∧
      ¬ Along (step daiqcontract) (Meets daiqcontract (OnBid (FUD, nick) fun st => Raised st.beg))
        (after daiqcontract 1000 before) es := by
  intro before es
  refine ⟨by decide +kernel, by decide +kernel, fun raised => ?_⟩
  have type : (after daiqcontract 1000 before).state.stats.lookup (daiqcontract, FUD) =
      some (fudType 25000 3000000) := by decide +kernel
  have standing : (after daiqcontract 1000 before).state.bids.lookup (FUD, nick) =
      some ⟨nick, ⟨4, USD⟩, 1010, 1010⟩ := by decide +kernel
  have taken : (liquify ((after daiqcontract 1000 before).ctx daiqcontract [sick])
      (after daiqcontract 1000 before).state sick nick FUD ⟨4, USD⟩).isOk =
        true := by decide +kernel
  generalize after daiqcontract 1000 before = w at raised type standing taken
  have repeated := raised.1 _ rfl rfl taken _ type _ standing
  exact absurd repeated.higher (by decide)

end

end DecentralBank.Maker
