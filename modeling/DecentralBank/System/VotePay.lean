import Mathlib.Algebra.Order.Field.Basic
import DecentralBank.Lib.Accrual
import DecentralBank.System.Tallies

/-!
# Vote pay adds up

A producer earns its votes for every second it has them, until three days after
it last claimed. All that is earned is added up in one total, which is never
computed anew; it stays the sum of what the producers have earned.
-/

namespace DecentralBank.System

open Checked Runs Tally Accrual

variable {R : Type} [Field R] {c : Ctx R} {s s' : State R} {e e' : Election R} {total total' : Account R}
  {a b : Accrued R} {k p : Name} {prod prod' : ProducerInfo R} {q q' : ProducerInfo2 R}

/-! ## What is earned -/

/-- A time, in seconds. -/
def seconds (t : Int) : R := t / 1000000

/-- A producer earns its votes as long as its row was not settled three days after its last
claim. -/
def ProducerInfo.earns (prod : ProducerInfo R) (q : ProducerInfo2 R) : R :=
  if prod.lastClaimTime + 3 * USECONDS_PER_DAY ≤ q.lastVotepayShareUpdate then 0
  else prod.totalVotes

/-- What `k` earns as a producer. -/
def Election.votePay (e : Election R) (k : Name) : Account R :=
  (e.producers2.lookup k).elim ⟨0, 0, 0⟩ fun q =>
    ⟨q.votepayShare, (e.producers.lookup k).elim 0 (·.earns q), seconds q.lastVotepayShareUpdate⟩

def Election.votePayTotal (e : Election R) : Account R :=
  ⟨e.gstate2.totalProducerVotepayShare, e.gstate3.totalVpayShareChangeRate,
    seconds e.gstate3.lastVpayStateUpdate⟩

def Election.sharers (e : Election R) : Finset Name := e.producers2.keys.toFinset

/-- What is left to settle when votes change. -/
def Accrued.due (c : Ctx R) (a : Accrued R) : Account R :=
  ⟨a.election.votePayTotal.worth (seconds c.now) - a.inactiveShare,
    a.election.votePayTotal.rate + a.changeRate, seconds c.now⟩

theorem seconds_mono [LinearOrder R] [IsStrictOrderedRing R] {t t' : Int} (later : t ≤ t') :
    (seconds t : R) ≤ seconds t' :=
  div_le_div_of_nonneg_right (Int.cast_le.mpr later) (by norm_num)

theorem votePay_some (found : e.producers.lookup p = some prod)
    (found2 : e.producers2.lookup p = some q) :
    e.votePay p = ⟨q.votepayShare, prod.earns q, seconds q.lastVotepayShareUpdate⟩ := by
  rw [Election.votePay, found2, found]
  rfl

theorem votePay_none (none : e.producers2.lookup p = none) : e.votePay p = ⟨0, 0, 0⟩ := by
  rw [Election.votePay, none]
  rfl

theorem votePay_elsewhere (producers : e'.producers = e.producers.insert p prod)
    (producers2 : e'.producers2 = e.producers2.insert p q) (apart : k ≠ p) :
    e'.votePay k = e.votePay k := by
  rw [Election.votePay, producers, producers2, Table.lookup_insert, Table.lookup_insert,
    if_neg apart, if_neg apart, Election.votePay]

theorem votePay_here (producers : e'.producers = e.producers.insert p prod)
    (producers2 : e'.producers2 = e.producers2.insert p q) :
    e'.votePay p = ⟨q.votepayShare, prod.earns q, seconds q.lastVotepayShareUpdate⟩ :=
  votePay_some (by rw [producers, Table.lookup_insert, if_pos rfl])
    (by rw [producers2, Table.lookup_insert, if_pos rfl])

variable [LinearOrder R]

/-- Doubles are not rounded. -/
structure Doubles.Arithmetic (fp : Doubles R) : Prop extends fp.Additive where
  ofInt : ∀ n, fp.ofInt n = n
  mul : ∀ x y, fp.mul x y = x * y
  div : ∀ x y, fp.div x y = x / y
  neg : ∀ x, fp.neg x = -x
  million : fp.literal 1000000 0 = 1000000

theorem secondsSince_eq (exact : c.fp.Arithmetic) (past present : Int) :
    secondsSince c past present = seconds present - seconds past := by
  unfold secondsSince seconds
  rw [exact.div, exact.ofInt, exact.million, Int.cast_sub, sub_div]

/-- All that is earned is `total`, and every producer has a row for it. -/
structure Sharing (total : Account R) (e : Election R) : Prop where
  totals : Totals total e.sharers e.votePay
  paired : ∀ k, (e.producers2.lookup k).isSome = (e.producers.lookup k).isSome
  claimed : ∀ k prod, e.producers.lookup k = some prod → prod.lastClaimTime ≠ 0
  nonneg : ∀ k q, e.producers2.lookup k = some q → 0 ≤ q.votepayShare

theorem Sharing.row (h : Sharing total e) (found : e.producers.lookup p = some prod) :
    ∃ q, e.producers2.lookup p = some q := by
  rw [← Option.isSome_iff_exists, h.paired, found]
  rfl

/-- A row of either table is written. -/
theorem Sharing.write (h : Sharing total e) (producers : e'.producers = e.producers.insert p prod)
    (producers2 : e'.producers2 = e.producers2.insert p q) {t : R}
    (rate : total'.rate = total.rate + ((e'.votePay p).rate - (e.votePay p).rate))
    (worth : total'.worth t = total.worth t + ((e'.votePay p).worth t - (e.votePay p).worth t))
    (claimed : prod.lastClaimTime ≠ 0) (nonneg : 0 ≤ q.votepayShare) : Sharing total' e' := by
  have keys : e'.sharers = insert p e.sharers := by
    rw [Election.sharers, producers2, keys_insert, Election.sharers]
  refine ⟨keys ▸ h.totals.change (fun out => ?_)
    (fun k => votePay_elsewhere producers producers2) rate worth, ?_, ?_, ?_⟩
  · exact votePay_none (AList.lookup_eq_none.mpr fun mem => out (List.mem_toFinset.mpr mem))
  · intro k
    rw [producers2, producers, Table.lookup_insert, Table.lookup_insert]
    split
    · rfl
    · exact h.paired k
  · intro k row found
    rw [producers, Table.lookup_insert] at found
    split at found
    · cases found
      exact claimed
    · exact h.claimed k row found
  · intro k row found
    rw [producers2, Table.lookup_insert] at found
    split at found
    · cases found
      exact nonneg
    · exact h.nonneg k row found

/-! ## Votes change -/

/-- No row was settled after `now`. -/
def Timely (now : Int) (e : Election R) : Prop :=
  e.producers2.All fun _ q => q.lastVotepayShareUpdate ≤ now

/-- No producer has fewer votes than none. -/
def Voted (e : Election R) : Prop := ∀ p votes, votesOf e p = some votes → 0 ≤ votes

omit [LinearOrder R] in
theorem due_worth (a : Accrued R) : (a.due c).worth (seconds c.now) =
    a.election.votePayTotal.worth (seconds c.now) - a.inactiveShare :=
  Account.worth_now (a.due c)

/-- A row is settled with what it is worth. -/
theorem updateProducer_eq (exact : c.fp.Arithmetic) {rate : R} (nonneg : 0 ≤ rate)
    (late : q.lastVotepayShareUpdate ≤ c.now) (reset : Bool) :
    let worth := q.votepayShare + rate * (seconds c.now - seconds q.lastVotepayShareUpdate)
    updateProducerVotepayShare c e p q rate reset = (worth,
      { e with producers2 := e.producers2.insert p ⟨if reset then 0 else worth, c.now⟩ }) := by
  have earned : (if c.fp.lt c.fp.zero rate ∧ q.lastVotepayShareUpdate < c.now then
      c.fp.mul rate (secondsSince c q.lastVotepayShareUpdate c.now) else c.fp.zero) =
      rate * (seconds c.now - seconds q.lastVotepayShareUpdate) := by
    simp only [exact.lt, exact.zero, decide_eq_true_eq, exact.mul, secondsSince_eq exact]
    split
    · rfl
    · rename_i nothing
      rcases nonneg.lt_or_eq with positive | none
      · have now : q.lastVotepayShareUpdate = c.now :=
          le_antisymm late (not_lt.mp fun less => nothing ⟨positive, less⟩)
        rw [now, sub_self, mul_zero]
      · rw [← none, zero_mul]
  simp only [updateProducerVotepayShare, earned]
  rw [exact.add, exact.zero]

omit [LinearOrder R] in
theorem earns_late (late : prod.lastClaimTime + 3 * USECONDS_PER_DAY ≤ q.lastVotepayShareUpdate) :
    prod.earns q = 0 := if_pos late

omit [LinearOrder R] in
theorem earns_early (early : q.lastVotepayShareUpdate < prod.lastClaimTime + 3 * USECONDS_PER_DAY) :
    prod.earns q = prod.totalVotes := if_neg (not_le.mpr early)

theorem earns_nonneg (voted : 0 ≤ prod.totalVotes) : 0 ≤ prod.earns q := by
  unfold ProducerInfo.earns
  split
  · exact le_refl 0
  · exact voted

theorem earns_le (voted : 0 ≤ prod.totalVotes) : prod.earns q ≤ prod.totalVotes := by
  unfold ProducerInfo.earns
  split
  · exact voted
  · exact le_refl _

/-- What a change of votes settles: the row of the producer is settled now, and what the row no
longer has or earns is left to the total. -/
structure Resettled (c : Ctx R) (a : Accrued R) (p : Name) (prod : ProducerInfo R)
    (q : ProducerInfo2 R) (votes : R) (b : Accrued R) (q' : ProducerInfo2 R) : Prop where
  producers : b.election.producers =
    a.election.producers.insert p { prod with totalVotes := votes }
  producers2 : b.election.producers2 = a.election.producers2.insert p q'
  gstate2 : b.election.gstate2 = a.election.gstate2
  gstate3 : b.election.gstate3 = a.election.gstate3
  now : q'.lastVotepayShareUpdate = c.now
  nonneg : 0 ≤ q'.votepayShare
  rate : b.changeRate =
    a.changeRate + (ProducerInfo.earns { prod with totalVotes := votes } q' - prod.earns q)
  inactive : b.inactiveShare = a.inactiveShare +
    ((q.votepayShare + prod.earns q * (seconds c.now - seconds q.lastVotepayShareUpdate)) -
      q'.votepayShare)

/-- A producer that has claimed within three days earns its new votes. Another earns nothing until
its next claim, and loses what it has earned when its row is first settled too late. -/
theorem revote_resettles (exact : c.fp.Arithmetic) (found2 : a.election.producers2.lookup p = some q)
    (late : q.lastVotepayShareUpdate ≤ c.now) (voted : 0 ≤ prod.totalVotes)
    (least : 0 ≤ q.votepayShare + prod.earns q * (seconds c.now - seconds q.lastVotepayShareUpdate))
    {votes delta : R} (sum : votes = prod.totalVotes + delta) :
    ∃ q', Resettled c a p prod q votes (a.revote c p prod votes delta) q' := by
  rcases lt_or_ge c.now (prod.lastClaimTime + 3 * USECONDS_PER_DAY) with early | crossed
  · have before : q.lastVotepayShareUpdate < prod.lastClaimTime + 3 * USECONDS_PER_DAY :=
      late.trans_lt early
    rw [earns_early before] at least
    simp only [Accrued.revote, Accrued.accrue, found2, not_le.mpr early, not_le.mpr before,
      decide_false, Bool.false_and, Bool.not_false, if_true, Bool.false_eq_true, if_false,
      updateProducer_eq exact voted late]
    refine ⟨_, rfl, rfl, rfl, rfl, rfl, least, ?_, ?_⟩
    · simp only [exact.add]
      rw [earns_early before, earns_early early, sum, add_sub_cancel_left]
    · rw [earns_early before, sub_self, add_zero]
  · have idle (share : R) : ProducerInfo.earns { prod with totalVotes := votes } ⟨share, c.now⟩ = 0 :=
      earns_late crossed
    rcases lt_or_ge q.lastVotepayShareUpdate (prod.lastClaimTime + 3 * USECONDS_PER_DAY) with
      before | after
    · simp only [Accrued.revote, Accrued.accrue, found2, crossed, not_le.mpr before, decide_true,
        decide_false, Bool.not_true, Bool.not_false, Bool.and_self, if_true, Bool.false_eq_true,
        if_false, updateProducer_eq exact voted late]
      refine ⟨_, rfl, rfl, rfl, rfl, rfl, le_refl 0, ?_, ?_⟩
      · simp only [exact.sub]
        rw [idle, earns_early before, zero_sub, sub_eq_add_neg]
      · simp only [exact.add]
        rw [earns_early before, sub_zero]
    · rw [earns_late after] at least
      simp only [Accrued.revote, Accrued.accrue, found2, crossed, after, decide_true, Bool.not_true,
        Bool.and_false, if_true, Bool.false_eq_true, if_false, exact.zero,
        updateProducer_eq exact (le_refl 0) late]
      refine ⟨_, rfl, rfl, rfl, rfl, rfl, least, ?_, ?_⟩
      · rw [idle, earns_late after, sub_self, add_zero]
      · rw [earns_late after, sub_self, add_zero]

/-- The votes of a producer change, and what it has earned is settled. -/
theorem revote_sharing [IsStrictOrderedRing R] (exact : c.fp.Arithmetic)
    (h : Sharing (a.due c) a.election) (timely : Timely c.now a.election)
    (found : a.election.producers.lookup p = some prod) (voted : 0 ≤ prod.totalVotes)
    {votes delta : R} (sum : votes = prod.totalVotes + delta) :
    Sharing ((a.revote c p prod votes delta).due c) (a.revote c p prod votes delta).election ∧
      Timely c.now (a.revote c p prod votes delta).election := by
  obtain ⟨q, found2⟩ := h.row found
  have late : q.lastVotepayShareUpdate ≤ c.now := timely p q found2
  have earned : 0 ≤ prod.earns q := earns_nonneg voted
  have least : 0 ≤ q.votepayShare +
      prod.earns q * (seconds c.now - seconds q.lastVotepayShareUpdate) :=
    Account.worth_nonneg (a := ⟨q.votepayShare, prod.earns q, seconds q.lastVotepayShareUpdate⟩)
      (h.nonneg p q found2) earned (seconds_mono late)
  obtain ⟨q', settled⟩ := revote_resettles exact found2 late voted least sum
  have before := votePay_some found found2
  have after := votePay_here settled.producers settled.producers2
  have total : (a.revote c p prod votes delta).election.votePayTotal = a.election.votePayTotal := by
    rw [Election.votePayTotal, settled.gstate2, settled.gstate3, Election.votePayTotal]
  refine ⟨h.write (t := seconds c.now) settled.producers settled.producers2 ?_ ?_
    (h.claimed p prod found) settled.nonneg, ?_⟩
  · rw [before, after]
    simp only [Accrued.due, total, settled.rate]
    ring
  · rw [before, after, due_worth, due_worth, total, settled.inactive]
    simp only [Account.worth, settled.now]
    ring
  · rw [Timely, settled.producers2]
    exact timely.insert settled.now.le

variable [IsStrictOrderedRing R]

/-! ## The total is settled -/

/-- What the producers have earned is the total, and nothing was settled after `now`. -/
structure Shared (now : Int) (e : Election R) : Prop where
  sharing : Sharing e.votePayTotal e
  rows : Timely now e
  total : e.gstate3.lastVpayStateUpdate ≤ now

omit [IsStrictOrderedRing R] in
theorem Sharing.congr (h : Sharing total e) (producers : e'.producers = e.producers)
    (producers2 : e'.producers2 = e.producers2) : Sharing total e' := by
  have same : e'.votePay = e.votePay := by
    funext k
    rw [Election.votePay, producers, producers2, Election.votePay]
  refine ⟨?_, producers ▸ producers2 ▸ h.paired, producers ▸ h.claimed, producers2 ▸ h.nonneg⟩
  rw [same, Election.sharers, producers2]
  exact h.totals

omit [IsStrictOrderedRing R] in
theorem Shared.congr {now : Int} (h : Shared now e) (producers : e'.producers = e.producers)
    (producers2 : e'.producers2 = e.producers2)
    (share : e'.gstate2.totalProducerVotepayShare = e.gstate2.totalProducerVotepayShare)
    (gstate3 : e'.gstate3 = e.gstate3) : Shared now e' := by
  have same : e'.votePayTotal = e.votePayTotal := by
    rw [Election.votePayTotal, share, gstate3, Election.votePayTotal]
  refine ⟨same ▸ h.sharing.congr producers producers2, ?_, gstate3 ▸ h.total⟩
  rw [Timely, producers2]
  exact h.rows

omit [IsStrictOrderedRing R] in
theorem Voted.congr (voted : Voted e) (producers : e'.producers = e.producers) : Voted e' := by
  intro p votes there
  rw [votesOf, producers] at there
  exact voted p votes there

omit [IsStrictOrderedRing R] in
theorem Sharing.rate_nonneg (voted : Voted e) (k : Name) : 0 ≤ (e.votePay k).rate := by
  unfold Election.votePay
  cases e.producers2.lookup k with
  | none => exact le_refl 0
  | some q =>
    cases found : e.producers.lookup k with
    | none => exact le_refl 0
    | some prod =>
      have votes := voted k prod.totalVotes (by rw [votesOf, found]; rfl)
      exact earns_nonneg votes

theorem Sharing.worth_nonneg (h : Sharing total e) (voted : Voted e) {now : Int}
    (timely : Timely now e) (k : Name) : 0 ≤ (e.votePay k).worth (seconds now) := by
  cases found : e.producers2.lookup k with
  | none =>
    rw [votePay_none found, Account.worth, zero_mul, add_zero]
  | some q =>
    refine Account.worth_nonneg ?_ (Sharing.rate_nonneg voted k) ?_
    · rw [Election.votePay, found]
      exact h.nonneg k q found
    · rw [Election.votePay, found]
      exact seconds_mono (timely k q found)

omit [IsStrictOrderedRing R] in
theorem shrinkToZero_eq [IsOrderedAddMonoid R] (exact : c.fp.Additive) (negates : ∀ x, c.fp.neg x = -x)
    {x delta : R} (least : 0 ≤ x + delta) : shrinkToZero c x delta = x + delta := by
  unfold shrinkToZero
  rw [exact.add, exact.lt, exact.lt, negates, if_neg]
  rw [Bool.and_eq_true, decide_eq_true_eq, decide_eq_true_eq]
  exact fun short => not_lt.mpr least (lt_neg_iff_add_neg.mp short.2)

/-- The total is brought up to date. -/
theorem updateTotal_eq (exact : c.fp.Arithmetic) (late : e.gstate3.lastVpayStateUpdate ≤ c.now)
    {additional rate : R} (least : 0 ≤ e.votePayTotal.worth (seconds c.now) + additional)
    (leastRate : 0 ≤ e.votePayTotal.rate + rate) :
    updateTotalVotepayShare c e additional rate =
      (e.votePayTotal.worth (seconds c.now) + additional, { e with
        gstate2 := { e.gstate2 with
          totalProducerVotepayShare := e.votePayTotal.worth (seconds c.now) + additional }
        gstate3 := ⟨c.now, e.votePayTotal.rate + rate⟩ }) := by
  have passed : (if e.gstate3.lastVpayStateUpdate < c.now then
      c.fp.mul e.gstate3.totalVpayShareChangeRate
        (secondsSince c e.gstate3.lastVpayStateUpdate c.now) else c.fp.zero) =
      e.gstate3.totalVpayShareChangeRate *
        (seconds c.now - seconds e.gstate3.lastVpayStateUpdate) := by
    rw [exact.mul, secondsSince_eq exact, exact.zero]
    split
    · rfl
    · rename_i now
      rw [le_antisymm late (not_lt.mp now), sub_self, mul_zero]
  replace leastRate : 0 ≤ e.gstate3.totalVpayShareChangeRate + rate := leastRate
  simp only [Account.worth, Election.votePayTotal] at least ⊢
  simp only [updateTotalVotepayShare, passed]
  rw [add_assoc] at least ⊢
  rw [exact.add, shrinkToZero_eq exact.toAdditive exact.neg least,
    shrinkToZero_eq exact.toAdditive exact.neg leastRate]

theorem settle_shared (exact : c.fp.Arithmetic) (h : Sharing (a.due c) a.election)
    (timely : Timely c.now a.election) (voted : Voted a.election)
    (late : a.election.gstate3.lastVpayStateUpdate ≤ c.now) : Shared c.now (a.settle c) := by
  have least : 0 ≤ (a.due c).worth (seconds c.now) :=
    h.totals.nonneg fun k _ => h.worth_nonneg voted timely k
  have leastRate : 0 ≤ (a.due c).rate := h.totals.rate_nonneg fun k _ => Sharing.rate_nonneg voted k
  rw [due_worth, sub_eq_add_neg] at least
  have settled := updateTotal_eq exact late least leastRate
  rw [← exact.neg] at settled
  have same : (a.settle c).votePayTotal = a.due c := by
    rw [Accrued.settle, settled, exact.neg, ← sub_eq_add_neg]
    rfl
  rw [Accrued.settle, settled] at same ⊢
  refine ⟨same ▸ h.congr rfl rfl, timely, le_refl _⟩

/-! ## Loops over producers -/

omit [IsStrictOrderedRing R] in
theorem start_due (exact : c.fp.Arithmetic) (h : Shared c.now e) :
    Sharing ((Accrued.start c e).due c) e := by
  refine { h.sharing with totals := h.sharing.totals.congr (t := seconds c.now) ?_ ?_ }
  · simp only [Accrued.due, Accrued.start, exact.zero, add_zero]
  · rw [due_worth]
    simp only [Accrued.start, exact.zero, sub_zero]

/-- The total is not touched in a loop. -/
theorem revote_total {D : Type} {c : Ctx D} {a : Accrued D} {prod : ProducerInfo D} {votes delta : D} :
    (a.revote c p prod votes delta).election.gstate3 = a.election.gstate3 := by
  unfold Accrued.revote
  obtain ⟨rows, same⟩ := accrue_rows (c := c) (a := { a with election := { a.election with
    producers := a.election.producers.insert p { prod with totalVotes := votes }
    gstate := { a.election.gstate with
      totalProducerVoteWeight :=
        c.fp.add a.election.gstate.totalProducerVoteWeight delta } } }) p prod delta
  simp only [same]

/-- The state of a loop over producers whose votes change. -/
structure Settling (c : Ctx R) (a : Accrued R) : Prop where
  sharing : Sharing (a.due c) a.election
  rows : Timely c.now a.election
  total : a.election.gstate3.lastVpayStateUpdate ≤ c.now

omit [IsStrictOrderedRing R] in
theorem Settling.start (exact : c.fp.Arithmetic) (h : Shared c.now e) :
    Settling c (Accrued.start c e) :=
  ⟨start_due exact h, h.rows, h.total⟩

theorem Settling.revote (exact : c.fp.Arithmetic) (h : Settling c a)
    (found : a.election.producers.lookup p = some prod) (voted : 0 ≤ prod.totalVotes)
    {votes delta : R} (sum : votes = prod.totalVotes + delta) :
    Settling c (a.revote c p prod votes delta) := by
  obtain ⟨sharing, rows⟩ := revote_sharing exact h.sharing h.rows found voted sum
  refine ⟨sharing, rows, ?_⟩
  rw [revote_total]
  exact h.total

theorem Settling.shared (exact : c.fp.Arithmetic) (h : Settling c a) (voted : Voted a.election) :
    Shared c.now (a.settle c) := settle_shared exact h.sharing h.rows voted h.total

/-- Each producer of a voter has its votes shifted once. -/
theorem shiftVotes_settling (exact : c.fp.Arithmetic) {delta : R} {producers : List Name}
    (distinct : producers.Nodup)
    (voted : ∀ p ∈ producers, ∀ votes, votesOf a.election p = some votes → 0 ≤ votes)
    (h : Settling c a) (looped : producers.foldlM (shiftVotes c delta) a = .ok b) :
    Settling c b := by
  induction producers generalizing a with
  | nil =>
    cases pure_eq_ok.mp looped
    exact h
  | cons q rest ih =>
    obtain ⟨apart, distinct⟩ := List.nodup_cons.mp distinct
    simp only [List.foldlM_cons, shiftVotes, bind_eq_ok, find_eq_ok, pure_eq_ok] at looped
    obtain ⟨_, ⟨prod, found, rfl⟩, looped⟩ := looped
    have sum : c.fp.add prod.totalVotes delta = prod.totalVotes + delta := exact.add _ _
    have once := revote_revoted exact.toAdditive found sum
    refine ih distinct (fun p mem votes there => ?_)
      (h.revote exact found (voted q List.mem_cons_self _ (votesOf_some found)) sum) looped
    have other : p ≠ q := fun here => apart (here ▸ mem)
    rw [once.votes, if_neg other] at there
    simp only [add_zero, Option.map_id'] at there
    exact voted p (List.mem_cons_of_mem _ mem) votes there

/-- No votes are cut off at zero, neither before nor after a change. -/
theorem applyDelta_settling (exact : c.fp.Arithmetic) {voting : Bool} {deltas : Deltas R}
    (ordered : Ordered deltas) (voted : Voted a.election)
    (least : ∀ p votes, votesOf a.election p = some votes → 0 ≤ votes + shiftOf deltas p)
    (h : Settling c a) (looped : deltas.foldlM (applyDelta c voting) a = .ok b) : Settling c b := by
  induction deltas generalizing a with
  | nil =>
    cases pure_eq_ok.mp looped
    exact h
  | cons d rest ih =>
    obtain ⟨name, change, isNew⟩ := d
    have ordered' := (List.pairwise_cons.mp ordered).2
    simp only [List.foldlM_cons, bind_eq_ok] at looped
    obtain ⟨turned, turn, looped⟩ := looped
    rcases applyDelta_ok exact.toAdditive (ordered.own ▸ least name) turn with ⟨none, rfl⟩ |
      ⟨prod, found, nonneg, rfl⟩
    · refine ih ordered' voted (fun p votes there => ?_) h looped
      have sum := least p votes there
      rw [shiftOf] at sum
      split at sum
      · rename_i here
        cases none.symm.trans (here ▸ there)
      · rwa [zero_add] at sum
    · have revoted : Revoted (fun p => if p = name then change else 0) a.election _ :=
        revote_revoted exact.toAdditive found rfl
      refine ih ordered' (fun p votes there => ?_) (fun p votes there => ?_)
        (h.revote exact found (voted name _ (votesOf_some found)) rfl) looped
      · rw [revoted.votes] at there
        obtain ⟨old, before, rfl⟩ := Option.map_eq_some_iff.mp there
        split
        · rename_i here
          rw [here, votesOf_some found] at before
          cases before
          exact nonneg
        · rw [add_zero]
          exact voted p old before
      · rw [revoted.votes] at there
        obtain ⟨old, before, rfl⟩ := Option.map_eq_some_iff.mp there
        have sum := least p old before
        rw [shiftOf] at sum
        rw [add_assoc]
        exact sum

end DecentralBank.System
