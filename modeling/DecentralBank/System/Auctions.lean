import DecentralBank.Lib.Index
import DecentralBank.System.Dispatch
import DecentralBank.System.Payments

/-!
# Name auctions lose no bid

What `eosio.names` has is what is bid, what is to be refunded and what the
names that were won were claimed for.
-/

namespace DecentralBank.System

open Checked Runs

variable {D : Type} {c : Ctx D} {s s' : State D} {core : Symbol} {a : Action}
    {bidder newname : Name}

/-! ## What a call does to the auctions -/

abbrev Refunds := Table (Name × Name) Asset

/-- What a bidder can have back for a name. -/
def due (refunds : Refunds) (newname bidder : Name) : Int :=
  Ledger.held Asset.amount refunds (newname, bidder)

/-- What a call does to bids, refunds and accounts when it goes through. -/
inductive Effect (core : Symbol) (s : State D) : Action → State D → Prop
  | first {bidder newname bid token} (now : Int) (known : bidder ∈ s.accounts)
      (fresh : newname ∉ s.accounts) (none : s.namebids.lookup newname = none)
      (symbol : bid.symbol = core) (paid : Paid s bidder NAMES_ACCOUNT bid token) :
      Effect core s (.bidname bidder newname bid)
        { s with token, namebids := s.namebids.insert newname ⟨bidder, bid.amount, now⟩ }
  | outbid {bidder newname bid token current refund} (now : Int) (known : bidder ∈ s.accounts)
      (fresh : newname ∉ s.accounts) (found : s.namebids.lookup newname = some current)
      (active : 0 < current.highBid) (symbol : bid.symbol = core)
      (paid : Paid s bidder NAMES_ACCOUNT bid token)
      (sum : refund.amount = due s.bidrefunds newname current.highBidder + current.highBid)
      (range : refund.amount ≤ Asset.maxAmount) (refunded : refund.symbol = core) :
      Effect core s (.bidname bidder newname bid) { s with
        token
        bidrefunds := s.bidrefunds.insert (newname, current.highBidder) refund
        namebids := s.namebids.insert newname ⟨bidder, bid.amount, now⟩ }
  | refund {bidder newname amount token}
      (found : s.bidrefunds.lookup (newname, bidder) = some amount)
      (paid : Paid s NAMES_ACCOUNT bidder amount token) :
      Effect core s (.bidrefund bidder newname)
        { s with token, bidrefunds := s.bidrefunds.erase (newname, bidder) }
  | create {creator newact userres} (fresh : newact ∉ s.accounts) :
      Effect core s (.newaccount creator newact)
        { s with userres, accounts := newact :: s.accounts }
  | claim {creator newact userres current} (fresh : newact ∉ s.accounts)
      (found : s.namebids.lookup newact = some current) (closed : current.highBid < 0) :
      Effect core s (.newaccount creator newact) { s with
        userres
        accounts := newact :: s.accounts
        namebids := s.namebids.erase newact }
  | block {slot producer e} : Effect core s (.onblock slot producer) { s with toElection := e }
  | close {slot producer e newname row} (found : s.namebids.lookup newname = some row)
      (active : 0 < row.highBid) :
      Effect core s (.onblock slot producer) { s with
        toElection := e
        namebids := s.namebids.insert newname { row with highBid := -row.highBid } }

theorem displace_ok {refunds refunds' : Refunds} {bid : Asset}
    (range : bid.amount ≤ Asset.maxAmount)
    (h : displace refunds newname bidder bid = .ok refunds') :
    ∃ refund, refunds' = refunds.insert (newname, bidder) refund ∧ refund.symbol = bid.symbol ∧
      refund.amount = due refunds newname bidder + bid.amount ∧
        refund.amount ≤ Asset.maxAmount := by
  unfold displace at h
  unfold due
  cases found : refunds.lookup (newname, bidder) with
  | none =>
    simp only [found, pure_eq_ok] at h
    subst h
    exact ⟨bid, rfl, rfl, by rw [Ledger.held_none found, zero_add], range⟩
  | some amount =>
    simp only [found, bind_eq_ok, Asset.add_eq_ok, pure_eq_ok] at h
    obtain ⟨_, ⟨same, -, high, rfl⟩, rfl⟩ := h
    exact ⟨_, rfl, same.symm, by rw [Ledger.held_some found], high⟩

theorem bidname_effect {bid : Asset} (market : s.coreSymbol = .ok core)
    (sound : Token.Conserved s.token) (known : ∀ account ∈ c.auth, account ∈ s.accounts)
    (h : bidname c s bidder newname bid = .ok s') :
    Effect core s (.bidname bidder newname bid) s' := by
  simp only [bidname, bind_eq_ok, Ctx.requireAuth_eq_ok, require_eq_ok, exists_const,
    State.isAccount, decide_eq_false_iff_not] at h
  obtain ⟨signed, -, -, -, -, fresh, core', same, symbol, -, paid, sent, h⟩ := h
  cases market.symm.trans same
  obtain ⟨token, rfl, paid⟩ := State.pay_paid sent sound
  cases found : s.namebids.lookup newname with
  | none =>
    simp only [found, pure_eq_ok] at h
    subst h
    exact .first c.now (known _ signed) fresh found symbol paid
  | some current =>
    simp only [found, bind_eq_ok, require_eq_ok, exists_const, Asset.make_eq_ok, pure_eq_ok] at h
    obtain ⟨active, -, -, _, ⟨range, -, rfl⟩, refunds, displaced, rfl⟩ := h
    obtain ⟨refund, rfl, refunded, sum, high⟩ := displace_ok range.2 displaced
    exact .outbid c.now (known _ signed) fresh found active symbol paid sum high refunded

theorem bidrefund_effect (sound : Token.Conserved s.token)
    (h : bidrefund s bidder newname = .ok s') :
    Effect core s (.bidrefund bidder newname) s' := by
  simp only [bidrefund, bind_eq_ok, find_eq_ok, pure_eq_ok] at h
  obtain ⟨amount, found, paid, sent, rfl⟩ := h
  obtain ⟨token, rfl, paid⟩ := State.pay_paid sent sound
  exact .refund found paid

theorem newaccount_effect {creator newact : Name} (h : newaccount c s creator newact = .ok s') :
    Effect core s (.newaccount creator newact) s' := by
  simp only [newaccount, claimName, bind_eq_ok, Ctx.requireAuth_eq_ok, require_eq_ok, exists_const,
    State.isAccount, decide_eq_false_iff_not, ite_eq_ok, pure_eq_ok, find_eq_ok] at h
  obtain ⟨-, fresh, claimed, named, _, -, _, -, -, rfl⟩ := h
  rcases named with ⟨-, ⟨-, current, found, -, closed, rfl⟩ | ⟨-, -, rfl⟩⟩ | ⟨-, rfl⟩
  · exact .claim fresh found closed
  · exact .create fresh
  · exact .create fresh

/-- The rows in the order they are kept. -/
def bidRows (bids : Table Name NameBid) : List (Name × NameBid) :=
  bids.entries.map fun e => (e.1, e.2)

theorem mem_bidRows {bids : Table Name NameBid} {row : NameBid} :
    (newname, row) ∈ bidRows bids ↔ bids.lookup newname = some row := by
  simp [bidRows, Table.lookup_iff_mem]

theorem highestBid_first (bids : Table Name NameBid) :
    First (fun e => e.2.byHighBid) ((2 ^ 64 - 1) / 2) (bidRows bids) (highestBid bids) := by
  refine foldl_first (fun rows best row h => ?_) bids.entries
  split
  · rename_i below
    exact h.pass below
  · rename_i above
    cases best with
    | none => exact h.take (not_lt.mp above) nofun
    | some b =>
      simp only
      split
      · rename_i less
        refine h.take (not_lt.mp above) fun b' same => ?_
        cases same
        rcases less with lower | ⟨tied, -⟩
        · exact lower.le
        · exact tied.le
      · rename_i less
        exact h.keep (not_lt.mp fun lower => less (Or.inl lower))

/-- The highest bid is a row of the table. -/
theorem highestBid_found {bids : Table Name NameBid} {highest : NameBid}
    (h : highestBid bids = some (newname, highest)) : bids.lookup newname = some highest := by
  have first := highestBid_first bids
  rw [h] at first
  exact mem_bidRows.mp first.1

/-- A bid is turned negative, if any is. -/
def Closes (bids bids' : Table Name NameBid) : Prop :=
  bids' = bids ∨ ∃ newname row, bids.lookup newname = some row ∧ 0 < row.highBid ∧
    bids' = bids.insert newname { row with highBid := -row.highBid }

theorem closeAuction_ok (slot : Nat) : ∃ close bids, Closes s.namebids bids ∧
    closeAuction c s slot =
      { s with gstate := { s.gstate with lastNameClose := close }, namebids := bids } := by
  unfold closeAuction
  split
  · rename_i newname row highest
    split
    · rename_i old
      exact ⟨slot, _, Or.inr ⟨newname, row, highestBid_found highest, old.1, rfl⟩, rfl⟩
    · exact ⟨s.gstate.lastNameClose, s.namebids, Or.inl rfl, rfl⟩
  · exact ⟨s.gstate.lastNameClose, s.namebids, Or.inl rfl, rfl⟩

theorem everyMinute_ok (slot : Nat) : ∃ update close bids, Closes s.namebids bids ∧
    everyMinute c s slot = { s with
      gstate := { s.gstate with lastProducerScheduleUpdate := update, lastNameClose := close }
      namebids := bids } := by
  unfold everyMinute
  split
  · simp only
    split
    · obtain ⟨close, bids, closed, same⟩ := closeAuction_ok (c := c) (s := { s with
        gstate := { s.gstate with lastProducerScheduleUpdate := slot } }) slot
      exact ⟨slot, close, bids, closed, same⟩
    · exact ⟨slot, s.gstate.lastNameClose, s.namebids, Or.inl rfl, rfl⟩
  · exact ⟨s.gstate.lastProducerScheduleUpdate, s.gstate.lastNameClose, s.namebids, Or.inl rfl, rfl⟩

/-- A block is counted for its producer, if the chain is active and the producer registered. -/
structure Produced (e : Election D) (producer : Name) (e' : Election D) : Prop where
  perblock : e'.gstate.perblockBucket = e.gstate.perblockBucket
  pervote : e'.gstate.pervoteBucket = e.gstate.pervoteBucket
  revision : e'.gstate2.revision = e.gstate2.revision
  counted : (e'.producers = e.producers ∧
    e'.gstate.totalUnpaidBlocks = e.gstate.totalUnpaidBlocks) ∨
    ∃ prod, e.producers.lookup producer = some prod ∧
      e'.producers = e.producers.insert producer
        { prod with unpaidBlocks := u32 ((prod.unpaidBlocks : Int) + 1) } ∧
      e'.gstate.totalUnpaidBlocks = u32 ((e.gstate.totalUnpaidBlocks : Int) + 1)

theorem onblock_ok {slot : Nat} {producer : Name} (h : onblock c s slot producer = .ok s') :
    ∃ e bids, Closes s.namebids bids ∧ Produced s.toElection producer e ∧
      s' = { s with toElection := e, namebids := bids } := by
  simp only [onblock, bind_eq_ok, Ctx.requireAuth_eq_ok, exists_const, ite_eq_ok, pure_eq_ok] at h
  obtain ⟨-, ⟨-, rfl⟩ | ⟨-, rfl⟩⟩ := h
  · refine ⟨_, s.namebids, Or.inl rfl, ?_, rfl⟩
    exact ⟨rfl, rfl, rfl, Or.inl ⟨rfl, rfl⟩⟩
  · cases found : s.producers.lookup producer with
    | none =>
      simp only [countBlock, found]
      obtain ⟨update, close, bids, closed, same⟩ := everyMinute_ok (c := c) slot
      rw [same]
      refine ⟨_, bids, closed, ?_, rfl⟩
      exact ⟨rfl, rfl, rfl, Or.inl ⟨rfl, rfl⟩⟩
    | some prod =>
      simp only [countBlock, found]
      obtain ⟨update, close, bids, closed, same⟩ := everyMinute_ok (c := c) slot
      rw [same]
      refine ⟨_, bids, closed, ?_, rfl⟩
      exact ⟨rfl, rfl, rfl, Or.inr ⟨prod, found, rfl, rfl⟩⟩

theorem onblock_effect {slot : Nat} {producer : Name} (h : onblock c s slot producer = .ok s') :
    Effect core s (.onblock slot producer) s' := by
  obtain ⟨e, bids, closed, -, rfl⟩ := onblock_ok h
  rcases closed with rfl | ⟨newname, row, found, active, rfl⟩
  · exact .block
  · exact .close found active

/-- Bids, refunds, new accounts and blocks. -/
def Action.auctions : Action → Bool
  | .bidname .. | .bidrefund .. | .newaccount .. | .onblock .. => true
  | _ => false

theorem perform_effect {self : Name} {call : Call D} (market : s.coreSymbol = .ok core)
    (sound : Token.Conserved s.token) (auctions : call.action.auctions = true)
    (h : perform self s call = .ok s') : Effect core s call.action s' := by
  obtain ⟨known, h⟩ := perform_ok h
  generalize call.action = action at *
  cases action <;> try cases auctions
  case bidname bidder newname bid => exact bidname_effect market sound known h
  case bidrefund bidder newname => exact bidrefund_effect sound h
  case newaccount creator newact => exact newaccount_effect h
  case onblock slot producer => exact onblock_effect h

/-! ## Bids and refunds -/

/-- An account that can be paid in core tokens. -/
structure Payable (core : Symbol) (accounts : List Name)
    (stats : Table SymbolCode Token.CurrencyStats) (bidder : Name) : Prop where
  known : bidder ∈ accounts
  apart : NAMES_ACCOUNT ≠ bidder
  valid : core.isValid = true
  dealt : ∃ st, stats.lookup core.code = some st ∧ core = st.supply.symbol

/-- Bids and refunds are of amounts that can be paid back. -/
structure Fair (core : Symbol) (s : State D) : Prop where
  market : s.coreSymbol = .ok core
  token : Token.Conserved s.token
  bids : s.namebids.All fun _ b => 0 < |b.highBid| ∧ |b.highBid| ≤ Asset.maxAmount ∧
    Payable core s.accounts s.token.stats b.highBidder
  refunds : s.bidrefunds.All fun key a => a.symbol = core ∧ 0 < a.amount ∧
    a.amount ≤ Asset.maxAmount ∧ Payable core s.accounts s.token.stats key.2

theorem Payable.mono {accounts accounts' : List Name} {stats : Table SymbolCode Token.CurrencyStats}
    (h : Payable core accounts stats bidder) (grown : accounts ⊆ accounts') :
    Payable core accounts' stats bidder :=
  ⟨grown h.known, h.apart, h.valid, h.dealt⟩

theorem Paid.payable {bid : Asset} {token : Token.State}
    (paid : Paid s bidder NAMES_ACCOUNT bid token)
    (symbol : bid.symbol = core) (known : bidder ∈ s.accounts) :
    Payable core s.accounts token.stats bidder := by
  refine ⟨known, paid.apart.symm, symbol ▸ paid.valid, ?_⟩
  rw [paid.stats, ← symbol]
  exact paid.dealt

/-- What is neither bid nor to be refunded may change. -/
theorem Fair.extend {e : Election D} {userres : Table Name UserResources} {accounts : List Name}
    {token : Token.State} (hs : Fair core s) (grown : s.accounts ⊆ accounts)
    (stats : token.stats = s.token.stats) (sound : Token.Conserved token) :
    Fair core { s with toElection := e, userres, accounts, token } := by
  refine ⟨hs.market, sound, fun k b found => ?_, fun k a found => ?_⟩
  · obtain ⟨positive, range, payable⟩ := hs.bids k b found
    rw [← stats] at payable
    exact ⟨positive, range, payable.mono grown⟩
  · obtain ⟨symbol, positive, range, payable⟩ := hs.refunds k a found
    rw [← stats] at payable
    exact ⟨symbol, positive, range, payable.mono grown⟩

theorem Fair.due_nonneg (hs : Fair core s) (newname bidder : Name) :
    0 ≤ due s.bidrefunds newname bidder := by
  unfold due
  cases found : s.bidrefunds.lookup (newname, bidder) with
  | none => rw [Ledger.held_none found]
  | some amount =>
    rw [Ledger.held_some found]
    exact (hs.refunds _ _ found).2.1.le

theorem Fair.effect (hs : Fair core s) (h : Effect core s a s') : Fair core s' := by
  cases h with
  | @first bidder newname bid token now known fresh none symbol paid =>
    have paying : Fair core { s with token } := hs.extend (List.Subset.refl _) paid.stats paid.sound
    have amount : |bid.amount| = bid.amount := abs_of_pos paid.positive
    refine ⟨paying.market, paying.token, Table.All.insert paying.bids ?_, paying.refunds⟩
    rw [amount]
    exact ⟨paid.positive, paid.range, paid.payable symbol known⟩
  | @outbid bidder newname bid token current refund now known fresh found active symbol
      paid sum range
      refunded =>
    have paying : Fair core { s with token } := hs.extend (List.Subset.refl _) paid.stats paid.sound
    have amount : |bid.amount| = bid.amount := abs_of_pos paid.positive
    have before := hs.due_nonneg newname current.highBidder
    obtain ⟨-, -, payable⟩ := paying.bids _ _ found
    refine ⟨paying.market, paying.token, Table.All.insert paying.bids ?_,
      Table.All.insert paying.refunds ⟨refunded, by omega, range, payable⟩⟩
    rw [amount]
    exact ⟨paid.positive, paid.range, paid.payable symbol known⟩
  | @refund bidder newname amount token found paid =>
    have paying : Fair core { s with token } := hs.extend (List.Subset.refl _) paid.stats paid.sound
    exact ⟨paying.market, paying.token, paying.bids, Table.All.erase paying.refunds _⟩
  | create fresh => exact hs.extend (List.subset_cons_self _ _) rfl hs.token
  | @claim creator newact userres current fresh found closed =>
    have grown : Fair core { s with userres, accounts := newact :: s.accounts } :=
      hs.extend (List.subset_cons_self _ _) rfl hs.token
    exact ⟨grown.market, grown.token, Table.All.erase grown.bids _, grown.refunds⟩
  | block => exact hs.extend (List.Subset.refl _) rfl hs.token
  | @close slot producer e newname row found active =>
    obtain ⟨positive, range, payable⟩ := hs.bids _ _ found
    refine ⟨hs.market, hs.token, Table.All.insert hs.bids ?_, hs.refunds⟩
    rw [abs_neg]
    exact ⟨positive, range, payable⟩

/-! ## What is promised -/

/-- All refunds that are due. -/
def refundable (refunds : Refunds) : Int := refunds.total fun _ a => a.amount

/-- All bids, those of closed auctions too. -/
def offered (bids : Table Name NameBid) : Int := bids.total fun _ b => |b.highBid|

/-- The winning bid of the name that a call, which leaves `s'`, creates. -/
def claimed (s : State D) (a : Action) (s' : State D) : Int :=
  match a with
  | .newaccount _ newact =>
    if s'.namebids.lookup newact = none then s.namebids.weightAt (fun _ b => |b.highBid|) newact
    else 0
  | _ => 0

/-- The bid of `bidder` on `newname` that a call outdoes. -/
def displaced (newname bidder : Name) (s : State D) (a : Action) (_ : State D) : Int :=
  match a with
  | .bidname _ name _ =>
    if name = newname then
      s.namebids.weightAt (fun _ b => if b.highBidder = bidder then b.highBid else 0) name
    else 0
  | _ => 0

/-- What `bidder` receives from a refund of its bids on `newname`. -/
def refunded (core : Symbol) (newname bidder : Name) (s : State D) (a : Action)
    (s' : State D) : Int :=
  match a with
  | .bidrefund account name =>
    if account = bidder ∧ name = newname then
      s'.balance bidder core.code - s.balance bidder core.code
    else 0
  | _ => 0

theorem claimed_nonneg (s : State D) (a : Action) (s' : State D) : 0 ≤ claimed s a s' := by
  unfold claimed
  split
  · rename_i creator newact
    split
    · cases found : s.namebids.lookup newact with
      | none => rw [Table.weightAt_none found]
      | some b =>
        rw [Table.weightAt_some found]
        exact abs_nonneg _
    · exact le_refl 0
  · exact le_refl 0

/-- What `eosio.names` has beyond the refunds and the bids grows by the names that are claimed. -/
theorem Effect.reserve (hs : Fair core s) (h : Effect core s a s') :
    s'.balance NAMES_ACCOUNT core.code - (refundable s'.bidrefunds + offered s'.namebids) =
      s.balance NAMES_ACCOUNT core.code - (refundable s.bidrefunds + offered s.namebids) +
        claimed s a s' := by
  unfold claimed
  cases h with
  | @first bidder newname bid token now known fresh none symbol paid =>
    have balance := paid.received symbol
    have amount : |bid.amount| = bid.amount := abs_of_pos paid.positive
    simp only [State.balance, offered, Table.total_insert, Table.weightAt_none none] at balance ⊢
    omega
  | @outbid bidder newname bid token current refund now known fresh found active symbol
      paid sum range
      same =>
    have balance := paid.received symbol
    have amount : |bid.amount| = bid.amount := abs_of_pos paid.positive
    have outdone : |current.highBid| = current.highBid := abs_of_pos active
    simp only [State.balance, offered, refundable, Table.total_insert,
      Table.weightAt_some found, due, Ledger.held] at balance sum ⊢
    omega
  | @refund bidder newname amount token found paid =>
    have balance := paid.spent (hs.refunds _ _ found).1
    simp only [State.balance, refundable, Table.total_erase, Table.weightAt_some found] at balance ⊢
    omega
  | @create creator newact userres fresh =>
    simp only [State.balance]
    split
    · rename_i none
      rw [Table.weightAt_none none, add_zero]
    · rw [add_zero]
  | @claim creator newact userres current fresh found closed =>
    simp only [State.balance, offered, Table.total_erase, Table.weightAt_some found,
      AList.lookup_erase, if_true]
    ring
  | block => simp only [State.balance, add_zero]
  | @close slot producer e newname row found active =>
    simp only [State.balance, offered, Table.total_insert, Table.weightAt_some found,
      abs_neg, add_zero]
    ring

/-- What is due to a bidder for a name grows by its bids outdone, and shrinks by its refunds. -/
theorem Effect.due (hs : Fair core s) (h : Effect core s a s') (newname bidder : Name) :
    due s'.bidrefunds newname bidder = due s.bidrefunds newname bidder +
      (displaced newname bidder s a s' - refunded core newname bidder s a s') := by
  unfold displaced refunded System.due
  cases h with
  | @first account name bid token now known fresh none symbol paid =>
    simp only [Table.weightAt_none none, ite_self, sub_zero, add_zero]
  | @outbid account name bid token current refund now known fresh found active symbol paid sum range
      same =>
    simp only [Ledger.held_insert, Prod.mk.injEq, Table.weightAt_some found, sub_zero]
    by_cases here : newname = name ∧ bidder = current.highBidder
    · obtain ⟨rfl, rfl⟩ := here
      rw [if_pos ⟨rfl, rfl⟩, if_pos rfl, if_pos rfl, sum]
      rfl
    · rw [if_neg here]
      by_cases named : name = newname
      · have other : current.highBidder ≠ bidder := fun own => here ⟨named.symm, own.symm⟩
        rw [if_pos named, if_neg other, add_zero]
      · rw [if_neg named, add_zero]
  | @refund account name amount token found paid =>
    obtain ⟨symbol, -⟩ := hs.refunds _ _ found
    simp only [Ledger.held_erase, Prod.mk.injEq, zero_sub]
    by_cases here : newname = name ∧ bidder = account
    · obtain ⟨rfl, rfl⟩ := here
      have balance := paid.received symbol
      rw [if_pos ⟨rfl, rfl⟩, if_pos ⟨rfl, rfl⟩, Ledger.held_some found]
      simp only [State.balance] at balance ⊢
      rw [balance]
      ring
    · have other : ¬ (account = bidder ∧ name = newname) := fun own => here ⟨own.2.symm, own.1.symm⟩
      rw [if_neg here, if_neg other, neg_zero, add_zero]
  | create | claim | block | close => simp only [sub_zero, add_zero]

/-! ## Closed auctions -/

/-- The auction is closed as it was, or its name is an account. -/
def Shut (newname : Name) (row : NameBid) (s : State D) : Prop :=
  s.namebids.lookup newname = some row ∨ (s.namebids.lookup newname = none ∧ newname ∈ s.accounts)

theorem Shut.inactive {row current : NameBid} (shut : Shut newname row s) (closed : row.highBid < 0)
    (found : s.namebids.lookup newname = some current) : ¬ 0 < current.highBid := by
  rcases shut with there | ⟨gone, -⟩
  · rw [found] at there
    cases there
    omega
  · rw [found] at gone
    cases gone

/-- Nobody can bid in a closed auction. -/
theorem Shut.unbiddable {row : NameBid} {bid : Asset} (shut : Shut newname row s)
    (closed : row.highBid < 0) : ¬ Effect core s (.bidname bidder newname bid) s' := by
  intro h
  cases h with
  | first now known fresh none symbol paid =>
    rcases shut with found | ⟨-, taken⟩
    · rw [none] at found
      cases found
    · exact fresh taken
  | outbid now known fresh found active symbol paid sum range same =>
    exact shut.inactive closed found active

theorem Shut.effect {row : NameBid} (shut : Shut newname row s) (closed : row.highBid < 0)
    (h : Effect core s a s') : Shut newname row s' := by
  cases h with
  | @first bidder name bid token now known fresh none symbol paid =>
    have other : newname ≠ name := by
      rintro rfl
      exact shut.unbiddable closed (.first now known fresh none symbol paid)
    simpa only [Shut, Table.lookup_insert, if_neg other] using shut
  | @outbid bidder name bid token current refund now known fresh found active symbol paid
      sum range same =>
    have other : newname ≠ name := by
      rintro rfl
      exact shut.inactive closed found active
    simpa only [Shut, Table.lookup_insert, if_neg other] using shut
  | refund => exact shut
  | create => exact shut.imp id fun gone => ⟨gone.1, List.mem_cons_of_mem _ gone.2⟩
  | @claim creator newact userres current fresh found won =>
    by_cases here : newname = newact
    · subst here
      exact Or.inr ⟨by rw [Table.lookup_erase, if_pos rfl], List.mem_cons_self⟩
    · simp only [Shut, Table.lookup_erase, if_neg here]
      exact shut.imp id fun gone => ⟨gone.1, List.mem_cons_of_mem _ gone.2⟩
  | block => exact shut
  | @close slot producer e name current found active =>
    have other : newname ≠ name := by
      rintro rfl
      exact shut.inactive closed found active
    simpa only [Shut, Table.lookup_insert, if_neg other] using shut

/-! ## Refunds that are due -/

theorem toString_size (n : Name) : n.toString.utf8ByteSize ≤ 52 := by
  unfold Name.toString
  refine (utf8ByteSize_ofList_le _).trans ?_
  have shorter :=
    (List.dropWhile_suffix (fun c => decide (c = '.'))
      (l := (((List.range 12).map fun i => n.charAt (59 - 5 * i)) ++ [n.value % 16]).map
        (fun i => Name.chars.getD i '.') |>.reverse)).length_le
  simp only [List.length_reverse, List.length_map, List.length_append, List.length_range,
    List.length_singleton] at shorter ⊢
  omega

theorem Fair.due_le (hs : Fair core s) (newname bidder : Name) :
    due s.bidrefunds newname bidder ≤ refundable s.bidrefunds := by
  have rest : 0 ≤ refundable (s.bidrefunds.erase (newname, bidder)) :=
    Table.total_nonneg fun k a found => (hs.refunds.erase _ k a found).2.1.le
  rw [refundable, Table.total_erase] at rest
  unfold due Ledger.held refundable
  omega

/-- A bidder has back what is due to it, all at once. -/
theorem Fair.refund (hs : Fair core s)
    (covered : refundable s.bidrefunds ≤ s.balance NAMES_ACCOUNT core.code) :
    ((∃ s', bidrefund s bidder newname = .ok s') ↔ 0 < due s.bidrefunds newname bidder) ∧
      ∀ s', bidrefund s bidder newname = .ok s' →
        s'.balance bidder core.code = s.balance bidder core.code + due s.bidrefunds newname bidder ∧
          due s'.bidrefunds newname bidder = 0 := by
  have part := hs.due_le newname bidder
  unfold due at part ⊢
  cases found : s.bidrefunds.lookup (newname, bidder) with
  | none =>
    have fails (s' : State D) : bidrefund s bidder newname ≠ .ok s' := by
      intro h
      simp only [bidrefund, bind_eq_ok, find_eq_ok, found] at h
      obtain ⟨_, none, -⟩ := h
      cases none
    rw [Ledger.held_none found]
    exact ⟨iff_of_false (fun h => fails _ h.choose_spec) (lt_irrefl 0),
      fun s' h => absurd h (fails s')⟩
  | some amount =>
    obtain ⟨symbol, positive, range, payable⟩ := hs.refunds _ _ found
    rw [Ledger.held_some found] at part ⊢
    obtain ⟨st, token, same⟩ := payable.dealt
    refine ⟨iff_of_true ?_ positive, fun s' h => ?_⟩
    · have short : ("refund bid on name " ++ newname.toString).utf8ByteSize ≤ 256 := by
        have name := toString_size newname
        have text : "refund bid on name ".utf8ByteSize = 19 := by decide
        rw [String.utf8ByteSize_append, text]
        omega
      obtain ⟨paid, sent⟩ := State.pay_succeeds hs.token (symbol ▸ token) (symbol.trans same)
        (symbol ▸ payable.valid) positive range short payable.known payable.apart
        (by rw [symbol]; exact part.trans covered)
      refine ⟨{ paid with bidrefunds := paid.bidrefunds.erase (newname, bidder) }, ?_⟩
      simp only [bidrefund, bind_eq_ok, find_eq_ok, pure_eq_ok]
      exact ⟨amount, found, paid, sent, rfl⟩
    · have effect : Effect core s (.bidrefund bidder newname) s' := bidrefund_effect hs.token h
      cases effect with
      | @refund _ _ amount' token found' paid =>
        cases found.symm.trans found'
        refine ⟨paid.received symbol, ?_⟩
        rw [Ledger.held_erase, if_pos rfl]

/-! ## Every run -/

section

variable {self : Name} {calls : List (Call D)}

theorem Fair.run (hs : Fair core s) (auctions : ∀ call ∈ calls, call.action.auctions = true) :
    Fair core (run (step self) s calls) := by
  refine run_invariant (I := Fair core) (fun s call hs auction => ?_) hs
    (along_of_forall auctions s)
  exact step_keeps hs fun s' done => hs.effect (perform_effect hs.market hs.token auction done)

/-- What grows by `g` with the effect of a call grows in a run by what is counted. -/
theorem Fair.counts (hs : Fair core s) (auctions : ∀ call ∈ calls, call.action.auctions = true)
    {f : State D → Int} {g : State D → Action → State D → Int}
    (moved : ∀ (s : State D) a s', Fair core s → Effect core s a s' → f s' = f s + g s a s') :
    f (Runs.run (step self) s calls) = f s + tally (step self) (counted self g) s calls := by
  refine run_tally_eq (I := Fair core) (fun s call hs auction => ?_)
    (fun s call hs auction => ?_) hs
    (along_of_forall auctions s)
  · exact step_keeps hs fun s' done => hs.effect (perform_effect hs.market hs.token auction done)
  · exact step_counts fun s' done =>
      moved s _ s' hs (perform_effect hs.market hs.token auction done)

theorem Shut.run {row : NameBid} (shut : Shut newname row s) (closed : row.highBid < 0)
    (hs : Fair core s) (auctions : ∀ call ∈ calls, call.action.auctions = true) :
    Shut newname row (Runs.run (step self) s calls) := by
  refine (run_invariant (I := fun s => Fair core s ∧ Shut newname row s)
    (fun s call hs auction => ?_) ⟨hs, shut⟩ (along_of_forall auctions s)).2
  refine step_keeps (P := fun s => Fair core s ∧ Shut newname row s) hs fun s' done => ?_
  have effect := perform_effect hs.1.market hs.1.token auction done
  exact ⟨hs.1.effect effect, hs.2.effect closed effect⟩

end

theorem bids_kept (self : Name) (s : State D) (market : s.coreSymbol = .ok core)
    (token : Token.Conserved s.token) (unbid : s.namebids = ∅) (settled : s.bidrefunds = ∅)
    (calls : List (Call D)) (auctions : ∀ call ∈ calls, call.action.auctions = true) :
    let t := run (step self) s calls
    t.balance NAMES_ACCOUNT core.code - s.balance NAMES_ACCOUNT core.code =
        refundable t.bidrefunds + offered t.namebids +
          tally (step self) (counted self claimed) s calls ∧
      (∀ newname bidder, due t.bidrefunds newname bidder =
        tally (step self) (counted self (displaced newname bidder)) s calls -
          tally (step self) (counted self (refunded core newname bidder)) s calls) ∧
      (∀ newname bidder,
        ((∃ t', bidrefund t bidder newname = .ok t') ↔ 0 < due t.bidrefunds newname bidder) ∧
          ∀ t', bidrefund t bidder newname = .ok t' →
            t'.balance bidder core.code =
              t.balance bidder core.code + due t.bidrefunds newname bidder ∧
              due t'.bidrefunds newname bidder = 0) ∧
      ∀ newname row, t.namebids.lookup newname = some row → row.highBid < 0 →
        ∀ later : List (Call D), (∀ call ∈ later, call.action.auctions = true) →
          Shut newname row (run (step self) t later) ∧
            ∀ (call : Call D) bidder bid t', call.action = .bidname bidder newname bid →
              perform self (run (step self) t later) call ≠ .ok t' := by
  intro t
  have start : Fair core s := by
    refine ⟨market, token, ?_, ?_⟩
    · rw [unbid]
      exact Table.All.empty _
    · rw [settled]
      exact Table.All.empty _
  have fair : Fair core t := start.run auctions
  have none : refundable s.bidrefunds + offered s.namebids = 0 := by
    rw [settled, unbid]
    rfl
  have reserve : t.balance NAMES_ACCOUNT core.code -
      (refundable t.bidrefunds + offered t.namebids) = _ :=
    start.counts (g := claimed) auctions fun s a s' hs h => h.reserve hs
  have kept : t.balance NAMES_ACCOUNT core.code - s.balance NAMES_ACCOUNT core.code =
      refundable t.bidrefunds + offered t.namebids +
        tally (step self) (counted self claimed) s calls := by
    omega
  refine ⟨kept, fun newname bidder => ?_, fun newname bidder => fair.refund ?_,
    fun newname row found closed later auctions' => ?_⟩
  · have moved : due t.bidrefunds newname bidder = due s.bidrefunds newname bidder +
        tally (step self) (counted self fun s a s' => displaced newname bidder s a s' -
          refunded core newname bidder s a s') s calls :=
      start.counts (f := fun s => due s.bidrefunds newname bidder) auctions
        fun s a s' hs h => h.due hs newname bidder
    simp only [counted_sub, tally_sub] at moved
    have nothing : due s.bidrefunds newname bidder = 0 := by
      rw [settled]
      rfl
    rw [nothing, zero_add] at moved
    exact moved
  · have claims : 0 ≤ tally (step self) (counted self claimed) s calls := by
      refine tally_nonneg (fun s call => ?_) s calls
      unfold counted
      split
      · exact claimed_nonneg _ _ _
      · exact le_refl 0
    have bids : 0 ≤ offered t.namebids := Table.total_nonneg fun _ _ _ => abs_nonneg _
    have own : 0 ≤ s.balance NAMES_ACCOUNT core.code := token.rows.held _ _
    omega
  · have fair' : Fair core (run (step self) t later) := fair.run auctions'
    have shut : Shut newname row (run (step self) t later) :=
      Shut.run (Or.inl found) closed fair auctions'
    refine ⟨shut, fun call bidder bid t' action h => ?_⟩
    have effect := perform_effect fair'.market fair'.token (by rw [action]; rfl) h
    rw [action] at effect
    exact shut.unbiddable closed effect

section

open Sample

def com : Name := ⟨4982107087778611200⟩

/-- A chain that was activated when it began. -/
def launched : State Int :=
  { activated with gstate := { activated.gstate with threshActivatedStakeTime := 1 } }

/-- `dick` and `nick` outbid each other twice, `dick` has his bids back, and `nick` wins. -/
def bidding : List (Call Int) :=
  [call dick 2000000 (.bidname dick com (eos 100)),
    call nick 2000001 (.bidname nick com (eos 200)),
    call dick 2000002 (.bidname dick com (eos 300)),
    call nick 2000003 (.bidname nick com (eos 400)),
    call dick 2000004 (.bidrefund dick com),
    call eosio 2100000 (.onblock 4200000 eosio),
    call rick 2100001 (.bidname rick com (eos 1000)),
    call nick 2100002 (.newaccount nick com)]

theorem bidding_kept :
    let t := run (step eosio) launched bidding
    t.balance NAMES_ACCOUNT EOS.code - launched.balance NAMES_ACCOUNT EOS.code = 600 ∧
      due t.bidrefunds com nick = 200 ∧
      tally (step eosio) (counted eosio claimed) launched bidding = 400 := by
  intro t
  have market : launched.coreSymbol = .ok EOS := rfl
  obtain ⟨kept, -⟩ := bids_kept eosio launched market ledger_conserved rfl rfl bidding (by decide)
  have refunds : refundable t.bidrefunds = 200 := by decide +kernel
  have bids : offered t.namebids = 0 := by decide +kernel
  have claims : tally (step eosio) (counted eosio claimed) launched bidding = 400 := by
    decide +kernel
  refine ⟨kept.trans ?_, by decide +kernel, claims⟩
  rw [refunds, bids, claims]
  rfl

end

end DecentralBank.System
