import DecentralBank.System.BandwidthSteps
import DecentralBank.System.Dispatch
import DecentralBank.System.Payments

/-!
# Stake is conserved

What an account has staked is what it has delegated, what a receiver can use
is what was delegated to it, and all of it, with the refunds that are due, is
in the hands of `eosio.stake`.
-/

namespace DecentralBank.System

open Checked Runs

variable {D : Type}

def DelegatedBandwidth.weight (r : DelegatedBandwidth) : Int :=
  r.netWeight.amount + r.cpuWeight.amount

def RefundRequest.due (r : RefundRequest) : Int := r.netAmount.amount + r.cpuAmount.amount

abbrev Delegations := Table (Name × Name) DelegatedBandwidth

/-- What `u` has delegated. -/
def delegatedBy (d : Delegations) (u : Name) : Int :=
  d.total fun k r => if k.1 = u then r.weight else 0

/-- The net weight, or the cpu weight, delegated to `r`. -/
def delegatedTo (part : DelegatedBandwidth → Asset) (d : Delegations) (r : Name) : Int :=
  d.total fun k row => if k.2 = r then (part row).amount else 0

def locked (d : Delegations) : Int := d.total fun _ r => r.weight

def pending (refunds : Table Name RefundRequest) : Int := refunds.total fun _ r => r.due

/-- What `u` has staked for voting. -/
def stakedBy (e : Election D) (u : Name) : Int := ((e.standing u).map Standing.staked).getD 0

/-- The weight a receiver can use. -/
def usableBy (part : UserResources → Asset) (userres : Table Name UserResources) (r : Name) : Int :=
  Ledger.held (fun row => (part row).amount) userres r

/-- Refunds are of core tokens, and not negative. -/
def Dues (core : Symbol) (refunds : Table Name RefundRequest) : Prop :=
  refunds.All fun _ r => (r.netAmount.symbol = core ∧ 0 ≤ r.netAmount.amount) ∧
    r.cpuAmount.symbol = core ∧ 0 ≤ r.cpuAmount.amount

/-- Delegated weights are not negative. -/
def Bands (d : Delegations) : Prop :=
  d.All fun _ r => 0 ≤ r.netWeight.amount ∧ 0 ≤ r.cpuWeight.amount

/-- The tables of stake agree, and `eosio.stake` has `spare` beside what they say. -/
structure Backed (core : Symbol) (spare : Int) (s : State D) : Prop where
  market : s.coreSymbol = .ok core
  token : Token.Conserved s.token
  bands : Bands s.delband
  dues : Dues core s.refunds
  staked : ∀ u, stakedBy s.toElection u = delegatedBy s.delband u
  net : ∀ r, usableBy (·.netWeight) s.userres r = delegatedTo (·.netWeight) s.delband r
  cpu : ∀ r, usableBy (·.cpuWeight) s.userres r = delegatedTo (·.cpuWeight) s.delband r
  reserve : s.balance STAKE_ACCOUNT core.code = spare + locked s.delband + pending s.refunds
  nonneg : 0 ≤ spare

/-! ## The parts of `changebw` -/

variable {c : Ctx D} {s s' : State D} {core : Symbol} {spare : Int} {d d' : Delegations}
  {userres userres' : Table Name UserResources} {owner receiver source : Name}
  {net cpu netBalance cpuBalance : Asset} {transfer toSelf : Bool}

/-- One row of `delband` changes, by the change of stake. -/
theorem updateDelegated_ok (h : updateDelegated d owner receiver net cpu = .ok d') :
    (∀ j, j ≠ (owner, receiver) → d'.lookup j = d.lookup j) ∧
      Ledger.held (fun r => r.netWeight.amount) d' (owner, receiver) =
        Ledger.held (fun r => r.netWeight.amount) d (owner, receiver) + net.amount ∧
      Ledger.held (fun r => r.cpuWeight.amount) d' (owner, receiver) =
        Ledger.held (fun r => r.cpuWeight.amount) d (owner, receiver) + cpu.amount ∧
      ∀ r, d'.lookup (owner, receiver) = some r → 0 ≤ r.netWeight.amount ∧
        0 ≤ r.cpuWeight.amount := by
  simp only [updateDelegated, bind_eq_ok, require_eq_ok, exists_const, ite_eq_ok, pure_eq_ok] at h
  obtain ⟨row, sum, netStake, cpuStake, written⟩ := h
  have sums : row.netWeight.amount =
        Ledger.held (fun r => r.netWeight.amount) d (owner, receiver) + net.amount ∧
      row.cpuWeight.amount =
        Ledger.held (fun r => r.cpuWeight.amount) d (owner, receiver) + cpu.amount := by
    cases found : d.lookup (owner, receiver) with
    | none =>
      simp only [found, pure_eq_ok] at sum
      rw [← sum, Ledger.held_none found, Ledger.held_none found, zero_add, zero_add]
      exact ⟨rfl, rfl⟩
    | some old =>
      simp only [found, bind_eq_ok, Asset.add_eq_ok, pure_eq_ok] at sum
      obtain ⟨_, ⟨-, -, -, rfl⟩, _, ⟨-, -, -, rfl⟩, rfl⟩ := sum
      rw [Ledger.held_some found, Ledger.held_some found]
      exact ⟨rfl, rfl⟩
  rw [← sums.1, ← sums.2]
  rcases written with ⟨⟨noNet, noCpu⟩, rfl⟩ | ⟨-, rfl⟩
  · refine ⟨fun j other => ?_, ?_, ?_, fun r found => ?_⟩
    · rw [Table.lookup_erase, if_neg other]
    · rw [Ledger.held_erase, if_pos rfl, noNet]
    · rw [Ledger.held_erase, if_pos rfl, noCpu]
    · exact absurd rfl (Table.of_lookup_erase found).1
  · refine ⟨fun j other => ?_, ?_, ?_, fun r found => ?_⟩
    · rw [Table.lookup_insert, if_neg other]
    · rw [Ledger.held_insert, if_pos rfl]
    · rw [Ledger.held_insert, if_pos rfl]
    · rw [Table.lookup_insert, if_pos rfl] at found
      cases found
      exact ⟨netStake, cpuStake⟩

theorem updateTotals_ok (h : updateTotals userres receiver net cpu = .ok userres') (r : Name) :
    usableBy (·.netWeight) userres' r =
        usableBy (·.netWeight) userres r + (if receiver = r then net.amount else 0) ∧
      usableBy (·.cpuWeight) userres' r =
        usableBy (·.cpuWeight) userres r + (if receiver = r then cpu.amount else 0) := by
  simp only [updateTotals, bind_eq_ok, require_eq_ok, exists_const, ite_eq_ok, pure_eq_ok] at h
  obtain ⟨row, sum, -, -, written⟩ := h
  have sums : row.netWeight.amount = usableBy (·.netWeight) userres receiver + net.amount ∧
      row.cpuWeight.amount = usableBy (·.cpuWeight) userres receiver + cpu.amount := by
    unfold usableBy
    cases found : userres.lookup receiver with
    | none =>
      simp only [found, pure_eq_ok] at sum
      rw [← sum, Ledger.held_none found, Ledger.held_none found, zero_add, zero_add]
      exact ⟨rfl, rfl⟩
    | some old =>
      simp only [found, bind_eq_ok, Asset.add_eq_ok, pure_eq_ok] at sum
      obtain ⟨_, ⟨-, -, -, rfl⟩, _, ⟨-, -, -, rfl⟩, rfl⟩ := sum
      rw [Ledger.held_some found, Ledger.held_some found]
      exact ⟨rfl, rfl⟩
  by_cases here : receiver = r
  · subst here
    rw [if_pos rfl, if_pos rfl, ← sums.1, ← sums.2]
    unfold usableBy
    rcases written with ⟨⟨noNet, noCpu, -⟩, rfl⟩ | ⟨-, rfl⟩
    · rw [Ledger.held_erase, Ledger.held_erase, if_pos rfl, if_pos rfl, noNet, noCpu]
      exact ⟨rfl, rfl⟩
    · rw [Ledger.held_insert, Ledger.held_insert, if_pos rfl, if_pos rfl]
      exact ⟨rfl, rfl⟩
  · have other : r ≠ receiver := fun same => here same.symm
    rw [if_neg here, if_neg here, add_zero, add_zero]
    unfold usableBy
    rcases written with ⟨-, rfl⟩ | ⟨-, rfl⟩
    · rw [Ledger.held_erase, Ledger.held_erase, if_neg other, if_neg other]
      exact ⟨rfl, rfl⟩
    · rw [Ledger.held_insert, Ledger.held_insert, if_neg other, if_neg other]
      exact ⟨rfl, rfl⟩

/-- What is left of a refund, less what is left of the change, is the refund less the change. -/
theorem drainRefund_ok {pending balance left rest : Asset}
    (h : drainRefund pending balance = .ok (left, rest)) :
    left.amount - rest.amount = pending.amount - balance.amount ∧
      0 ≤ left.amount ∧ 0 ≤ rest.amount ∧
      balance.symbol = pending.symbol ∧ left.symbol = pending.symbol ∧
      rest.symbol = pending.symbol := by
  simp only [drainRefund, bind_eq_ok, Asset.sub_eq_ok, ite_eq_ok, pure_eq_ok, Prod.mk.injEq] at h
  obtain ⟨_, ⟨same, -, -, rfl⟩, ⟨short, rfl, rfl⟩ | ⟨enough, rfl, rfl⟩⟩ := h
  · change pending.amount - balance.amount < 0 at short
    refine ⟨?_, le_refl 0, ?_, same, rfl, rfl⟩
    · simp only [Asset.neg]
      omega
    · simp only [Asset.neg]
      omega
  · exact ⟨by simp only [sub_zero], not_lt.mp enough, le_refl 0, same, rfl, same⟩

theorem openRefund_ok {balance amount rest : Asset} (same : balance.symbol = core)
    (h : openRefund core balance = .ok (amount, rest)) :
    amount.amount - rest.amount = -balance.amount ∧ 0 ≤ amount.amount ∧ 0 ≤ rest.amount ∧
      amount.symbol = core ∧ rest.symbol = core := by
  simp only [openRefund, ite_eq_ok, bind_eq_ok, Asset.make_eq_ok, pure_eq_ok, Prod.mk.injEq, not_lt]
    at h
  obtain ⟨negative, rfl, rfl⟩ | ⟨rest, _, ⟨-, -, rfl⟩, rfl, rfl⟩ := h
  · refine ⟨?_, ?_, le_refl 0, same, same⟩
    · simp only [Asset.neg, sub_zero]
    · simp only [Asset.neg]
      omega
  · exact ⟨by simp only [zero_sub], le_refl 0, rest, rfl, same⟩

/-- What is due moves by what is left to be paid, less the change of stake. -/
theorem updateRefund_ok {refunds : Table Name RefundRequest} (market : s.coreSymbol = .ok core)
    (dues : Dues core s.refunds) (netSymbol : net.symbol = core)
    (cpuSymbol : cpu.symbol = core)
    (h : updateRefund c s owner net cpu toSelf = .ok (refunds, netBalance, cpuBalance)) :
    pending refunds = pending s.refunds + (netBalance.amount + cpuBalance.amount) -
        (net.amount + cpu.amount) ∧
      0 ≤ netBalance.amount + cpuBalance.amount ∧ netBalance.symbol = core ∧ Dues core refunds := by
  unfold updateRefund at h
  obtain ⟨-, h⟩ | ⟨grows, h⟩ := ite_eq_ok.mp h
  · cases found : s.refunds.lookup owner with
    | some req =>
      obtain ⟨⟨netCore, -⟩, cpuCore, -⟩ := dues _ _ found
      simp only [found, bind_eq_ok, require_eq_ok, exists_const, pure_eq_ok, Prod.exists,
        Prod.mk.injEq] at h
      obtain ⟨netAmount, _, netDrained, cpuAmount, _, cpuDrained, -, -, rfl, rfl, rfl⟩ := h
      obtain ⟨netSum, netLeft, netRest, -, netKept, netPaid⟩ := drainRefund_ok netDrained
      obtain ⟨cpuSum, cpuLeft, cpuRest, -, cpuKept, -⟩ := drainRefund_ok cpuDrained
      have before : s.refunds.weightAt (fun _ r => r.due) owner = req.due :=
        Table.weightAt_some found
      refine ⟨?_, by omega, netPaid.trans netCore, ?_⟩
      · unfold pending
        split
        · rw [Table.total_erase, before, RefundRequest.due]
          omega
        · rw [Table.total_insert, before]
          simp only [RefundRequest.due]
          omega
      · split
        · exact Table.All.erase dues _
        · exact Table.All.insert dues
            ⟨⟨netKept.trans netCore, netLeft⟩, cpuKept.trans cpuCore, cpuLeft⟩
    | none =>
      simp only [found, ite_eq_ok, bind_eq_ok, pure_eq_ok, Prod.exists, Prod.mk.injEq] at h
      obtain ⟨-, core', known, netAmount, _, netOpened, cpuAmount, _, cpuOpened, rfl, rfl, rfl⟩ |
        ⟨grows, rfl, rfl, rfl⟩ := h
      · cases market.symm.trans known
        obtain ⟨netSum, netLeft, netRest, netKept, netPaid⟩ := openRefund_ok netSymbol netOpened
        obtain ⟨cpuSum, cpuLeft, cpuRest, cpuKept, -⟩ := openRefund_ok cpuSymbol cpuOpened
        refine ⟨?_, by omega, netPaid, ?_⟩
        · rw [pending, Table.total_insert, ← pending, Table.weightAt_none found]
          simp only [RefundRequest.due]
          omega
        · exact Table.All.insert dues ⟨⟨netKept, netLeft⟩, cpuKept, cpuLeft⟩
      · exact ⟨by omega, by omega, netSymbol, dues⟩
  · simp only [pure_eq_ok, Prod.mk.injEq] at h
    obtain ⟨rfl, rfl, rfl⟩ := h
    exact ⟨by omega, by omega, netSymbol, dues⟩

/-! ## A change of stake -/

theorem delegatedBy_le (bands : Bands d) (u : Name) :
    0 ≤ delegatedBy d u ∧ delegatedBy d u ≤ locked d := by
  constructor
  · refine Table.total_nonneg fun k r found => ?_
    have := bands k r found
    split
    · unfold DelegatedBandwidth.weight
      omega
    · omega
  · refine Table.total_le fun k r found => ?_
    have := bands k r found
    unfold DelegatedBandwidth.weight
    split
    · omega
    · omega

theorem pending_nonneg {refunds : Table Name RefundRequest} (dues : Dues core refunds) :
    0 ≤ pending refunds := by
  refine Table.total_nonneg fun k r found => ?_
  have := dues k r found
  unfold RefundRequest.due
  omega

/-- The sums over `delband` move by the change of stake. -/
theorem sums_move (bands : Bands d) (h : updateDelegated d owner receiver net cpu = .ok d') :
    Bands d' ∧ locked d' = locked d + (net.amount + cpu.amount) ∧
      (∀ u, delegatedBy d' u = delegatedBy d u + if owner = u then net.amount + cpu.amount else 0) ∧
      (∀ r, delegatedTo (·.netWeight) d' r =
        delegatedTo (·.netWeight) d r + if receiver = r then net.amount else 0) ∧
      ∀ r, delegatedTo (·.cpuWeight) d' r =
        delegatedTo (·.cpuWeight) d r + if receiver = r then cpu.amount else 0 := by
  obtain ⟨elsewhere, netHere, cpuHere, nonneg⟩ := updateDelegated_ok h
  have both : Ledger.held DelegatedBandwidth.weight d' (owner, receiver) =
      Ledger.held DelegatedBandwidth.weight d (owner, receiver) + (net.amount + cpu.amount) := by
    unfold Ledger.held Table.weightAt at netHere cpuHere ⊢
    cases old : d.lookup (owner, receiver) <;> cases new : d'.lookup (owner, receiver) <;>
      simp only [old, new, Option.elim_none, Option.elim_some, DelegatedBandwidth.weight]
        at netHere cpuHere ⊢ <;> omega
  refine ⟨fun k r found => ?_, ?_, fun u => ?_, fun r => ?_, fun r => ?_⟩
  · by_cases here : k = (owner, receiver)
    · exact nonneg r (here ▸ found)
    · exact bands k r (elsewhere k here ▸ found)
  · have moved := Ledger.total_shift elsewhere both fun _ => True
    simp only [if_true] at moved
    exact moved
  · exact Ledger.total_shift elsewhere both fun k => k.1 = u
  · exact Ledger.total_shift elsewhere netHere fun k => k.2 = r
  · exact Ledger.total_shift elsewhere cpuHere fun k => k.2 = r

/-- What `owner` has staked grows by the change, which fits an amount. -/
theorem restake_staked {e : Election D} {total : Asset} (lo : 0 ≤ stakedBy e owner + total.amount)
    (hi : stakedBy e owner + total.amount ≤ Asset.maxAmount) :
    (restake c (e.voters.lookup owner) total).staked = stakedBy e owner + total.amount := by
  have max : Asset.maxAmount < 2 ^ 63 := by decide
  unfold stakedBy Election.standing at *
  unfold restake
  cases found : e.voters.lookup owner with
  | none => simp
  | some voter =>
    simp only [found, Option.map_some, Option.getD_some, VoterInfo.standing] at lo hi ⊢
    exact i64_of_lt (by omega) (by omega)

theorem Backed.changebw (hs : Backed core spare s) (outside : source ≠ STAKE_ACCOUNT)
    (netSymbol : net.symbol = core) (h : changebw c s source receiver net cpu transfer = .ok s') :
    Backed core spare s' := by
  obtain ⟨delband, userres, paid, -, ⟨same, -, -⟩, delegated, totals, settled, voted⟩ :=
    changebw_ok h
  obtain ⟨bands, lockedSum, bySum, netSum, cpuSum⟩ := sums_move hs.bands delegated
  obtain ⟨-, settled⟩ := settled.resolve_right fun own => outside own.1.symm
  obtain ⟨refunds, netBalance, cpuBalance, left, -, moved⟩ := settleStake_ok settled
  obtain ⟨pendingSum, nonneg, balanceSymbol, dues⟩ := updateRefund_ok hs.market hs.dues netSymbol
    (same.trans netSymbol) left
  have after : ∃ token, paid = { s with delband, userres, refunds, token } ∧ Token.Conserved token ∧
      Token.balanceOf token.accounts STAKE_ACCOUNT core.code =
        s.balance STAKE_ACCOUNT core.code + (netBalance.amount + cpuBalance.amount) := by
    rcases moved with ⟨-, sent⟩ | ⟨none, rfl⟩
    · obtain ⟨token, rfl, paid⟩ := State.pay_paid sent hs.token
      refine ⟨token, rfl, paid.sound, (paid.moved STAKE_ACCOUNT core.code).trans ?_⟩
      rw [if_neg (fun own => outside own.1.symm), if_pos ⟨rfl, by rw [balanceSymbol]⟩]
      simp only [add_zero]
      rfl
    · refine ⟨s.token, rfl, hs.token, ?_⟩
      have zero : netBalance.amount + cpuBalance.amount = 0 := le_antisymm none nonneg
      rw [zero, add_zero]
      rfl
  obtain ⟨token, rfl, sound, balance⟩ := after
  obtain ⟨e, -, reweighed, rfl⟩ := updateVotingPower_ok voted
  have reserve : s.balance STAKE_ACCOUNT core.code + (netBalance.amount + cpuBalance.amount) =
      spare + locked delband + pending refunds := by
    rw [hs.reserve]
    omega
  have voter : (restake c (s.voters.lookup (delegator source receiver transfer))
      ⟨net.amount + cpu.amount, net.symbol⟩).staked =
        delegatedBy delband (delegator source receiver transfer) := by
    obtain ⟨lo, hi⟩ := delegatedBy_le bands (delegator source receiver transfer)
    have own := bySum (delegator source receiver transfer)
    rw [if_pos rfl, ← hs.staked] at own
    have held := sound.atMost STAKE_ACCOUNT core.code
    have due := pending_nonneg dues
    have spared := hs.nonneg
    rw [balance, reserve] at held
    rw [own] at lo hi ⊢
    exact restake_staked lo (by simp only; omega)
  refine ⟨hs.market, sound, bands, dues, fun u => ?_, fun r => ?_, fun r => ?_, ?_, hs.nonneg⟩
  · rw [stakedBy, reweighed.standing, standing_insert, Function.update_apply]
    split
    · rename_i own
      rw [own]
      exact voter
    · rename_i other
      rw [bySum, if_neg (Ne.symm other), add_zero, ← hs.staked]
      rfl
  · exact ((updateTotals_ok totals r).1.trans (by rw [hs.net r])).trans (netSum r).symm
  · exact ((updateTotals_ok totals r).2.trans (by rw [hs.cpu r])).trans (cpuSum r).symm
  · exact balance.trans reserve

theorem Backed.refund (hs : Backed core spare s) (h : refund c s owner = .ok s') :
    Backed core spare s' := by
  simp only [System.refund, bind_eq_ok, Ctx.requireAuth_eq_ok, find_eq_ok, require_eq_ok,
    Asset.add_eq_ok, pure_eq_ok, exists_const] at h
  obtain ⟨-, req, found, -, _, ⟨-, -, -, rfl⟩, paid, sent, rfl⟩ := h
  obtain ⟨⟨netSymbol, -⟩, -, -⟩ := hs.dues _ _ found
  obtain ⟨token, rfl, paid⟩ := State.pay_paid sent hs.token
  refine ⟨hs.market, paid.sound, hs.bands, Table.All.erase hs.dues _, hs.staked, hs.net, hs.cpu,
    ?_, hs.nonneg⟩
  have balance := paid.moved STAKE_ACCOUNT core.code
  have other : ¬ (STAKE_ACCOUNT = owner ∧ core.code = req.netAmount.symbol.code) :=
    fun own => paid.apart own.1
  have due : s.refunds.weightAt (fun _ r => r.due) owner = req.due := Table.weightAt_some found
  rw [if_pos ⟨rfl, by rw [netSymbol]⟩, if_neg other, hs.reserve] at balance
  refine balance.trans ?_
  simp only [pending, Table.total_erase]
  rw [due]
  simp only [RefundRequest.due]
  omega

/-! ## Every run -/

/-- What `delegatebw`, `undelegatebw` and `refund` are, when not for `eosio.stake`. -/
def Action.stakes : Action → Bool
  | .delegatebw source .. | .undelegatebw source .. | .refund source =>
    decide (source ≠ STAKE_ACCOUNT)
  | _ => false

theorem Backed.apply (hs : Backed core spare s) {a : Action} (stakes : a.stakes = true)
    (h : a.apply c s = .ok s') : Backed core spare s' := by
  cases a <;> try cases stakes
  case delegatebw source receiver net cpu transfer =>
    obtain ⟨core', known, symbol, -, -, -, changed⟩ := delegatebw_ok h
    cases hs.market.symm.trans known
    exact hs.changebw (of_decide_eq_true stakes) symbol changed
  case undelegatebw source receiver net cpu =>
    obtain ⟨core', known, symbol, -, -, changed⟩ := undelegatebw_ok h
    cases hs.market.symm.trans known
    have same : net.neg.symbol = core := symbol
    exact hs.changebw (of_decide_eq_true stakes) same changed
  case refund owner => exact hs.refund h

/-- Nothing is staked and no refund is due. -/
structure Unstaked (s : State D) : Prop where
  delband : s.delband = ∅
  refunds : s.refunds = ∅
  voters : s.voters.All fun _ v => v.staked = 0
  userres : s.userres.All fun _ r => r.netWeight.amount = 0 ∧ r.cpuWeight.amount = 0

theorem Unstaked.backed (hs : Unstaked s) (market : s.coreSymbol = .ok core)
    (token : Token.Conserved s.token) :
    Backed core (s.balance STAKE_ACCOUNT core.code - (locked s.delband + pending s.refunds)) s := by
  have unlocked : locked s.delband = 0 := by rw [hs.delband]; rfl
  have nothing : pending s.refunds = 0 := by rw [hs.refunds]; rfl
  have usable (part : UserResources → Asset) (r : Name)
      (zero : s.userres.All fun _ r => (part r).amount = 0) : usableBy part s.userres r = 0 := by
    unfold usableBy
    cases found : s.userres.lookup r with
    | none => exact Ledger.held_none found
    | some row => exact (Ledger.held_some found).trans (zero r row found)
  refine ⟨market, token, ?_, ?_, fun u => ?_, fun r => ?_, fun r => ?_, by omega, ?_⟩
  · rw [hs.delband]
    exact Table.All.empty _
  · rw [hs.refunds]
    exact Table.All.empty _
  · rw [hs.delband]
    unfold stakedBy Election.standing
    cases found : s.voters.lookup u with
    | none => rfl
    | some v => exact hs.voters u v found
  · rw [hs.delband]
    exact usable _ r fun k row found => (hs.userres k row found).1
  · rw [hs.delband]
    exact usable _ r fun k row found => (hs.userres k row found).2
  · rw [unlocked, nothing, add_zero, sub_zero]
    exact token.rows.held _ _

theorem stake_conserved (self : Name) (s : State D) (market : s.coreSymbol = .ok core)
    (token : Token.Conserved s.token) (unstaked : Unstaked s) (calls : List (Call D))
    (stakes : ∀ call ∈ calls, call.action.stakes = true) :
    let t := run (step self) s calls
    (∀ u, stakedBy t.toElection u = delegatedBy t.delband u) ∧
      (∀ r, usableBy (·.netWeight) t.userres r = delegatedTo (·.netWeight) t.delband r) ∧
      (∀ r, usableBy (·.cpuWeight) t.userres r = delegatedTo (·.cpuWeight) t.delband r) ∧
      t.balance STAKE_ACCOUNT core.code - (locked t.delband + pending t.refunds) =
        s.balance STAKE_ACCOUNT core.code - (locked s.delband + pending s.refunds) := by
  intro t
  have backed : Backed core (s.balance STAKE_ACCOUNT core.code -
      (locked s.delband + pending s.refunds)) t := by
    refine run_invariant (I := Backed core _) (fun s call hs staking => ?_)
      (unstaked.backed market token) (along_of_forall stakes s)
    exact step_keeps hs fun s' done => hs.apply staking (perform_ok done).2
  have reserve := backed.reserve
  exact ⟨backed.staked, backed.net, backed.cpu, by omega⟩

section

open Sample

/-- `nick` delegates to `rick`, has a gift from `dick`, takes his stake back, delegates to himself
out of the refund and waits for the rest. -/
def restaking : List (Call Int) :=
  [call nick 100 (.delegatebw nick rick (eos 1000) (eos 300) false),
    call dick 101 (.delegatebw dick nick (eos 0) (eos 500) true),
    call nick 102 (.undelegatebw nick rick (eos 400) (eos 300)),
    call nick 103 (.delegatebw nick nick (eos 100) (eos 500) false),
    call nick 104 (.undelegatebw nick nick (eos 10) (eos 0)),
    call nick 300000 (.refund nick)]

theorem restaking_conserved :
    (run (step eosio) activated restaking).balance STAKE_ACCOUNT EOS.code = 1690 ∧
      stakedBy (run (step eosio) activated restaking).toElection nick =
        delegatedBy (run (step eosio) activated restaking).delband nick := by
  have unstaked : Unstaked activated := ⟨rfl, rfl, Table.All.empty _, Table.All.empty _⟩
  have market : activated.coreSymbol = .ok EOS := rfl
  exact ⟨by decide +kernel,
    (stake_conserved eosio activated market ledger_conserved unstaked restaking (by decide)).1 nick⟩

end

end DecentralBank.System
