import DecentralBank.System.Ballots
import DecentralBank.System.Denominations

/-!
# Stake can always be taken back

Once the chain is active, whatever an account has delegated it can take back,
and is paid in full three days later.
-/

namespace DecentralBank.System

open Checked Runs

variable {D : Type} {self : Name} {fp : Doubles D} {c : Ctx D} {s s' : State D} {core : Symbol}
  {spare : Int} {source receiver owner : Name} {n m : Int} {row : DelegatedBandwidth}

/-- The refund that is due to `owner`: for net bandwidth, or for cpu. -/
def refundOf (part : RefundRequest → Asset) (refunds : Table Name RefundRequest) (owner : Name) : Int :=
  Ledger.held (fun r => (part r).amount) refunds owner

/-- Part of what is delegated from one account to another, and not nothing. -/
structure Within (row : DelegatedBandwidth) (n m : Int) : Prop where
  net : 0 ≤ n ∧ n ≤ row.netWeight.amount
  cpu : 0 ≤ m ∧ m ≤ row.cpuWeight.amount
  some : 0 < n + m

/-! ## Amounts fit -/

/-- What is delegated and due fits an amount, all together. -/
theorem Backed.fits (hs : Backed core spare s) :
    locked s.delband + pending s.refunds ≤ Asset.maxAmount := by
  have held := hs.token.atMost STAKE_ACCOUNT core.code
  have reserve := hs.reserve
  have nonneg := hs.nonneg
  unfold State.balance at reserve
  omega

theorem weight_nonneg {d : Delegations} (bands : Bands d) : d.All fun _ r => 0 ≤ r.weight := by
  intro k r found
  have := bands k r found
  unfold DelegatedBandwidth.weight
  omega

theorem weight_le_delegatedBy {d : Delegations} (bands : Bands d)
    (found : d.lookup (source, receiver) = some row) : row.weight ≤ delegatedBy d source := by
  have part := Table.weightAt_le_total
    (f := fun (k : Name × Name) r => if k.1 = source then DelegatedBandwidth.weight r else 0) (t := d)
    (fun k r there => ?_) (source, receiver)
  · rw [Table.weightAt_some found, if_pos rfl] at part
    exact part
  · have := weight_nonneg bands k r there
    split
    · exact this
    · exact le_refl 0

theorem due_le_pending {refunds : Table Name RefundRequest} {req : RefundRequest}
    (dues : Dues core refunds) (found : refunds.lookup owner = some req) :
    req.due ≤ pending refunds := by
  have part := Table.weightAt_le_total (f := fun _ r => RefundRequest.due r) (t := refunds)
    (fun k r there => ?_) owner
  · rw [Table.weightAt_some found] at part
    exact part
  · have := dues k r there
    unfold RefundRequest.due
    omega

theorem part_le_delegatedTo {part : DelegatedBandwidth → Asset} {d : Delegations}
    (nonneg : d.All fun _ r => 0 ≤ (part r).amount)
    (found : d.lookup (source, receiver) = some row) :
    (part row).amount ≤ delegatedTo part d receiver := by
  have least := Table.weightAt_le_total
    (f := fun (k : Name × Name) r => if k.2 = receiver then (part r).amount else 0) (t := d)
    (fun k r there => ?_) (source, receiver)
  · rw [Table.weightAt_some found, if_pos rfl] at least
    exact least
  · have := nonneg k r there
    split
    · exact this
    · exact le_refl 0

theorem delegatedTo_le_locked {part : DelegatedBandwidth → Asset} {d : Delegations}
    (least : d.All fun _ r => 0 ≤ r.weight) (most : d.All fun _ r => (part r).amount ≤ r.weight) :
    delegatedTo part d receiver ≤ locked d := by
  refine Table.total_le fun k r found => ?_
  split
  · exact most k r found
  · exact least k r found

/-! ## The parts of `changebw` -/

/-- Amounts of one symbol whose sum fits. -/
theorem Asset.add_succeeds {a b : Asset} (same : b.symbol = a.symbol)
    (least : -Asset.maxAmount ≤ a.amount + b.amount) (most : a.amount + b.amount ≤ Asset.maxAmount) :
    a.add b = .ok ⟨a.amount + b.amount, a.symbol⟩ :=
  Asset.add_eq_ok.mpr ⟨same, least, most, rfl⟩

theorem updateDelegated_succeeds {d : Delegations} (same : row.In core) (within : Within row n m)
    (fits : row.weight ≤ Asset.maxAmount) (found : d.lookup (source, receiver) = some row) :
    Succeeds (updateDelegated d source receiver ⟨-n, core⟩ ⟨-m, core⟩) := by
  obtain ⟨⟨leastNet, mostNet⟩, ⟨leastCpu, mostCpu⟩, -⟩ := within
  obtain ⟨netCore, cpuCore⟩ := same
  unfold DelegatedBandwidth.weight at fits
  have max := Asset.maxAmount_nonneg
  have net := Asset.add_succeeds (a := row.netWeight) (b := ⟨-n, core⟩) netCore.symm
    (by simp only; omega) (by simp only; omega)
  have cpu := Asset.add_succeeds (a := row.cpuWeight) (b := ⟨-m, core⟩) cpuCore.symm
    (by simp only; omega) (by simp only; omega)
  unfold updateDelegated
  simp only [found, net, cpu]
  refine .check ?_ (.check ?_ ?_)
  · simp only
    omega
  · simp only
    omega
  · exact failsOnly_ite.mpr ⟨fun _ => failsOnly_pure _, fun _ => failsOnly_pure _⟩

theorem updateTotals_succeeds {userres : Table Name UserResources} {r : UserResources}
    (same : r.In core) (leastNet : 0 ≤ n) (mostNet : n ≤ r.netWeight.amount) (leastCpu : 0 ≤ m)
    (mostCpu : m ≤ r.cpuWeight.amount) (netFits : r.netWeight.amount ≤ Asset.maxAmount)
    (cpuFits : r.cpuWeight.amount ≤ Asset.maxAmount) (found : userres.lookup receiver = some r) :
    Succeeds (updateTotals userres receiver ⟨-n, core⟩ ⟨-m, core⟩) := by
  obtain ⟨netCore, cpuCore⟩ := same
  have max := Asset.maxAmount_nonneg
  have net := Asset.add_succeeds (a := r.netWeight) (b := ⟨-n, core⟩) netCore.symm
    (by simp only; omega) (by simp only; omega)
  have cpu := Asset.add_succeeds (a := r.cpuWeight) (b := ⟨-m, core⟩) cpuCore.symm
    (by simp only; omega) (by simp only; omega)
  unfold updateTotals
  simp only [found, net, cpu]
  refine .check ?_ (.check ?_ ?_)
  · simp only
    omega
  · simp only
    omega
  · exact failsOnly_ite.mpr ⟨fun _ => failsOnly_pure _, fun _ => failsOnly_pure _⟩

/-- A refund grows by what is taken back. -/
theorem drainRefund_grows {due : Asset} (symbol : due.symbol = core) (least : 0 ≤ due.amount)
    (taken : 0 ≤ n) (fits : due.amount + n ≤ Asset.maxAmount) :
    drainRefund due ⟨-n, core⟩ = .ok (⟨due.amount + n, core⟩, ⟨0, core⟩) := by
  have max := Asset.maxAmount_nonneg
  have grown : due.sub ⟨-n, core⟩ = .ok ⟨due.amount + n, core⟩ := by
    refine Asset.sub_eq_ok.mpr ⟨symbol.symm, ?_, ?_, ?_⟩
    · simp only
      omega
    · simp only
      omega
    · rw [symbol, sub_neg_eq_add]
  have owed : ¬ (⟨due.amount + n, core⟩ : Asset).amount < 0 := by
    simp only
    omega
  refine bind_eq_ok.mpr ⟨_, grown, ?_⟩
  rw [if_neg owed]
  rfl

theorem openRefund_opens (valid : core.isValid = true) (taken : 0 ≤ n) :
    openRefund core ⟨-n, core⟩ = .ok (⟨n, core⟩, ⟨0, core⟩) := by
  have max := Asset.maxAmount_nonneg
  have nothing : Asset.make 0 core = .ok ⟨0, core⟩ :=
    Asset.make_eq_ok.mpr ⟨⟨by omega, max⟩, valid, rfl⟩
  unfold openRefund
  by_cases some : (⟨-n, core⟩ : Asset).amount < 0
  · rw [if_pos some]
    simp only [Asset.neg, neg_neg, pure_eq_ok]
  · have none : n = 0 := by
      simp only at some
      omega
    rw [if_neg some, none]
    exact bind_eq_ok.mpr ⟨_, nothing, rfl⟩

/-- The refunds, with what `source` takes back. -/
def taken (c : Ctx D) (core : Symbol) (refunds : Table Name RefundRequest) (source : Name) (n m : Int) :
    Table Name RefundRequest :=
  refunds.insert source ⟨c.seconds, ⟨refundOf (·.netAmount) refunds source + n, core⟩,
    ⟨refundOf (·.cpuAmount) refunds source + m, core⟩⟩

/-- What is taken back is due, and nothing is left to be paid. -/
theorem updateRefund_takes {toSelf : Bool} (market : s.coreSymbol = .ok core)
    (valid : core.isValid = true) (dues : Dues core s.refunds) (leastNet : 0 ≤ n) (leastCpu : 0 ≤ m)
    (some : 0 < n + m) (fits : n + m + pending s.refunds ≤ Asset.maxAmount) :
    updateRefund c s source ⟨-n, core⟩ ⟨-m, core⟩ toSelf =
      .ok (taken c core s.refunds source n m, ⟨0, core⟩, ⟨0, core⟩) := by
  have less : (⟨-n, core⟩ : Asset).amount < 0 ∨ (⟨-m, core⟩ : Asset).amount < 0 := by
    simp only
    omega
  unfold updateRefund taken refundOf
  rw [if_pos (Or.inr (by simp only; omega))]
  cases found : s.refunds.lookup source with
  | none =>
    rw [Ledger.held_none found, Ledger.held_none found, zero_add, zero_add]
    simp only [if_pos less, bind_eq_ok, pure_eq_ok, Prod.exists, Prod.mk.injEq]
    exact ⟨core, market, _, _, openRefund_opens valid leastNet, _, _,
      openRefund_opens valid leastCpu, rfl, rfl, rfl⟩
  | some req =>
    obtain ⟨⟨netCore, netDue⟩, cpuCore, cpuDue⟩ := dues _ _ found
    have part := due_le_pending dues found
    unfold RefundRequest.due at part
    rw [Ledger.held_some found, Ledger.held_some found]
    simp only [bind_eq_ok, require_eq_ok, exists_const, pure_eq_ok, Prod.exists, Prod.mk.injEq]
    refine ⟨_, _, drainRefund_grows netCore netDue leastNet (by omega), _, _,
      drainRefund_grows cpuCore cpuDue leastCpu (by omega), ?_, ?_, ?_, rfl, rfl⟩
    · simp only
      omega
    · simp only
      omega
    · rw [if_pos less, if_neg]
      simp only
      omega

theorem settleStake_takes {toSelf : Bool} (market : s.coreSymbol = .ok core)
    (valid : core.isValid = true) (dues : Dues core s.refunds) (leastNet : 0 ≤ n) (leastCpu : 0 ≤ m)
    (some : 0 < n + m) (fits : n + m + pending s.refunds ≤ Asset.maxAmount) :
    settleStake c s source source ⟨-n, core⟩ ⟨-m, core⟩ toSelf =
      .ok { s with refunds := taken c core s.refunds source n m } := by
  have max := Asset.maxAmount_nonneg
  have nothing : (⟨0, core⟩ : Asset).add ⟨0, core⟩ = .ok ⟨0, core⟩ :=
    Asset.add_succeeds rfl (by simp only; omega) (by simp only; omega)
  refine bind_eq_ok.mpr
    ⟨_, updateRefund_takes market valid dues leastNet leastCpu some fits, ?_⟩
  refine bind_eq_ok.mpr ⟨_, nothing, ?_⟩
  rw [if_neg (by simp only; omega)]
  rfl

/-- The votes of an account other than `b1` follow its stake. -/
theorem updateVotingPower_succeeds {total : Asset} (h : Ballots s.toElection) (other : owner ≠ B1)
    (least : 0 ≤ stakedBy s.toElection owner + total.amount)
    (most : stakedBy s.toElection owner + total.amount ≤ Asset.maxAmount) :
    Succeeds (updateVotingPower c s owner total) := by
  have staked := restake_staked (c := c) least most
  have stands := h.restake (c := c) owner total
  unfold updateVotingPower
  refine .check (by omega) ?_
  rw [if_neg other]
  refine .bind (failsOnly_pure _) fun _ _ => .bind ?_ fun _ _ => failsOnly_pure _
  refine failsOnly_ite.mpr ⟨fun _ => updateVotes_succeeds stands ?_, fun _ => failsOnly_pure _⟩
  rw [Table.lookup_insert, if_pos rfl]

/-! ## Taking stake back -/

/-- A receiver of stake has a row, with at least what was delegated to it. -/
theorem Backed.usable (hs : Backed core spare s)
    (found : s.delband.lookup (source, receiver) = some row) (within : Within row n m) :
    ∃ r, s.userres.lookup receiver = some r ∧ n ≤ r.netWeight.amount ∧ m ≤ r.cpuWeight.amount ∧
      r.netWeight.amount ≤ locked s.delband ∧ r.cpuWeight.amount ≤ locked s.delband := by
  have net : row.netWeight.amount ≤ delegatedTo (·.netWeight) s.delband receiver :=
    part_le_delegatedTo (fun k r there => (hs.bands k r there).1) found
  have cpu : row.cpuWeight.amount ≤ delegatedTo (·.cpuWeight) s.delband receiver :=
    part_le_delegatedTo (fun k r there => (hs.bands k r there).2) found
  have least := weight_nonneg hs.bands
  have mostNet : delegatedTo (·.netWeight) s.delband receiver ≤ locked s.delband :=
    delegatedTo_le_locked least fun k r there => by
      have := hs.bands k r there
      unfold DelegatedBandwidth.weight
      omega
  have mostCpu : delegatedTo (·.cpuWeight) s.delband receiver ≤ locked s.delband :=
    delegatedTo_le_locked least fun k r there => by
      have := hs.bands k r there
      unfold DelegatedBandwidth.weight
      omega
  obtain ⟨⟨leastNet, withinNet⟩, ⟨leastCpu, withinCpu⟩, some⟩ := within
  rw [← hs.net receiver] at net mostNet
  rw [← hs.cpu receiver] at cpu mostCpu
  unfold usableBy at net cpu mostNet mostCpu
  cases there : s.userres.lookup receiver with
  | none =>
    rw [Ledger.held_none there] at net cpu
    omega
  | some r =>
    rw [Ledger.held_some there] at net cpu mostNet mostCpu
    exact ⟨r, rfl, withinNet.trans net, withinCpu.trans cpu, mostNet, mostCpu⟩

theorem changebw_succeeds (hs : Backed core spare s) (denominated : Denominated core s)
    (ballots : Ballots s.toElection) (signed : source ∈ c.auth) (apart : STAKE_ACCOUNT ≠ source)
    (other : source ≠ B1) (found : s.delband.lookup (source, receiver) = some row)
    (within : Within row n m) :
    ∃ s', changebw c s source receiver ⟨-n, core⟩ ⟨-m, core⟩ false = .ok s' ∧
      s'.refunds = taken c core s.refunds source n m := by
  obtain ⟨same, valid⟩ := denominated.bands _ _ found
  obtain ⟨r, there, leastNet, leastCpu, mostNet, mostCpu⟩ := hs.usable found within
  have fits := hs.fits
  have due := pending_nonneg hs.dues
  have max := Asset.maxAmount_nonneg
  have weight := weight_le_delegatedBy hs.bands found
  have most := (delegatedBy_le hs.bands source).2
  obtain ⟨delband, delegated⟩ := (updateDelegated_succeeds same within (by omega) found).ok
  obtain ⟨⟨netLeast, netMost⟩, ⟨cpuLeast, cpuMost⟩, some⟩ := within
  obtain ⟨userres, totals⟩ := (updateTotals_succeeds (denominated.resources _ _ there) netLeast
    leastNet cpuLeast leastCpu (by omega) (by omega) there).ok
  have part : n + m ≤ row.weight := by
    unfold DelegatedBandwidth.weight
    omega
  have sum : (⟨-n, core⟩ : Asset).add ⟨-m, core⟩ = .ok ⟨-n + -m, core⟩ :=
    Asset.add_succeeds rfl (by simp only; omega) (by simp only; omega)
  have settled : settleStake c { s with delband, userres } source source ⟨-n, core⟩ ⟨-m, core⟩
        (!false && decide (source = receiver)) =
      .ok { s with delband, userres, refunds := taken c core s.refunds source n m } :=
    settleStake_takes hs.market valid hs.dues netLeast cpuLeast some (by simp only; omega)
  have staked := hs.staked source
  have counted : Succeeds (updateVotingPower c { s with
      delband, userres, refunds := taken c core s.refunds source n m } source ⟨-n + -m, core⟩) :=
    updateVotingPower_succeeds ballots other (by simp only; omega) (by simp only; omega)
  obtain ⟨s', voted⟩ := counted.ok
  refine ⟨s', ?_, ?_⟩
  · simp only [changebw, bind_eq_ok, Ctx.requireAuth_eq_ok, require_eq_ok, exists_const]
    refine ⟨signed, by omega, _, sum, ?_, delband, delegated, userres, totals, _, ?_, voted⟩
    · simp only [max_le_iff, abs_neg, ← neg_add]
      rw [abs_of_nonneg netLeast, abs_of_nonneg cpuLeast, abs_of_nonneg some.le]
      omega
    · rw [if_pos apart]
      exact settled
  · obtain ⟨e, -, -, rfl⟩ := updateVotingPower_ok voted
    rfl

/-- Nothing keeps an account from taking back stake, once the chain is active. -/
theorem undelegatebw_succeeds (hs : Backed core spare s) (denominated : Denominated core s)
    (ballots : Ballots s.toElection) (active : MIN_ACTIVATED_STAKE ≤ s.gstate.totalActivatedStake)
    (signed : source ∈ c.auth) (apart : STAKE_ACCOUNT ≠ source) (other : source ≠ B1)
    (found : s.delband.lookup (source, receiver) = some row) (within : Within row n m) :
    ∃ s', undelegatebw c s source receiver ⟨n, core⟩ ⟨m, core⟩ = .ok s' ∧
      s'.refunds = taken c core s.refunds source n m := by
  obtain ⟨s', changed, due⟩ := changebw_succeeds hs denominated ballots signed apart other found within
  refine ⟨s', ?_, due⟩
  have valid := (denominated.bands _ _ found).2
  have max := Asset.maxAmount_nonneg
  have word : Asset.maxAmount < 2 ^ 63 := by decide
  have fits := hs.fits
  have due := pending_nonneg hs.dues
  have weight := weight_le_delegatedBy hs.bands found
  have most := (delegatedBy_le hs.bands source).2
  obtain ⟨⟨netLeast, netMost⟩, ⟨cpuLeast, cpuMost⟩, some⟩ := within
  unfold DelegatedBandwidth.weight at weight
  have sum : i64 (m + n) = m + n := i64_of_lt (by omega) (by omega)
  simp only [undelegatebw, notNegative, Asset.comparable, bind_eq_ok, require_eq_ok, exists_const,
    Asset.make_eq_ok]
  refine ⟨core, hs.market, ⟨0, core⟩, ⟨⟨by omega, max⟩, valid, rfl⟩, ⟨rfl, cpuLeast⟩,
    ⟨rfl, netLeast⟩, ?_, active, changed⟩
  rw [sum]
  omega

/-- A refund that is old enough is paid, all of it. -/
theorem refund_pays (hs : Backed core spare s) (denominated : Denominated core s)
    {req : RefundRequest} (signed : owner ∈ c.auth) (known : owner ∈ s.accounts)
    (apart : STAKE_ACCOUNT ≠ owner) (found : s.refunds.lookup owner = some req)
    (late : ((req.requestTime : Int) + REFUND_DELAY_SEC) * 1000000 ≤ c.now) :
    ∃ s', refund c s owner = .ok s' ∧ s'.refunds = s.refunds.erase owner ∧
      s'.balance owner core.code = s.balance owner core.code + req.due ∧
      ∀ account, account ≠ STAKE_ACCOUNT → account ≠ owner →
        ∀ code, s'.balance account code = s.balance account code := by
  obtain ⟨some, valid⟩ := denominated.dues _ _ found
  obtain ⟨st, dealt, symbol⟩ := denominated.dealt
  obtain ⟨⟨netCore, netDue⟩, cpuCore, cpuDue⟩ := hs.dues _ _ found
  have part := due_le_pending hs.dues found
  have bands := delegatedBy_le hs.bands owner
  have fits := hs.fits
  have reserve := hs.reserve
  have spared := hs.nonneg
  have sum : req.netAmount.add req.cpuAmount = .ok ⟨req.due, core⟩ := by
    unfold RefundRequest.due at part ⊢
    rw [← netCore]
    exact Asset.add_succeeds (cpuCore.trans netCore.symm) (by omega) (by omega)
  have payable : ∃ s', s.pay STAKE_ACCOUNT owner ⟨req.due, core⟩ "unstake" = .ok s' :=
    State.pay_succeeds hs.token dealt symbol valid some (by simp only; omega) (by decide) known
      apart (by simp only; omega)
  obtain ⟨s', paid⟩ := payable
  obtain ⟨token, rfl, moved⟩ := State.pay_paid paid hs.token
  refine ⟨{ s with token, refunds := s.refunds.erase owner }, ?_, rfl, ?_⟩
  · simp only [refund, bind_eq_ok, Ctx.requireAuth_eq_ok, require_eq_ok, find_eq_ok, exists_const,
      pure_eq_ok]
    exact ⟨signed, req, found, late, _, sum, _, paid, rfl⟩
  · exact ⟨moved.received rfl, fun account other apart code => moved.elsewhere other apart code⟩

end DecentralBank.System
