import DecentralBank.System.Withdrawals

/-!
# Refunds arrive

Stake that is taken back is claimed three days later, by a deferred transaction
that its owner need not sign again. Only the owner's own actions, and gifts of
stake to it, keep the claim from being run, and a gift leaves the row.
-/

namespace DecentralBank.System

open Checked Runs

variable {D : Type} {self : Name} {fp : Doubles D} {c : Ctx D} {s s' : State D} {core : Symbol}
  {ch ch' : Blockchain D} {a : Action} {source receiver owner : Name} {n m due ready now : Int}
  {row : DelegatedBandwidth} {req : RefundRequest} {events : List Event}

/-! ## A chain that can pay -/

/-- The contract was set up on a chain that has nothing deferred, and knows its accounts. -/
structure Launched (contract : Name) (core : Symbol) (ch : Blockchain D) : Prop where
  known : contract ∈ ch.accounts
  own : contract ∉ RESERVES
  idle : ch.deferred = ∅
  limits : ∀ account ∈ ch.accounts, (ch.limits.lookup account).isSome = true
  other : core ≠ RAM_SYMBOL
  apart : core ≠ RAMCORE_SYMBOL
  opened : ∃ (c : Ctx D) (s₀ : State D) (version : Nat), Fresh s₀ ∧ s₀.userres = ∅ ∧
    s₀.voters = ∅ ∧ init c s₀ version core = .ok ch.toState

/-- What is owed is there, in core tokens, and whoever can use it has limits. -/
structure Running (contract : Name) (core : Symbol) (ch : Blockchain D) : Prop where
  queued : Queued outsider contract ch
  solvent : Solvent core False ch.toState
  denominated : Denominated core ch.toState
  limited : ch.limited

/-- Nothing but what is counted is there after `init`. -/
theorem Launched.started (launched : Launched self core ch) : ∃ (c : Ctx D) (s₀ : State D)
    (version : Nat), Fresh s₀ ∧ s₀.userres = ∅ ∧ ch.userres = ∅ ∧ ch.voters = ∅ ∧
      init c s₀ version core = .ok ch.toState := by
  obtain ⟨c, s₀, version, fresh, rowless, voterless, opened⟩ := launched.opened
  refine ⟨c, s₀, version, fresh, rowless, ?_, ?_, opened⟩
  all_goals
    simp only [System.init, bind_eq_ok, pure_eq_ok] at opened
    obtain ⟨-, -, -, -, -, -, _, -, -, -, -, -, same⟩ := opened
    rw [← same]
    assumption

theorem Launched.running (launched : Launched self core ch) : Running self core ch := by
  obtain ⟨c, s₀, version, fresh, rowless, none, -, opened⟩ := launched.started
  refine ⟨.idle launched.known (decide_eq_true launched.own) launched.idle,
    fresh.solvent False.elim opened, fresh.denominated rowless opened, launched.limits, ?_⟩
  rw [none]
  exact Table.All.empty _

theorem Running.step (running : Running self core ch) (other : core ≠ RAM_SYMBOL)
    (apart : core ≠ RAMCORE_SYMBOL) (own : self ∉ RESERVES) (e : Event)
    (signs : e.signedBy outsider = true) : Running self core (ch.step self fp e) := by
  obtain ⟨moved, queued⟩ := step_moves (fun _ _ _ => rfl) running.queued e signs
    (allowed_any fp ch e)
  exact ⟨queued, running.solvent.moves other apart own False.elim moved,
    running.denominated.moves running.solvent.market running.solvent.sound moved,
    step_limited running.limited e⟩

/-- Votes that are cast stay castable, as long as no ballot weighs less than nothing. -/
theorem Launched.ballots (launched : Launched self core ch)
    (outside : ∀ e ∈ events, e.signedBy outsider = true)
    (counts : Along (Blockchain.step self fp)
      (fun ch e => e.allowed (fun s call => call.counts self s) fp ch = true) ch events) :
    Ballots (run (Blockchain.step self fp) ch events).toElection := by
  obtain ⟨c, s₀, version, -, -, -, none, -⟩ := launched.started
  exact (moves_invariant (I := fun s => Ballots s.toElection) counts_refunds
    (fun _ _ ballots moved => ballots.moves (fun _ _ counts => counts) moved)
    launched.running.queued (.empty none) outside counts).2

/-- The chain goes on, whatever is done. -/
theorem Launched.run (launched : Launched self core ch) (fp : Doubles D)
    (outside : ∀ e ∈ events, e.signedBy outsider = true) :
    Running self core (run (Blockchain.step self fp) ch events) :=
  run_invariant (fun _ e running signs =>
      running.step launched.other launched.apart launched.own e signs)
    launched.running (along_of_forall outside ch)

/-! ## Taking stake back -/

/-- What is due to `owner`. -/
def dueTo (refunds : Table Name RefundRequest) (owner : Name) : Int :=
  Ledger.held RefundRequest.due refunds owner

theorem dueTo_eq (refunds : Table Name RefundRequest) (owner : Name) :
    dueTo refunds owner =
      refundOf (·.netAmount) refunds owner + refundOf (·.cpuAmount) refunds owner := by
  unfold dueTo refundOf
  cases found : refunds.lookup owner with
  | none => simp only [Ledger.held_none found, add_zero]
  | some req => simp only [Ledger.held_some found, RefundRequest.due]

/-- `due` is paid to `owner` by the transaction that is deferred, which may be run from `ready` on. -/
structure Awaits (owner : Name) (due ready : Int) (ch : Blockchain D) : Prop where
  known : owner ∈ ch.accounts
  apart : STAKE_ACCOUNT ≠ owner
  owed : ∃ req, ch.refunds.lookup owner = some req ∧ req.due = due ∧
    ((req.requestTime : Int) + REFUND_DELAY_SEC) * 1000000 ≤ ready
  claimed : ch.deferred.lookup (refundId owner) = some ⟨ready, owner, .refund owner⟩

theorem seconds_le (late : 0 ≤ c.now) : (c.seconds : Int) * 1000000 ≤ c.now := by
  have word : (c.seconds : Int) ≤ c.now / 1000000 := by
    unfold Ctx.seconds u32
    omega
  omega

/-- What is taken back is claimed. -/
theorem askChangebw_claims {h : Host} {l : Limits} {net cpu : Asset} (apart : STAKE_ACCOUNT ≠ source)
    (limited : h.limits.lookup receiver = some l) (less : net.amount + cpu.amount < 0)
    (opened : s'.refunds.lookup source = some req) :
    ∃ h', askChangebw c h s' source receiver net cpu false = .ok h' ∧
      h'.deferred.lookup (refundId source) =
        some ⟨c.now + REFUND_DELAY_SEC * 1000000, source, .refund source⟩ := by
  have set : ∃ h', askLimits h s' receiver = .ok h' := by
    simp only [askLimits, setResourceLimits, bind_eq_ok, find_eq_ok, pure_eq_ok]
    exact ⟨_, l, limited, _, ⟨l, limited, rfl⟩, rfl⟩
  obtain ⟨h', set⟩ := set
  refine ⟨askRefund c h' s' source net cpu (!false && decide (source = receiver)),
    bind_eq_ok.mpr ⟨h', set, ?_⟩, ?_⟩
  · rw [if_pos apart]
    rfl
  · simp only [askRefund, opened, Option.isSome_some, less, decide_true, Bool.or_true, Bool.and_self,
      if_true, Table.lookup_insert]

theorem Running.withdraw (running : Running self core ch) (ballots : Ballots ch.toElection)
    (fp : Doubles D) (now : Int) (accepts : List ProducerKey → Bool)
    (active : MIN_ACTIVATED_STAKE ≤ ch.gstate.totalActivatedStake) (known : source ∈ ch.accounts)
    (apart : STAKE_ACCOUNT ≠ source) (other : source ≠ B1) (late : 0 ≤ now)
    (found : ch.delband.lookup (source, receiver) = some row) (within : Within row n m) :
    ∃ ch', ch.perform self fp (.call [source] now accepts
        (.system (.undelegatebw source receiver ⟨n, core⟩ ⟨m, core⟩))) = .ok ch' ∧
      Awaits source (dueTo ch.refunds source + n + m) (now + REFUND_DELAY_SEC * 1000000) ch' := by
  obtain ⟨spare, stake⟩ := running.solvent.stake
  obtain ⟨s', done, refunds⟩ := undelegatebw_succeeds (c := ⟨self, [source], now, fp⟩) stake
    running.denominated ballots active (List.mem_singleton_self _) apart other found within
  obtain ⟨r, there, -⟩ := stake.usable found within
  obtain ⟨l, limited, -⟩ := running.limited.granted _ _ there
  have opened : s'.refunds.lookup source = some
      ⟨Ctx.seconds ⟨self, [source], now, fp⟩,
        ⟨refundOf (·.netAmount) ch.refunds source + n, core⟩,
        ⟨refundOf (·.cpuAmount) ch.refunds source + m, core⟩⟩ := by
    rw [refunds, taken, Table.lookup_insert, if_pos rfl]
  have less : (⟨-n, core⟩ : Asset).amount + (⟨-m, core⟩ : Asset).amount < 0 := by
    have some := within.some
    simp only
    omega
  obtain ⟨h, asked, claimed⟩ := askChangebw_claims (c := ⟨self, [source], now, fp⟩)
    (h := ch.toHost) apart limited less opened
  refine ⟨⟨s', h⟩, ?_, ⟨?_, apart, ?_, claimed⟩⟩
  · simp only [Blockchain.perform, bind_eq_ok, require_eq_ok, exists_const, List.mem_singleton,
      forall_eq]
    refine ⟨known, bind_eq_ok.mpr ⟨s', done, bind_eq_ok.mpr ⟨h, asked, rfl⟩⟩⟩
  · exact apply_grows (a := .undelegatebw source receiver ⟨n, core⟩ ⟨m, core⟩) done known
  · refine ⟨_, opened, ?_, ?_⟩
    · rw [dueTo_eq]
      simp only [RefundRequest.due]
      omega
    · have time := seconds_le (c := ⟨self, [source], now, fp⟩) late
      simp only at time ⊢
      omega

/-! ## What others can do -/

/-- A gift of stake to `owner`. -/
def Action.gives (owner : Name) : Action → Bool
  | .delegatebw _ receiver _ _ transfer => transfer && decide (receiver = owner)
  | _ => false

theorem refundId_ne {other : Name} (h : other ≠ owner) : refundId owner ≠ refundId other := by
  intro same
  refine h ?_
  cases other
  cases owner
  simp only [refundId, Prod.mk.injEq, true_and] at same
  rw [same]

theorem refundId_ne_bidrefundId {newname bidder : Name} (named : newname ≠ NOBODY) :
    refundId owner ≠ bidrefundId newname bidder := by
  intro same
  refine named ?_
  cases newname
  simp only [refundId, bidrefundId, Prod.mk.injEq] at same
  rw [← same.1]
  rfl

/-- Stake of others changes the refunds of others. -/
theorem changebw_refunds {net cpu : Asset} (other : source ≠ owner)
    (h : changebw c s source receiver net cpu false = .ok s') :
    s'.refunds.lookup owner = s.refunds.lookup owner := by
  obtain ⟨delband, userres, paid, -, -, -, -, settled, voted⟩ := changebw_ok h
  obtain ⟨e, -, -, rfl⟩ := updateVotingPower_ok voted
  rcases settled with ⟨-, settled⟩ | ⟨-, rfl⟩
  · obtain ⟨refunds, netBalance, cpuBalance, left, -, moved⟩ := settleStake_ok settled
    have kept : refunds.lookup owner = s.refunds.lookup owner := by
      rcases updateRefund_due left with rfl | rfl | ⟨row, -, rfl⟩
      · rfl
      · rw [Table.lookup_erase]
        exact if_neg other.symm
      · rw [Table.lookup_insert]
        exact if_neg other.symm
    rcases moved with ⟨-, sent⟩ | ⟨-, rfl⟩
    · obtain ⟨token, -, rfl⟩ := State.pay_ok sent
      exact kept
    · exact kept
  · rfl

/-- A gift of stake is no refund. -/
theorem gift_refunds {net cpu : Asset}
    (h : changebw c s source receiver net cpu true = .ok s') (taken : 0 ≤ net.amount + cpu.amount) :
    s'.refunds = s.refunds := by
  obtain ⟨delband, userres, paid, -, -, -, -, settled, voted⟩ := changebw_ok h
  obtain ⟨e, -, -, rfl⟩ := updateVotingPower_ok voted
  rcases settled with ⟨-, settled⟩ | ⟨-, rfl⟩
  · obtain ⟨refunds, netBalance, cpuBalance, left, -, moved⟩ := settleStake_ok settled
    have kept : refunds = s.refunds := by
      simp only [updateRefund, ite_eq_ok, pure_eq_ok, Prod.mk.injEq] at left
      rcases left with ⟨written, -⟩ | ⟨-, same, -, -⟩
      · rcases written with toSelf | less
        · cases toSelf
        · omega
      · exact same.symm
    rcases moved with ⟨-, sent⟩ | ⟨-, rfl⟩
    · obtain ⟨token, -, rfl⟩ := State.pay_ok sent
      exact kept
    · exact kept
  · rfl

/-- The row of an account stays until it signs. -/
theorem apply_refunds (unsigned : a.bands = true → owner ∉ c.auth) (h : a.apply c s = .ok s') :
    s'.refunds.lookup owner = s.refunds.lookup owner := by
  cases a with
  | delegatebw source receiver net cpu transfer =>
    obtain ⟨-, -, -, netStake, cpuStake, -, changed⟩ := delegatebw_ok h
    obtain ⟨-, -, -, signed, -⟩ := changebw_ok changed
    have apart : source ≠ owner := fun own => unsigned rfl (own ▸ signed)
    cases transfer with
    | true => rw [gift_refunds changed (by omega)]
    | false => exact changebw_refunds apart changed
  | undelegatebw source receiver net cpu =>
    obtain ⟨-, -, -, -, -, changed⟩ := undelegatebw_ok h
    obtain ⟨-, -, -, signed, -⟩ := changebw_ok changed
    have apart : source ≠ owner := fun own => unsigned rfl (own ▸ signed)
    exact changebw_refunds apart changed
  | refund account =>
    simp only [Action.apply, refund, bind_eq_ok, Ctx.requireAuth_eq_ok, pure_eq_ok] at h
    obtain ⟨-, signed, _, -, -, -, _, -, paid, sent, rfl⟩ := h
    have apart : owner ≠ account := fun own => unsigned rfl (own ▸ signed)
    obtain ⟨token, -, rfl⟩ := State.pay_ok sent
    rw [Table.lookup_erase, if_neg apart]
  | _ => exact congrArg (·.lookup owner) (apply_idle rfl h).2

/-- The claim of an account stays until it signs, or until it is given stake. -/
theorem Asks.claim {deferred deferred' : Table (Nat × Nat) Deferred}
    (unsigned : a.bands = true → owner ∉ c.auth) (asks : Asks c s' deferred a deferred') :
    deferred'.lookup (refundId owner) = deferred.lookup (refundId owner) ∨
      (a.gives owner = true ∧ deferred'.lookup (refundId owner) = none) := by
  have apart (signs : a.bands = true) {source : Name} (signed : source ∈ c.auth) :
      refundId owner ≠ refundId source :=
    refundId_ne fun own => unsigned signs (own ▸ signed)
  cases asks with
  | nothing => exact Or.inl rfl
  | @cancelDelegated source receiver net cpu transfer signed =>
    cases transfer with
    | false =>
      refine Or.inl ?_
      rw [Table.lookup_erase]
      exact if_neg (apart rfl signed)
    | true =>
      by_cases own : receiver = owner
      · refine Or.inr ⟨by simp only [Action.gives, own, decide_true, Bool.and_self], ?_⟩
        rw [Table.lookup_erase]
        exact if_pos (congrArg refundId own.symm)
      · refine Or.inl ?_
        rw [Table.lookup_erase]
        exact if_neg (refundId_ne own)
  | cancelUndelegated signed =>
    refine Or.inl ?_
    rw [Table.lookup_erase, if_neg (apart rfl signed)]
  | againDelegated signed left =>
    refine Or.inl ?_
    rw [Table.lookup_insert, if_neg (apart rfl signed), Table.lookup_erase,
      if_neg (apart rfl signed)]
  | refund signed opened =>
    refine Or.inl ?_
    rw [Table.lookup_insert, if_neg (apart rfl signed), Table.lookup_erase,
      if_neg (apart rfl signed)]
  | outbid named =>
    refine Or.inl ?_
    rw [Table.lookup_insert, if_neg (refundId_ne_bidrefundId named), Table.lookup_erase,
      if_neg (refundId_ne_bidrefundId named)]

/-- What an action leaves to an account that has not signed. -/
theorem act_spares {accepts : List ProducerKey → Bool} {act : Act}
    (unsigned : ∀ a, act = .system a → a.bands = true → owner ∉ c.auth)
    (done : act.apply c accepts ch = .ok ch') :
    ch.accounts ⊆ ch'.accounts ∧ ch'.refunds.lookup owner = ch.refunds.lookup owner ∧
      (ch'.deferred.lookup (refundId owner) = ch.deferred.lookup (refundId owner) ∨
        ((∃ a, act = .system a ∧ a.gives owner = true) ∧
          ch'.deferred.lookup (refundId owner) = none)) := by
  have idle {a : Action} (unsigned : a.bands = true → owner ∉ c.auth) (h : (do
      let s ← a.apply c ch.toState
      let h ← a.ask c ch.toHost ch.toState s
      pure ⟨s, h⟩ : Checked (Blockchain D)) = .ok ch') :
      ch.accounts ⊆ ch'.accounts ∧ ch'.refunds.lookup owner = ch.refunds.lookup owner ∧
        (ch'.deferred.lookup (refundId owner) = ch.deferred.lookup (refundId owner) ∨
          ((∃ b, Act.system a = .system b ∧ b.gives owner = true) ∧
            ch'.deferred.lookup (refundId owner) = none)) := by
    simp only [bind_eq_ok, pure_eq_ok] at h
    obtain ⟨s, taken, host, asked, rfl⟩ := h
    refine ⟨apply_grows taken, apply_refunds unsigned taken, ?_⟩
    exact ((ask_queue taken asked).claim unsigned).imp_right fun gift => ⟨⟨a, rfl, gift.1⟩, gift.2⟩
  cases act with
  | setparams params =>
    simp only [Act.apply, System.setparams, bind_eq_ok, pure_eq_ok] at done
    obtain ⟨_, ⟨-, -, -, -, rfl⟩, rfl⟩ := done
    exact ⟨List.Subset.refl _, rfl, Or.inl rfl⟩
  | setalimits account ram net cpu =>
    simp only [Act.apply, Blockchain.setalimits, bind_eq_ok, pure_eq_ok] at done
    obtain ⟨-, -, -, -, _, -, rfl⟩ := done
    exact ⟨List.Subset.refl _, rfl, Or.inl rfl⟩
  | system a =>
    cases a with
    | onblock slot producer =>
      obtain ⟨s, size, proposed, blocked, rfl, -⟩ := Blockchain.onblock_ok done
      obtain ⟨e, bids, -, -, rfl⟩ := onblock_ok blocked
      exact ⟨List.Subset.refl _, rfl, Or.inl rfl⟩
    | _ => exact idle (unsigned _ rfl) done

/-- `owner` has not signed the call. -/
def Event.unsigned (owner : Name) : Event → Bool
  | .call auth _ _ _ => decide (owner ∉ auth)
  | _ => true

/-- The claim of `owner` is canceled by a gift, or the chain drops it. -/
def Event.cancels (owner : Name) : Event → Bool
  | .call _ _ _ (.system a) => a.gives owner
  | .drop id => decide (id = refundId owner)
  | _ => false

/-- The claim of `owner` is run. -/
def Event.claims (owner : Name) : Event → Bool
  | .fire id _ => decide (id = refundId owner)
  | _ => false

/-- What a step leaves to an account that has not signed, whose claim is not run. -/
structure Spared (owner : Name) (e : Event) (ch ch' : Blockchain D) : Prop where
  grown : ch.accounts ⊆ ch'.accounts
  refunds : ch'.refunds.lookup owner = ch.refunds.lookup owner
  claim : ch'.deferred.lookup (refundId owner) = ch.deferred.lookup (refundId owner) ∨
    (e.cancels owner = true ∧ ch'.deferred.lookup (refundId owner) = none)

theorem Spared.same (owner : Name) (e : Event) (ch : Blockchain D) : Spared owner e ch ch :=
  ⟨List.Subset.refl _, rfl, Or.inl rfl⟩

/-- The claims of others are run without harm. -/
theorem fired_spares {who : Name → Bool} {id : Nat × Nat} {tx : Deferred} {e : Event}
    {accepts : List ProducerKey → Bool} {accounts : List Name}
    (claim : PaysBack who self accounts id tx) (apart : id ≠ refundId owner)
    (fired : Act.apply ⟨self, [tx.authority], now, fp⟩ accepts ch (.system tx.action) = .ok ch') :
    Spared owner e ch ch' := by
  have spared (unsigned : tx.action.bands = true → owner ≠ tx.authority)
      (gives : tx.action.gives owner = false) : Spared owner e ch ch' := by
    have absent (a : Action) (same : Act.system tx.action = .system a) (bands : a.bands = true) :
        owner ∉ [tx.authority] := by
      cases same
      rw [List.mem_singleton]
      exact unsigned bands
    obtain ⟨grown, refunds, kept | ⟨⟨a, same, given⟩, -⟩⟩ := act_spares absent fired
    · exact ⟨grown, refunds, Or.inl kept⟩
    · cases same
      cases gives.symm.trans given
  cases claim with
  | stake known signed => exact spared (fun _ own => apart (congrArg refundId own.symm)) rfl
  | bid named => exact spared nofun rfl

theorem step_spares {who : Name → Bool} (queued : Queued who self ch) (e : Event)
    (unsigned : e.unsigned owner = true)
    (quiet : e.claims owner = true → ch.deferred.lookup (refundId owner) = none) :
    Spared owner e ch (ch.step self fp e) := by
  unfold Blockchain.step
  cases done : ch.perform self fp e with
  | error message => exact .same owner e ch
  | ok ch' =>
    simp only
    cases e with
    | call auth now accepts act =>
      simp only [Blockchain.perform, bind_eq_ok] at done
      obtain ⟨-, -, done⟩ := done
      have absent : owner ∉ auth := of_decide_eq_true unsigned
      obtain ⟨grown, refunds, claim⟩ := act_spares (fun _ _ _ => absent) done
      refine ⟨grown, refunds, claim.imp_right ?_⟩
      rintro ⟨⟨a, rfl, gives⟩, none⟩
      exact ⟨gives, none⟩
    | fire id now =>
      simp only [Blockchain.perform, Blockchain.fire, bind_eq_ok, find_eq_ok] at done
      obtain ⟨tx, waiting, -, -, done⟩ := done
      have apart : id ≠ refundId owner := by
        rintro rfl
        cases (quiet (decide_eq_true rfl)).symm.trans waiting
      have gone : ({ ch with deferred := ch.deferred.erase id } : Blockchain D).deferred.lookup
          (refundId owner) = ch.deferred.lookup (refundId owner) := by
        rw [Table.lookup_erase, if_neg apart.symm]
      split at done
      · rename_i ch'' fired
        cases pure_eq_ok.mp done
        obtain ⟨grown, refunds, claim⟩ := fired_spares (e := .fire id now)
          (queued.deferred id tx waiting) apart fired
        rw [gone] at claim
        exact ⟨grown, refunds, claim⟩
      · cases pure_eq_ok.mp done
        exact ⟨List.Subset.refl _, rfl, Or.inl gone⟩
    | drop id =>
      simp only [Blockchain.perform, pure_eq_ok] at done
      subst done
      refine ⟨List.Subset.refl _, rfl, ?_⟩
      simp only [Table.lookup_erase]
      split
      · rename_i here
        exact Or.inr ⟨decide_eq_true here.symm, rfl⟩
      · exact Or.inl rfl
    | token auth action =>
      simp only [Blockchain.perform, bind_eq_ok, pure_eq_ok] at done
      obtain ⟨-, -, token, taken, rfl⟩ := done
      exact ⟨List.Subset.refl _, rfl, Or.inl rfl⟩

/-! ## Being paid -/

/-- `owner` was paid `due`, from `eosio.stake`, and nothing is due to it any more. -/
structure Repaid (core : Symbol) (owner : Name) (due : Int) (s s' : State D) : Prop where
  settled : s'.refunds.lookup owner = none
  received : s'.balance owner core.code = s.balance owner core.code + due
  elsewhere : ∀ account, account ≠ STAKE_ACCOUNT → account ≠ owner →
    ∀ code, s'.balance account code = s.balance account code

theorem Running.repays (running : Running self core ch) (fp : Doubles D) (known : owner ∈ ch.accounts)
    (apart : STAKE_ACCOUNT ≠ owner) (found : ch.refunds.lookup owner = some req)
    (late : ((req.requestTime : Int) + REFUND_DELAY_SEC) * 1000000 ≤ now)
    (accepts : List ProducerKey → Bool) (h : Host) :
    ∃ s', Act.apply ⟨self, [owner], now, fp⟩ accepts ⟨ch.toState, h⟩ (.system (.refund owner)) =
        .ok ⟨s', h⟩ ∧ Repaid core owner req.due ch.toState s' := by
  obtain ⟨spare, stake⟩ := running.solvent.stake
  obtain ⟨s', done, erased, received, elsewhere⟩ := refund_pays (c := ⟨self, [owner], now, fp⟩) stake
    running.denominated (List.mem_singleton_self _) known apart found late
  refine ⟨s', bind_eq_ok.mpr ⟨s', done, bind_eq_ok.mpr ⟨h, rfl, rfl⟩⟩, ?_, received, elsewhere⟩
  rw [erased, Table.lookup_erase, if_pos rfl]

theorem Awaits.step {who : Name → Bool} (awaits : Awaits owner due ready ch)
    (queued : Queued who self ch) (e : Event) (unsigned : e.unsigned owner = true)
    (kept : e.cancels owner = false) (quiet : e.claims owner = false) :
    Awaits owner due ready (ch.step self fp e) := by
  have spared : Spared owner e ch (ch.step self fp e) :=
    step_spares queued e unsigned fun run => by cases quiet.symm.trans run
  obtain ⟨grown, refunds, claim⟩ := spared
  refine ⟨grown awaits.known, awaits.apart, ?_, ?_⟩
  · rw [refunds]
    exact awaits.owed
  · rcases claim with same | ⟨canceled, -⟩
    · rw [same]
      exact awaits.claimed
    · cases kept.symm.trans canceled

/-- The claim is run when it is due, and is paid. -/
theorem Running.fires (running : Running self core ch) (awaits : Awaits owner due ready ch)
    (late : ready ≤ now) :
    ∃ ch', ch.perform self fp (.fire (refundId owner) now) = .ok ch' ∧
      Repaid core owner due ch.toState ch'.toState := by
  obtain ⟨req, found, rfl, old⟩ := awaits.owed
  obtain ⟨s', done, repaid⟩ := running.repays fp awaits.known awaits.apart found
    (old.trans late) (fun _ => false) { ch.toHost with deferred := ch.deferred.erase (refundId owner) }
  refine ⟨⟨s', { ch.toHost with deferred := ch.deferred.erase (refundId owner) }⟩, ?_, repaid⟩
  simp only [Blockchain.perform, Blockchain.fire, bind_eq_ok, find_eq_ok, require_eq_ok, exists_const]
  refine ⟨_, awaits.claimed, late, ?_⟩
  simp only [done]
  rfl

/-! ## Every run -/

/-- Once the chain is active, an account can take back any part of what it has delegated, and all
that is due to it is claimed three days later. -/
theorem stake_withdrawable (launched : Launched self core ch) (events : List Event)
    (outside : ∀ e ∈ events, e.signedBy outsider = true)
    (counts : Along (Blockchain.step self fp)
      (fun ch e => e.allowed (fun s call => call.counts self s) fp ch = true) ch events) :
    let t := run (Blockchain.step self fp) ch events
    MIN_ACTIVATED_STAKE ≤ t.gstate.totalActivatedStake →
      ∀ source receiver row n m, t.delband.lookup (source, receiver) = some row → Within row n m →
        source ∈ t.accounts → STAKE_ACCOUNT ≠ source → source ≠ B1 → ∀ now accepts, 0 ≤ now →
        ∃ t', t.perform self fp (.call [source] now accepts
            (.system (.undelegatebw source receiver ⟨n, core⟩ ⟨m, core⟩))) = .ok t' ∧
          Awaits source (dueTo t.refunds source + n + m) (now + REFUND_DELAY_SEC * 1000000) t' :=
  fun active _ _ _ _ _ found within known apart other now accepts late =>
    (launched.run fp outside).withdraw (launched.ballots outside counts) fp now accepts active known
      apart other late found within

section

open Sample

theorem founded_launched : Launched eosio EOS (blockchain (opening founded EOS)) :=
  ⟨by decide +kernel, by decide, rfl, by decide +kernel, by decide, by decide, _, founded, 0,
    founded_fresh, rfl, rfl,
    opening_ok (show (perform eosio founded (call eosio 0 (.init 0 EOS))).isOk = true by
      decide +kernel)⟩

/-- `nick` votes with what he has staked for `rick`, and takes some back. -/
def withdrawing : List Event :=
  [signed nick 100 (.delegatebw nick rick (eos 1000) (eos 300) false),
    signed dick 101 (.regproducer dick key [] 0),
    signed nick 102 (.voteproducer nick NOBODY [dick]),
    signed nick 103 (.undelegatebw nick rick (eos 100) (eos 0))]

theorem withdrawing_withdrawable :
    let t := run (Blockchain.step eosio whole) (blockchain (opening founded EOS)) withdrawing
    ∃ t', t.perform eosio whole (.call [nick] 200000000 (fun _ => true)
        (.system (.undelegatebw nick rick (eos 400) (eos 300)))) = .ok t' ∧
      Awaits nick (dueTo t.refunds nick + 400 + 300) (200000000 + REFUND_DELAY_SEC * 1000000) t' :=
  stake_withdrawable founded_launched withdrawing (by decide +kernel) (by decide +kernel) (by decide +kernel)
    nick rick ⟨eos 900, eos 300⟩ 400 300 (by decide +kernel) ⟨by decide, by decide, by decide⟩
    (by decide +kernel) (by decide) (by decide) 200000000 _ (by decide)

end

/-- What is due is paid when its owner asks for it after three days. -/
theorem refund_payable (launched : Launched self core ch) (fp : Doubles D) (events : List Event)
    (outside : ∀ e ∈ events, e.signedBy outsider = true) :
    let t := run (Blockchain.step self fp) ch events
    ∀ owner req, t.refunds.lookup owner = some req → owner ∈ t.accounts → STAKE_ACCOUNT ≠ owner →
      ∀ now accepts, ((req.requestTime : Int) + REFUND_DELAY_SEC) * 1000000 ≤ now →
        ∃ t', t.perform self fp (.call [owner] now accepts (.system (.refund owner))) = .ok t' ∧
          Repaid core owner req.due t.toState t'.toState := by
  intro t owner req found known apart now accepts late
  obtain ⟨s', done, repaid⟩ := (launched.run fp outside).repays fp known apart found late accepts
    t.toHost
  refine ⟨⟨s', t.toHost⟩, ?_, repaid⟩
  simp only [Blockchain.perform, bind_eq_ok, require_eq_ok, exists_const, List.mem_singleton,
    forall_eq]
  exact ⟨known, done⟩

section

open Sample

theorem withdrawing_payable :
    let t := run (Blockchain.step eosio whole) (blockchain (opening founded EOS)) withdrawing
    ∃ t', t.perform eosio whole
        (.call [nick] 260000000000 (fun _ => true) (.system (.refund nick))) = .ok t' ∧
      Repaid EOS nick 100 t.toState t'.toState :=
  refund_payable founded_launched whole withdrawing (by decide +kernel) nick
    ⟨103, eos 100, eos 0⟩ (by decide +kernel) (by decide +kernel) (by decide) 260000000000 _
    (by decide)

end

/-- Whatever others do in between, short of giving stake to its owner, a claim is paid in full when
the chain runs it. -/
theorem refund_arrives (launched : Launched self core ch) (events later : List Event)
    (outside : ∀ e ∈ events ++ later, e.signedBy outsider = true)
    (awaits : Awaits owner due ready (run (Blockchain.step self fp) ch events))
    (unsigned : ∀ e ∈ later, e.unsigned owner = true)
    (kept : ∀ e ∈ later, e.cancels owner = false ∧ e.claims owner = false) (late : ready ≤ now) :
    let t := run (Blockchain.step self fp) ch (events ++ later)
    ∃ t', t.perform self fp (.fire (refundId owner) now) = .ok t' ∧
      Repaid core owner due t.toState t'.toState := by
  intro t
  obtain ⟨outsideFirst, outsideLater⟩ := List.forall_mem_append.mp outside
  have reached : Running self core t ∧ Awaits owner due ready t := by
    have split : t = run (Blockchain.step self fp) (run (Blockchain.step self fp) ch events) later :=
      run_append ch events later
    rw [split]
    refine run_invariant
      (I := fun ch => Running self core ch ∧ Awaits owner due ready ch) (fun ch e both ok => ?_)
      ⟨launched.run fp outsideFirst, awaits⟩
      (along_and (along_of_forall outsideLater _)
        (along_of_forall (fun e mem => And.intro (unsigned e mem) (kept e mem)) _))
    obtain ⟨running, awaits⟩ := both
    obtain ⟨signs, unsigned, kept, quiet⟩ := ok
    exact ⟨running.step launched.other launched.apart launched.own e signs,
      awaits.step running.queued e unsigned kept quiet⟩
  exact reached.1.fires reached.2 late

section

open Sample

/-- `nick` takes the rest back. -/
def resigning : Event :=
  .call [nick] 200000000 (fun _ => true) (.system (.undelegatebw nick rick (eos 900) (eos 300)))

theorem resigning_awaits :
    Awaits nick 1300 (200000000 + REFUND_DELAY_SEC * 1000000)
      (run (Blockchain.step eosio whole) (blockchain (opening founded EOS))
        (withdrawing ++ [resigning])) := by
  have running : Running eosio EOS (run (Blockchain.step eosio whole)
      (blockchain (opening founded EOS)) withdrawing) :=
    founded_launched.run whole (by decide +kernel)
  have ballots : Ballots (run (Blockchain.step eosio whole)
      (blockchain (opening founded EOS)) withdrawing).toElection :=
    founded_launched.ballots (by decide +kernel) (by decide +kernel)
  have delegated : (run (Blockchain.step eosio whole) (blockchain (opening founded EOS))
      withdrawing).delband.lookup (nick, rick) = some ⟨eos 900, eos 300⟩ := by decide +kernel
  have within : Within ⟨eos 900, eos 300⟩ 900 300 := ⟨by decide, by decide, by decide⟩
  obtain ⟨t, done, awaits⟩ := running.withdraw ballots whole 200000000 (fun _ => true) (by decide +kernel)
    (by decide +kernel) (by decide) (by decide) (by decide) delegated within
  have due : dueTo (run (Blockchain.step eosio whole) (blockchain (opening founded EOS))
      withdrawing).refunds nick = 100 := by decide +kernel
  have next : (run (Blockchain.step eosio whole) (blockchain (opening founded EOS))
      withdrawing).step eosio whole resigning = t := Blockchain.step_eq done
  rw [due] at awaits
  rw [run_append, run_cons, run_nil, next]
  exact awaits

/-- `rick` sends tokens to `eosio.stake` and stakes for `nick`; `dick` takes part in an auction. -/
def meanwhile : List Event :=
  [.token [rick] (.ledger (.transfer rick STAKE_ACCOUNT (eos 7) [])),
    signed rick 201 (.delegatebw rick nick (eos 50) (eos 50) false),
    signed dick 202 (.bidname dick com (eos 100)),
    signed rick 203 (.bidname rick com (eos 200)),
    .fire (bidrefundId com dick) 204000000,
    signed rick 205 (.undelegatebw rick nick (eos 50) (eos 0))]

theorem meanwhile_arrives :
    let t := run (Blockchain.step eosio whole) (blockchain (opening founded EOS))
      ((withdrawing ++ [resigning]) ++ meanwhile)
    ∃ t', t.perform eosio whole (.fire (refundId nick) 300000000000) = .ok t' ∧
      Repaid EOS nick 1300 t.toState t'.toState :=
  refund_arrives founded_launched (withdrawing ++ [resigning]) meanwhile (by decide +kernel)
    resigning_awaits (by decide) (by decide) (by decide)

end

/-! ## Gifts -/

/-- The row of `owner` is there, or not, and no transaction is deferred that claims it. -/
structure Unclaimed (owner : Name) (row : Option RefundRequest) (ch : Blockchain D) : Prop where
  row : ch.refunds.lookup owner = row
  unclaimed : ch.deferred.lookup (refundId owner) = none

theorem Unclaimed.step {who : Name → Bool} {row : Option RefundRequest}
    (stranded : Unclaimed owner row ch) (queued : Queued who self ch) (e : Event)
    (unsigned : e.unsigned owner = true) : Unclaimed owner row (ch.step self fp e) := by
  have spared : Spared owner e ch (ch.step self fp e) :=
    step_spares queued e unsigned fun _ => stranded.unclaimed
  obtain ⟨-, refunds, claim⟩ := spared
  refine ⟨refunds.trans stranded.row, ?_⟩
  rcases claim with same | ⟨-, none⟩
  · exact same.trans stranded.unclaimed
  · exact none

/-- Stake that is given cancels the claim of its receiver, and leaves its row. -/
theorem gift_cancels {auth : List Name} {accepts : List ProducerKey → Bool} {net cpu : Asset}
    (apart : STAKE_ACCOUNT ≠ source)
    (given : ch.perform self fp
      (.call auth now accepts (.system (.delegatebw source owner net cpu true))) = .ok ch') :
    Unclaimed owner (ch.refunds.lookup owner) ch' := by
  simp only [Blockchain.perform, Act.apply, bind_eq_ok, pure_eq_ok] at given
  obtain ⟨-, -, s, done, h, asked, rfl⟩ := given
  obtain ⟨-, -, -, netStake, cpuStake, -, changed⟩ := delegatebw_ok done
  have queue := askChangebw_queue asked
  have idle : ¬ net.amount + cpu.amount < 0 := by omega
  refine ⟨by rw [gift_refunds changed (by omega)], ?_⟩
  rw [if_pos apart] at queue
  simp only [queue, askRefund, delegator, Bool.not_true, Bool.false_and, idle, decide_false,
    Bool.or_self, Bool.false_eq_true, if_false, if_true, Table.lookup_erase]

/-- After a gift of stake its receiver is not refunded before it signs again, whatever is done. -/
theorem gift_strands {auth : List Name} {accepts : List ProducerKey → Bool} {net cpu : Asset}
    (known : self ∈ ch.accounts) (idle : ch.deferred = ∅) (events : List Event)
    (apart : STAKE_ACCOUNT ≠ source)
    (given : (run (Blockchain.step self fp) ch events).perform self fp
      (.call auth now accepts (.system (.delegatebw source owner net cpu true))) = .ok ch')
    (later : List Event) (unsigned : ∀ e ∈ later, e.unsigned owner = true) :
    Unclaimed owner ((run (Blockchain.step self fp) ch events).refunds.lookup owner)
      (run (Blockchain.step self fp) ch' later) := by
  have step (ch : Blockchain D) (e : Event) (queued : Queued (fun _ => true) self ch) :
      Queued (fun _ => true) self (ch.step self fp e) := by
    have pays : ∀ (s : State D) (call : Call D), call.action.refunds = true → true = true :=
      fun _ _ _ => rfl
    refine (step_moves pays queued e ?_ ?_).2
    · cases e <;> simp [Event.signedBy]
    · cases e with
      | call _ _ _ act => cases act <;> rfl
      | _ => rfl
  have reached : Queued (fun _ => true) self (run (Blockchain.step self fp) ch events) :=
    run_invariant (P := fun _ _ => True) (fun ch e queued _ => step ch e queued)
      (.idle known rfl idle) (along_of_forall (fun _ _ => trivial) ch)
  have queued : Queued (fun _ => true) self ch' := by
    rw [← Blockchain.step_eq given]
    exact step _ _ reached
  refine (run_invariant (I := fun t => Queued (fun _ => true) self t ∧ Unclaimed owner
      ((run (Blockchain.step self fp) ch events).refunds.lookup owner) t)
    (fun t e both unsigned => ?_) ⟨queued, gift_cancels apart given⟩
    (along_of_forall unsigned ch')).2
  exact ⟨step t e both.1, both.2.step both.1 e unsigned⟩

section

open Sample

/-- `dick` gives `nick`, who waits for a refund, the least stake there is. -/
theorem gift_stranded :
    let t := run (Blockchain.step eosio whole) (blockchain (opening founded EOS))
      (withdrawing ++ [resigning])
    ∃ t', t.perform eosio whole (.call [dick] 210000000 (fun _ => true)
        (.system (.delegatebw dick nick (eos 0) (eos 1) true))) = .ok t' ∧
      Unclaimed nick (t.refunds.lookup nick) (run (Blockchain.step eosio whole) t'
        [.fire (refundId nick) 300000000000]) := by
  intro t
  have given : (t.perform eosio whole (.call [dick] 210000000 (fun _ => true)
      (.system (.delegatebw dick nick (eos 0) (eos 1) true)))).isOk = true := by decide +kernel
  cases done : t.perform eosio whole (.call [dick] 210000000 (fun _ => true)
      (.system (.delegatebw dick nick (eos 0) (eos 1) true))) with
  | error message =>
    rw [done] at given
    cases given
  | ok t' =>
    exact ⟨t', rfl, gift_strands (by decide +kernel) rfl (withdrawing ++ [resigning]) (by decide) done
      [.fire (refundId nick) 300000000000] (by decide)⟩

end

end DecentralBank.System
