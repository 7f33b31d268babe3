import DecentralBank.System.Blockchain
import DecentralBank.System.Footprints

/-!
# Limits follow the stake

The chain enforces what the tables grant: an account that has a row in `userres`
has there the weights the chain gives it, and no more RAM than the chain lets it
use.
-/

namespace DecentralBank.System

open Checked Runs

variable {D : Type} {self : Name} {fp : Doubles D} {c : Ctx D} {s s' : State D} {ch ch' : Blockchain D}
  {a : Action} {h h' : Host} {account : Name}

/-- The account whose resources an action changes. -/
def Action.receives : Action → Option Name
  | .newaccount _ newact => some newact
  | .buyram _ receiver _ | .buyrambytes _ receiver _ => some receiver
  | .sellram account _ => some account
  | .delegatebw _ receiver _ _ _ | .undelegatebw _ receiver _ _ => some receiver
  | _ => none

/-- The chain gives an account what its row says. RAM that was given without a row stays. -/
structure UserResources.Granted (row : UserResources) (l : Limits) : Prop where
  net : l.netWeight = row.netWeight.amount
  cpu : l.cpuWeight = row.cpuWeight.amount
  ram : i64 (row.ramBytes + RAM_GIFT_BYTES) ≤ l.ramBytes ∨ (row.ramBytes = 0 ∧ l.ramBytes = 0)

/-- Every account has limits, and those with a row what it says. -/
structure Limited (userres : Table Name UserResources) (limits : Table Name Limits)
    (accounts : List Name) : Prop where
  known : ∀ account ∈ accounts, (limits.lookup account).isSome = true
  granted : userres.All fun account row => ∃ l, limits.lookup account = some l ∧ row.Granted l

/-! ## Resources -/

theorem updateTotals_elsewhere {userres userres' : Table Name UserResources} {receiver : Name}
    {net cpu : Asset} (h : updateTotals userres receiver net cpu = .ok userres')
    (other : account ≠ receiver) : userres'.lookup account = userres.lookup account := by
  simp only [updateTotals, bind_eq_ok, ite_eq_ok, pure_eq_ok] at h
  obtain ⟨row, -, -, -, -, -, ⟨-, rfl⟩ | ⟨-, rfl⟩⟩ := h
  · rw [Table.lookup_erase, if_neg other]
  · rw [Table.lookup_insert, if_neg other]

theorem grantRam_elsewhere {userres userres' : Table Name UserResources} {core : Symbol}
    {receiver : Name} {bytes : Int} (h : grantRam userres core receiver bytes = .ok userres')
    (other : account ≠ receiver) : userres'.lookup account = userres.lookup account := by
  unfold grantRam at h
  cases found : userres.lookup receiver with
  | none =>
    simp only [found, bind_eq_ok, pure_eq_ok] at h
    obtain ⟨_, -, rfl⟩ := h
    rw [Table.lookup_insert, if_neg other]
  | some row =>
    simp only [found, pure_eq_ok] at h
    subst h
    rw [Table.lookup_insert, if_neg other]

theorem pay_userres {source target : Name} {quantity : Asset} {memo : String}
    (h : s.pay source target quantity memo = .ok s') : s'.userres = s.userres := by
  obtain ⟨token, -, rfl⟩ := State.pay_ok h
  rfl

theorem updateRamSupply_userres (h : updateRamSupply c s = .ok s') : s'.userres = s.userres := by
  simp only [updateRamSupply, ite_eq_ok, bind_eq_ok, pure_eq_ok] at h
  obtain ⟨-, rfl⟩ | ⟨-, m, -, rfl⟩ := h
  · rfl
  · rfl

/-- RAM that is bought is granted to its receiver. -/
theorem buyram_grants {payer receiver : Name} {quant : Asset}
    (h : buyram c s payer receiver quant = .ok s') : ∃ core bytes, s.coreSymbol = .ok core ∧
      grantRam s.userres core receiver bytes = .ok s'.userres := by
  simp only [buyram, bind_eq_ok, ite_eq_ok, pure_eq_ok, Prod.exists] at h
  obtain ⟨-, -, raised, supplied, core, known, -, -, -, -, paid, sent, charged, fee, _, -, bytes, _,
    -, -, -, userres, granted, rfl⟩ := h
  have same : charged.userres = s.userres := by
    rw [← updateRamSupply_userres supplied, ← pay_userres sent]
    rcases fee with ⟨-, fee⟩ | ⟨-, rfl⟩
    · exact pay_userres fee
    · rfl
  rw [same] at granted
  have supply : Trades [] s raised := updateRamSupply_trades supplied
  rw [supply.market] at known
  exact ⟨core, bytes.amount, known, granted⟩

theorem sellram_row {seller : Name} {bytes : Int} (h : sellram c s seller bytes = .ok s') :
    ∃ row left, s.userres.lookup seller = some row ∧
      s'.userres = s.userres.insert seller { row with ramBytes := left } := by
  simp only [sellram, bind_eq_ok, ite_eq_ok, find_eq_ok, pure_eq_ok, Prod.exists] at h
  obtain ⟨-, -, raised, supplied, -, -, row, owned, -, -, _, -, _, -, _, -, _, _, -, -, -, -, -, paid,
    sent, fee⟩ := h
  have same : s'.userres = paid.userres := by
    rcases fee with ⟨-, _, -, fee⟩ | ⟨-, rfl⟩
    · exact pay_userres fee
    · rfl
  rw [updateRamSupply_userres supplied] at owned
  refine ⟨row, i64 (row.ramBytes - bytes), owned, ?_⟩
  rw [same, pay_userres sent, ← updateRamSupply_userres supplied]

theorem changebw_totals {source receiver : Name} {net cpu : Asset} {transfer : Bool}
    (h : changebw c s source receiver net cpu transfer = .ok s') :
    updateTotals s.userres receiver net cpu = .ok s'.userres := by
  obtain ⟨delband, userres, paid, -, -, -, totals, settled, voted⟩ := changebw_ok h
  obtain ⟨e, -, -, rfl⟩ := updateVotingPower_ok voted
  have same : paid.userres = userres := by
    rcases settled with ⟨-, settled⟩ | ⟨-, rfl⟩
    · obtain ⟨refunds, token, rfl, -⟩ := settleStake_moves settled
      rfl
    · rfl
  simp only [same, totals]

/-- An action leaves the resources of other accounts. -/
theorem apply_elsewhere (h : a.apply c s = .ok s') (other : a.receives ≠ some account) :
    s'.userres.lookup account = s.userres.lookup account := by
  have apart {receiver : Name} (other : some receiver ≠ some account) : account ≠ receiver :=
    fun same => other (congrArg some same.symm)
  have governed (governs : a.governs = true) :
      s'.userres.lookup account = s.userres.lookup account := by
    obtain ⟨e, rfl, -⟩ := apply_governs True governs h
    rfl
  cases a with
  | newaccount creator newact =>
    obtain ⟨_, _, -, -, -, rfl⟩ := newaccount_ok h
    simp only
    rw [Table.lookup_insert, if_neg (apart other)]
  | buyram payer receiver quant =>
    obtain ⟨core, bytes, -, granted⟩ := buyram_grants h
    exact grantRam_elsewhere granted (apart other)
  | buyrambytes payer receiver bytes =>
    simp only [Action.apply, buyrambytes, bind_eq_ok, Prod.exists] at h
    obtain ⟨_, -, _, -, _, -, eosout, _, -, bought⟩ := h
    obtain ⟨core, bytes, -, granted⟩ := buyram_grants bought
    exact grantRam_elsewhere granted (apart other)
  | sellram seller bytes =>
    obtain ⟨row, left, -, sold⟩ := sellram_row h
    rw [sold, Table.lookup_insert, if_neg (apart other)]
  | delegatebw source receiver net cpu transfer =>
    obtain ⟨-, -, -, -, -, -, changed⟩ := delegatebw_ok h
    exact updateTotals_elsewhere (changebw_totals changed) (apart other)
  | undelegatebw source receiver net cpu =>
    obtain ⟨-, -, -, -, -, changed⟩ := undelegatebw_ok h
    exact updateTotals_elsewhere (changebw_totals changed) (apart other)
  | init version core =>
    simp only [Action.apply, System.init, bind_eq_ok, pure_eq_ok] at h
    obtain ⟨-, -, -, -, -, -, _, -, -, -, -, -, rfl⟩ := h
    rfl
  | setram size =>
    simp only [Action.apply, setram, bind_eq_ok, pure_eq_ok] at h
    obtain ⟨-, -, -, -, -, -, -, -, m, -, rfl⟩ := h
    rfl
  | setramrate rate =>
    simp only [Action.apply, setramrate, bind_eq_ok, pure_eq_ok] at h
    obtain ⟨-, -, raised, supplied, rfl⟩ := h
    exact congrArg (·.lookup account) (updateRamSupply_userres supplied)
  | bidname bidder newname bid =>
    obtain ⟨_, _, _, rfl, -⟩ := bidname_moves h
    rfl
  | bidrefund bidder newname =>
    obtain ⟨_, _, rfl, -⟩ := bidrefund_moves h
    rfl
  | refund owner =>
    simp only [Action.apply, refund, bind_eq_ok, pure_eq_ok] at h
    obtain ⟨-, -, _, -, -, -, _, -, paid, sent, rfl⟩ := h
    exact congrArg (·.lookup account) (pay_userres sent)
  | claimrewards owner =>
    obtain ⟨_, _, rfl, -⟩ := (claimrewards_claims h).rest
    rfl
  | onblock slot producer =>
    obtain ⟨e, bids, -, -, rfl⟩ := onblock_ok h
    rfl
  | rmvproducer | updtrevision | regproducer | unregprod | voteproducer | regproxy =>
    exact governed rfl

/-! ## Limits -/

theorem setResourceLimits_ok {limits limits' : Table Name Limits} {l : Limits}
    (h : setResourceLimits limits account l = .ok limits') :
    (limits.lookup account).isSome = true ∧ limits' = limits.insert account l := by
  simp only [setResourceLimits, bind_eq_ok, find_eq_ok, pure_eq_ok] at h
  obtain ⟨_, found, rfl⟩ := h
  exact ⟨by rw [found]; rfl, rfl⟩

theorem askLimits_ok {receiver : Name} (asked : askLimits h s' receiver = .ok h') :
    ∃ l, h'.limits = h.limits.insert receiver l ∧
      ∀ row, s'.userres.lookup receiver = some row → row.Granted l := by
  simp only [askLimits, bind_eq_ok, find_eq_ok, pure_eq_ok] at asked
  obtain ⟨current, -, limits, set, rfl⟩ := asked
  obtain ⟨-, rfl⟩ := setResourceLimits_ok set
  refine ⟨_, rfl, fun row found => ?_⟩
  simp only [found]
  exact ⟨rfl, rfl, Or.inl (le_max_left _ _)⟩

/-- What an action asks of the limits of the account it changes, which has some, or is new. -/
theorem ask_limits (asked : a.ask c h s s' = .ok h') :
    (a.receives = none ∧ h'.limits = h.limits) ∨
      ∃ receiver l, a.receives = some receiver ∧ h'.limits = h.limits.insert receiver l ∧
        ((∃ creator, a = .newaccount creator receiver ∧ l = ⟨0, 0, 0⟩) ∨
          (∀ creator, a ≠ .newaccount creator receiver) ∧
            ∀ row, s'.userres.lookup receiver = some row → row.Granted l) := by
  have trade {receiver : Name} (asked : askTrade h s' receiver = .ok h') :
      ∃ l, h'.limits = h.limits.insert receiver l ∧
        ∀ row, s'.userres.lookup receiver = some row → row.Granted l := by
    simp only [askTrade, bind_eq_ok, find_eq_ok, pure_eq_ok] at asked
    obtain ⟨row, found, limits, set, rfl⟩ := asked
    obtain ⟨-, rfl⟩ := setResourceLimits_ok set
    refine ⟨row.limits, rfl, fun row' found' => ?_⟩
    cases found.symm.trans found'
    exact ⟨rfl, rfl, Or.inl (le_refl _)⟩
  have stake {source receiver : Name} {net cpu : Asset} {transfer : Bool}
      (asked : askChangebw c h s' source receiver net cpu transfer = .ok h') :
      ∃ l, h'.limits = h.limits.insert receiver l ∧
        ∀ row, s'.userres.lookup receiver = some row → row.Granted l := by
    simp only [askChangebw, bind_eq_ok, pure_eq_ok] at asked
    obtain ⟨host, limited, rfl⟩ := asked
    obtain ⟨l, set, granted⟩ := askLimits_ok limited
    refine ⟨l, ?_, granted⟩
    split
    · exact set
    · exact set
  cases a with
  | newaccount creator newact =>
    simp only [Action.ask, pure_eq_ok] at asked
    subst asked
    exact Or.inr ⟨newact, _, rfl, rfl, Or.inl ⟨creator, rfl, rfl⟩⟩
  | buyram | buyrambytes | sellram =>
    obtain ⟨l, set, granted⟩ := trade asked
    exact Or.inr ⟨_, l, rfl, set, Or.inr ⟨fun _ => Action.noConfusion, granted⟩⟩
  | delegatebw | undelegatebw =>
    obtain ⟨l, set, granted⟩ := stake asked
    exact Or.inr ⟨_, l, rfl, set, Or.inr ⟨fun _ => Action.noConfusion, granted⟩⟩
  | bidname bidder newname bid =>
    simp only [Action.ask, askBid, pure_eq_ok] at asked
    subst asked
    refine Or.inl ⟨rfl, ?_⟩
    split
    · rfl
    · rfl
  | init | setram | setramrate | rmvproducer | updtrevision | bidrefund | refund | regproducer
  | unregprod | voteproducer | regproxy | onblock | claimrewards =>
    simp only [Action.ask, pure_eq_ok] at asked
    subst asked
    exact Or.inl ⟨rfl, rfl⟩

theorem Limited.ask (limited : Limited s.userres h.limits s.accounts) (done : a.apply c s = .ok s')
    (asked : a.ask c h s s' = .ok h') : Limited s'.userres h'.limits s'.accounts := by
  have elsewhere {account : Name} (other : a.receives ≠ some account) :=
    apply_elsewhere done other
  have known {account : Name} (known : account ∈ s'.accounts) :
      account ∈ s.accounts ∨ a.receives = some account := by
    rcases apply_accounts done with same | ⟨creator, newact, rfl, grown⟩
    · exact Or.inl (same ▸ known)
    · rw [grown] at known
      rcases List.mem_cons.mp known with rfl | before
      · exact Or.inr rfl
      · exact Or.inl before
  rcases ask_limits asked with ⟨nobody, same⟩ | ⟨receiver, l, here, set, granted⟩
  · have other (account : Name) : a.receives ≠ some account := by
      rw [nobody]
      exact nofun
    refine ⟨fun account there => ?_, fun account row found => ?_⟩
    · rw [same]
      exact limited.known _ ((known there).resolve_right (other _))
    · rw [same]
      exact limited.granted _ _ (elsewhere (other account) ▸ found)
  · refine ⟨fun account there => ?_, fun account row found => ?_⟩
    · rw [set, Table.lookup_insert]
      split
      · rfl
      · rename_i apart
        refine limited.known _ ((known there).resolve_right fun own => apart ?_)
        exact (Option.some.inj (here.symm.trans own)).symm
    · simp only [set, Table.lookup_insert]
      split
      · rename_i same
        subst same
        refine ⟨l, rfl, ?_⟩
        rcases granted with ⟨creator, rfl, rfl⟩ | ⟨-, granted⟩
        · obtain ⟨none, _, -, -, nothing, rfl⟩ := newaccount_ok done
          simp only [Table.lookup_insert, if_true, Option.some.injEq] at found
          subst found
          exact ⟨nothing.symm, nothing.symm, Or.inr ⟨rfl, rfl⟩⟩
        · exact granted row found
      · rename_i apart
        have other : a.receives ≠ some account := by
          rw [here]
          exact fun same => apart (Option.some.inj same).symm
        exact limited.granted _ _ (elsewhere other ▸ found)

/-! ## Every run -/

/-- The limits of a chain follow its tables. -/
def Blockchain.limited (ch : Blockchain D) : Prop := Limited ch.userres ch.limits ch.accounts

theorem act_limited {accepts : List ProducerKey → Bool} {act : Act} (limited : ch.limited)
    (done : act.apply c accepts ch = .ok ch') : ch'.limited := by
  have idle {a : Action} (h : (do
      let s ← a.apply c ch.toState
      let h ← a.ask c ch.toHost ch.toState s
      pure ⟨s, h⟩ : Checked (Blockchain D)) = .ok ch') : ch'.limited := by
    simp only [bind_eq_ok, pure_eq_ok] at h
    obtain ⟨s, taken, host, asked, rfl⟩ := h
    exact limited.ask taken asked
  cases act with
  | setparams params =>
    simp only [Act.apply, System.setparams, bind_eq_ok, pure_eq_ok] at done
    obtain ⟨_, ⟨-, -, -, -, rfl⟩, rfl⟩ := done
    exact limited
  | setalimits account ram net cpu =>
    simp only [Act.apply, Blockchain.setalimits, bind_eq_ok, require_eq_ok, pure_eq_ok,
      Option.isNone_iff_eq_none, exists_const] at done
    obtain ⟨-, -, rowless, limits, set, rfl⟩ := done
    obtain ⟨-, rfl⟩ := setResourceLimits_ok set
    refine ⟨fun other known => ?_, fun other row found => ?_⟩
    · rw [Table.lookup_insert]
      split
      · rfl
      · exact limited.known other known
    · have apart : other ≠ account := by
        rintro rfl
        cases rowless.symm.trans found
      simp only [Table.lookup_insert, if_neg apart]
      exact limited.granted other row found
  | system a =>
    cases a with
    | onblock slot producer =>
      obtain ⟨s, size, proposed, blocked, rfl, -⟩ := Blockchain.onblock_ok done
      obtain ⟨e, bids, -, -, rfl⟩ := onblock_ok blocked
      exact limited
    | _ => exact idle done

theorem step_limited (limited : ch.limited) (e : Event) : (ch.step self fp e).limited := by
  unfold Blockchain.step
  cases done : ch.perform self fp e with
  | error message => exact limited
  | ok ch' =>
    simp only
    cases e with
    | call auth now accepts act =>
      simp only [Blockchain.perform, bind_eq_ok] at done
      obtain ⟨-, -, done⟩ := done
      exact act_limited limited done
    | fire id now =>
      simp only [Blockchain.perform, Blockchain.fire, bind_eq_ok, find_eq_ok] at done
      obtain ⟨tx, -, -, -, done⟩ := done
      have gone : Blockchain.limited { ch with deferred := ch.deferred.erase id } := limited
      split at done
      · rename_i fired
        cases pure_eq_ok.mp done
        exact act_limited gone fired
      · cases pure_eq_ok.mp done
        exact gone
    | drop id =>
      simp only [Blockchain.perform, pure_eq_ok] at done
      subst done
      exact limited
    | token auth action =>
      simp only [Blockchain.perform, bind_eq_ok, pure_eq_ok] at done
      obtain ⟨-, -, token, -, rfl⟩ := done
      exact limited

/-- Whatever is done, by anyone, an account with resources has on the chain the weights that its row
says, and at least the RAM it has bought. -/
theorem limits_follow (self : Name) (fp : Doubles D) (ch : Blockchain D) (rowless : ch.userres = ∅)
    (known : ∀ account ∈ ch.accounts, (ch.limits.lookup account).isSome = true)
    (events : List Event) : (run (Blockchain.step self fp) ch events).limited := by
  have start : ch.limited := ⟨known, by rw [rowless]; exact Table.All.empty _⟩
  exact run_invariant (I := Blockchain.limited) (P := fun _ _ => True)
    (fun ch e limited _ => step_limited limited e) start (along_of_forall (fun _ _ => trivial) ch)

section

open Sample

/-- Limits are set for `nick`, who has stake delegated to him and buys RAM, and cannot be set any
more; a name is made an account. -/
def limiting : List Event :=
  [.call [eosio] 99000000 (fun _ => true) (.setalimits nick 5000 0 0),
    signed dick 100 (.delegatebw dick nick (eos 1000) (eos 300) true),
    signed nick 101 (.undelegatebw nick nick (eos 400) (eos 0)),
    .call [eosio] 102000000 (fun _ => true) (.setalimits nick 0 0 0),
    signed dick 103 (.buyram dick rick (eos 1000)),
    signed eosio 104 (.newaccount eosio com),
    .fire (refundId nick) 300000000000]

theorem limiting_followed :
    let t := run (Blockchain.step eosio (always 5000)) (blockchain (opening founded EOS)) limiting
    t.limited ∧ t.limits.lookup nick = some ⟨5000, 600, 300⟩ ∧
      t.limits.lookup rick = some ⟨6400, 0, 0⟩ ∧ t.limits.lookup com = some ⟨0, 0, 0⟩ := by
  intro t
  have limited : t.limited := limits_follow eosio (always 5000) (blockchain (opening founded EOS))
    rfl (by decide +kernel) limiting
  exact ⟨limited, by decide +kernel, by decide +kernel, by decide +kernel⟩

end

end DecentralBank.System
