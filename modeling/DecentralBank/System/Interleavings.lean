import DecentralBank.System.Blockchain
import DecentralBank.System.Footprints

/-!
# Every order of steps

Whatever the chain does next, the tables move as one action moves them, with
signatures that were given: those of a call, or those a deferred transaction
carries. So what every such move keeps is kept in every run.
-/

namespace DecentralBank.System

open Checked Runs

variable {D : Type} {self : Name} {fp : Doubles D} {c : Ctx D} {s s' : State D}
  {ch ch' : Blockchain D}

/-- Only accounts in `who` have signed. -/
def Event.signedBy (who : Name → Bool) : Event → Bool
  | .call auth _ _ _ | .token auth _ => auth.all who
  | .fire .. | .drop .. => true

/-- A call of the contract is one of those that are `ok`. -/
def Event.allowed (ok : State D → Call D → Bool) (fp : Doubles D) (ch : Blockchain D) : Event → Bool
  | .call auth now _ (.system a) => ok ch.toState ⟨auth, now, fp, a⟩
  | _ => true

/-- Every event is allowed where every call is. -/
theorem allowed_any (fp : Doubles D) (ch : Blockchain D) (e : Event) :
    e.allowed (fun _ _ => true) fp ch = true := by
  cases e with
  | call auth now accepts act => cases act <;> rfl
  | _ => rfl

/-- Refunds, of stake or of bids. -/
def Action.refunds : Action → Bool
  | .refund .. | .bidrefund .. => true
  | _ => false

/-! ## What is asked of the queue -/

/-- What an action does to the deferred transactions. -/
inductive Asks (c : Ctx D) (s' : State D) (deferred : Table (Nat × Nat) Deferred) :
    Action → Table (Nat × Nat) Deferred → Prop
  | nothing {a} : Asks c s' deferred a deferred
  | cancelDelegated {source receiver net cpu transfer} (signed : source ∈ c.auth) :
      Asks c s' deferred (.delegatebw source receiver net cpu transfer)
        (deferred.erase (refundId (delegator source receiver transfer)))
  | cancelUndelegated {source receiver net cpu} (signed : source ∈ c.auth) :
      Asks c s' deferred (.undelegatebw source receiver net cpu)
        (deferred.erase (refundId source))
  | againDelegated {source net cpu row} (signed : source ∈ c.auth)
      (left : s'.refunds.lookup source = some row) :
      Asks c s' deferred (.delegatebw source source net cpu false)
        ((deferred.erase (refundId source)).insert (refundId source)
          ⟨c.now + REFUND_DELAY_SEC * 1000000, source, .refund source⟩)
  | refund {source receiver net cpu row} (signed : source ∈ c.auth)
      (opened : s'.refunds.lookup source = some row) :
      Asks c s' deferred (.undelegatebw source receiver net cpu)
        ((deferred.erase (refundId source)).insert (refundId source)
          ⟨c.now + REFUND_DELAY_SEC * 1000000, source, .refund source⟩)
  | outbid {bidder newname bid outdone} (named : newname ≠ NOBODY) :
      Asks c s' deferred (.bidname bidder newname bid)
        ((deferred.erase (bidrefundId newname outdone)).insert (bidrefundId newname outdone)
          ⟨c.now, c.self, .bidrefund outdone newname⟩)

theorem askChangebw_queue {h h' : Host} {source receiver : Name} {net cpu : Asset} {transfer : Bool}
    (asked : askChangebw c h s' source receiver net cpu transfer = .ok h') :
    h'.deferred = if STAKE_ACCOUNT ≠ source then
      (askRefund c h s' (delegator source receiver transfer) net cpu
        (!transfer && decide (delegator source receiver transfer = receiver))).deferred
      else h.deferred := by
  simp only [askChangebw, askLimits, bind_eq_ok, pure_eq_ok] at asked
  obtain ⟨_, ⟨_, -, _, -, rfl⟩, rfl⟩ := asked
  split
  · rfl
  · rfl

/-- Every action asks one of these. -/
theorem ask_queue {a : Action} {h h' : Host} (done : a.apply c s = .ok s')
    (asked : a.ask c h s s' = .ok h') : Asks c s' h.deferred a h'.deferred := by
  have same (kept : h'.deferred = h.deferred) : Asks c s' h.deferred a h'.deferred := by
    rw [kept]
    exact .nothing
  have trade {account : Name} (asked : askTrade h s' account = .ok h') :
      h'.deferred = h.deferred := by
    simp only [askTrade, bind_eq_ok, pure_eq_ok] at asked
    obtain ⟨_, -, _, -, rfl⟩ := asked
    rfl
  cases a with
  | buyram | buyrambytes | sellram => exact same (trade asked)
  | delegatebw source receiver net cpu transfer =>
    obtain ⟨-, -, -, netStake, cpuStake, -, changed⟩ := delegatebw_ok done
    obtain ⟨-, -, -, signed, -⟩ := changebw_ok changed
    have queue := askChangebw_queue asked
    split at queue
    · rw [queue]
      simp only [askRefund]
      split
      · rename_i needed
        rw [Bool.and_eq_true, Bool.or_eq_true, decide_eq_true_eq, Bool.and_eq_true,
          decide_eq_true_eq] at needed
        obtain ⟨toSelf | negative, left⟩ := needed
        · obtain ⟨own, here⟩ := toSelf
          cases transfer with
          | true => cases own
          | false =>
            obtain ⟨row, left⟩ := Option.isSome_iff_exists.mp left
            have same : source = receiver := here
            subst same
            exact .againDelegated signed left
        · omega
      · exact .cancelDelegated signed
    · exact same queue
  | undelegatebw source receiver net cpu =>
    obtain ⟨-, -, -, netStake, cpuStake, changed⟩ := undelegatebw_ok done
    obtain ⟨-, -, -, signed, -⟩ := changebw_ok changed
    have queue := askChangebw_queue asked
    split at queue
    · rw [queue]
      simp only [askRefund]
      split
      · rename_i needed
        rw [Bool.and_eq_true] at needed
        obtain ⟨row, opened⟩ := Option.isSome_iff_exists.mp needed.2
        exact .refund signed opened
      · exact .cancelUndelegated signed
    · exact same queue
  | bidname bidder newname bid =>
    have named : newname ≠ NOBODY := by
      simp only [Action.apply, bidname, bind_eq_ok, require_eq_ok, exists_const] at done
      obtain ⟨-, -, -, named, -⟩ := done
      exact named
    simp only [Action.ask, askBid, pure_eq_ok] at asked
    subst asked
    split
    · exact .nothing
    · exact .outbid named
  | newaccount =>
    simp only [Action.ask, pure_eq_ok] at asked
    subst asked
    exact .nothing
  | init | setram | setramrate | rmvproducer | updtrevision | bidrefund | refund | regproducer
  | unregprod | voteproducer | regproxy | onblock | claimrewards =>
    simp only [Action.ask, pure_eq_ok] at asked
    subst asked
    exact .nothing

/-! ## The queue -/

section

variable {who : Name → Bool} {ok : State D → Call D → Bool}

/-- A deferred transaction pays its owner back: stake, which the owner has taken back, or a bid. -/
inductive PaysBack (who : Name → Bool) (self : Name) (accounts : List Name) :
    Nat × Nat → Deferred → Prop
  | stake {owner ready} (known : owner ∈ accounts) (signed : who owner = true) :
      PaysBack who self accounts (refundId owner) ⟨ready, owner, .refund owner⟩
  | bid {newname bidder ready} (named : newname ≠ NOBODY) :
      PaysBack who self accounts (bidrefundId newname bidder)
        ⟨ready, self, .bidrefund bidder newname⟩

/-- The contract's account is there and may sign, and all that is deferred pays somebody back. -/
structure Queued (who : Name → Bool) (contract : Name) (ch : Blockchain D) : Prop where
  known : contract ∈ ch.accounts
  signs : who contract = true
  deferred : ch.deferred.All (PaysBack who contract ch.accounts)

theorem Queued.idle {ch : Blockchain D} (known : self ∈ ch.accounts) (signs : who self = true)
    (idle : ch.deferred = ∅) : Queued who self ch :=
  ⟨known, signs, by rw [idle]; exact Table.All.empty _⟩

theorem PaysBack.mono {accounts accounts' : List Name} {id : Nat × Nat} {tx : Deferred}
    (h : PaysBack who self accounts id tx) (grown : accounts ⊆ accounts') :
    PaysBack who self accounts' id tx := by
  cases h with
  | stake known signed => exact .stake (grown known) signed
  | bid named => exact .bid named

theorem Asks.paysBack {a : Action} {accounts : List Name} {deferred' : Table (Nat × Nat) Deferred}
    {deferred : Table (Nat × Nat) Deferred} (asks : Asks c s' deferred a deferred')
    (own : c.self = self) (before : deferred.All (PaysBack who self accounts))
    (known : ∀ account ∈ c.auth, account ∈ accounts)
    (signs : ∀ account ∈ c.auth, who account = true) :
    deferred'.All (PaysBack who self accounts) := by
  cases asks with
  | nothing => exact before
  | cancelDelegated signed => exact before.erase _
  | cancelUndelegated signed => exact before.erase _
  | againDelegated signed left =>
    exact (before.erase _).insert (.stake (known _ signed) (signs _ signed))
  | refund signed opened =>
    exact (before.erase _).insert (.stake (known _ signed) (signs _ signed))
  | outbid named =>
    rw [own]
    exact (before.erase _).insert (.bid named)

/-! ## Moves -/

/-- What a step does to the tables: it takes an action, whose signatures were given, sets the
parameters, or takes an action of `eosio.token`. -/
inductive Moves (who : Name → Bool) (ok : State D → Call D → Bool) (self : Name) (fp : Doubles D)
    (s : State D) : State D → Prop
  | act {auth now a s'} (size : Nat) (known : ∀ account ∈ auth, account ∈ s.accounts)
      (signs : ∀ account ∈ auth, who account = true) (allowed : ok s ⟨auth, now, fp, a⟩ = true)
      (done : a.apply ⟨self, auth, now, fp⟩ s = .ok s') : Moves who ok self fp s (s'.resize size)
  | params {params : BlockchainParameters} : Moves who ok self fp s
      { s with gstate := { s.gstate with toBlockchainParameters := params } }
  | token {auth action token} (signs : ∀ account ∈ auth, who account = true)
      (done : Token.EosioToken.apply ⟨TOKEN_ACCOUNT, auth, s.isAccount⟩ s.token action = .ok token) :
      Moves who ok self fp s { s with token }
  | stay : Moves who ok self fp s s

/-- An action of the contract moves the tables and keeps the queue. -/
theorem act_moves {auth : List Name} {now : Int} {accepts : List ProducerKey → Bool} {act : Act}
    (queued : Queued who self ch) (known : ∀ account ∈ auth, account ∈ ch.accounts)
    (signs : ∀ account ∈ auth, who account = true)
    (allowed : ∀ a, act = .system a → ok ch.toState ⟨auth, now, fp, a⟩ = true)
    (done : act.apply ⟨self, auth, now, fp⟩ accepts ch = .ok ch') :
    Moves who ok self fp ch.toState ch'.toState ∧ Queued who self ch' := by
  have idle {a : Action} (allowed : ok ch.toState ⟨auth, now, fp, a⟩ = true)
      (h : (do
        let s ← a.apply ⟨self, auth, now, fp⟩ ch.toState
        let h ← a.ask ⟨self, auth, now, fp⟩ ch.toHost ch.toState s
        pure ⟨s, h⟩ : Checked (Blockchain D)) = .ok ch') :
      Moves who ok self fp ch.toState ch'.toState ∧ Queued who self ch' := by
    simp only [bind_eq_ok, pure_eq_ok] at h
    obtain ⟨s, taken, host, asked, rfl⟩ := h
    have grown := apply_grows taken
    refine ⟨.act s.gstate.lastProducerScheduleSize known signs allowed taken,
      grown queued.known, queued.signs, ?_⟩
    exact (ask_queue taken asked).paysBack rfl
      (fun id tx found => (queued.deferred id tx found).mono grown)
      (fun account signed => grown (known account signed)) signs
  cases act with
  | setparams params =>
    simp only [Act.apply, System.setparams, bind_eq_ok, pure_eq_ok] at done
    obtain ⟨_, ⟨-, -, -, -, rfl⟩, rfl⟩ := done
    exact ⟨.params, queued.known, queued.signs, queued.deferred⟩
  | setalimits account ram net cpu =>
    simp only [Act.apply, Blockchain.setalimits, bind_eq_ok, pure_eq_ok] at done
    obtain ⟨-, -, -, -, _, -, rfl⟩ := done
    exact ⟨.stay, queued.known, queued.signs, queued.deferred⟩
  | system a =>
    cases a with
    | onblock slot producer =>
      obtain ⟨s, size, proposed, blocked, rfl, -⟩ := Blockchain.onblock_ok done
      have same : s.accounts = ch.accounts := by
        obtain ⟨e, bids, -, -, rfl⟩ := onblock_ok blocked
        rfl
      refine ⟨.act (a := .onblock slot producer) size known signs (allowed _ rfl) blocked, ?_,
        queued.signs, ?_⟩
      · exact same ▸ queued.known
      · have kept := queued.deferred
        rw [← same] at kept
        exact kept
    | _ => exact idle (allowed _ rfl) done

variable (pays : ∀ s call, call.action.refunds = true → ok s call = true)

include pays

/-- So does a deferred transaction. -/
theorem fired_moves {id : Nat × Nat} {tx : Deferred} {now : Int} {accepts : List ProducerKey → Bool}
    (queued : Queued who self ch) (claim : PaysBack who self ch.accounts id tx)
    (fired : Act.apply ⟨self, [tx.authority], now, fp⟩ accepts ch (.system tx.action) = .ok ch') :
    Moves who ok self fp ch.toState ch'.toState ∧ Queued who self ch' := by
  have signs (account : Name) (known : account ∈ ch.accounts) (signs : who account = true) :
      (∀ signer ∈ [account], signer ∈ ch.accounts) ∧ ∀ signer ∈ [account], who signer = true := by
    simp only [List.mem_singleton, forall_eq]
    exact ⟨known, signs⟩
  cases claim with
  | stake known signed =>
    obtain ⟨known, signs⟩ := signs _ known signed
    refine act_moves queued known signs (fun a same => pays _ _ ?_) fired
    cases same
    rfl
  | bid named =>
    obtain ⟨known, signs⟩ := signs _ queued.known queued.signs
    refine act_moves queued known signs (fun a same => pays _ _ ?_) fired
    cases same
    rfl

/-- A step moves the tables and keeps the queue. -/
theorem step_moves (queued : Queued who self ch) (e : Event) (signs : e.signedBy who = true)
    (allowed : e.allowed ok fp ch = true) :
    Moves who ok self fp ch.toState (ch.step self fp e).toState ∧
      Queued who self (ch.step self fp e) := by
  unfold Blockchain.step
  cases done : ch.perform self fp e with
  | error message => exact ⟨.stay, queued⟩
  | ok ch' =>
    simp only
    cases e with
    | call auth now accepts act =>
      simp only [Blockchain.perform, bind_eq_ok, require_eq_ok, exists_const] at done
      obtain ⟨known, done⟩ := done
      refine act_moves queued known (List.all_eq_true.mp signs) (fun a same => ?_) done
      subst same
      exact allowed
    | fire id now =>
      simp only [Blockchain.perform, Blockchain.fire, bind_eq_ok, find_eq_ok] at done
      obtain ⟨tx, waiting, -, -, done⟩ := done
      have gone : Queued who self { ch with deferred := ch.deferred.erase id } :=
        ⟨queued.known, queued.signs, queued.deferred.erase id⟩
      split at done
      · rename_i ch'' fired
        cases pure_eq_ok.mp done
        have moved := fired_moves pays gone (queued.deferred id tx waiting) fired
        exact moved
      · cases pure_eq_ok.mp done
        exact ⟨.stay, gone⟩
    | drop id =>
      simp only [Blockchain.perform, pure_eq_ok] at done
      subst done
      exact ⟨.stay, queued.known, queued.signs, queued.deferred.erase id⟩
    | token auth action =>
      simp only [Blockchain.perform, bind_eq_ok, pure_eq_ok] at done
      obtain ⟨-, -, token, taken, rfl⟩ := done
      exact ⟨.token (List.all_eq_true.mp signs) taken, queued.known, queued.signs, queued.deferred⟩

/-- What every move keeps is kept in every run. -/
theorem moves_invariant {I : State D → Prop}
    (kept : ∀ s s', I s → Moves who ok self fp s s' → I s') (queued : Queued who self ch)
    (start : I ch.toState) {events : List Event} (signs : ∀ e ∈ events, e.signedBy who = true)
    (allowed : Along (Blockchain.step self fp) (fun ch e => e.allowed ok fp ch = true) ch events) :
    Queued who self (run (Blockchain.step self fp) ch events) ∧
      I (run (Blockchain.step self fp) ch events).toState := by
  refine run_invariant (I := fun ch => Queued who self ch ∧ I ch.toState) (fun ch e h ok => ?_)
    ⟨queued, start⟩ (along_and (along_of_forall signs ch) allowed)
  obtain ⟨moved, queued⟩ := step_moves pays h.1 e ok.1 ok.2
  exact ⟨queued, kept _ _ h.2 moved⟩

end

end DecentralBank.System
