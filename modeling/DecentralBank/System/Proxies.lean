import DecentralBank.Lib.Chains
import DecentralBank.System.BandwidthSteps
import DecentralBank.System.Dispatch

/-!
# The graph of proxies

A voter may name a proxy only while that proxy has none, and a proxy may name
none, so no chain of proxies comes back to where it began, although a proxy
that is no longer one may go on to name another. A change of weight that is
passed along a chain therefore ends.
-/

namespace DecentralBank.System

open Checked Runs Chains

variable {D : Type}

abbrev Standings := Name → Option Standing

/-- The proxy of an account. -/
def proxyOf (st : Standings) (k : Name) : Option Name :=
  (st k).bind fun v => if v.proxy = NOBODY then none else some v.proxy

structure Proxied (st : Standings) : Prop where
  sinks : ∀ k v, st k = some v → v.isProxy = true → v.proxy = NOBODY
  acyclic : Acyclic (proxyOf st)

theorem proxyOf_some {st : Standings} {k p : Name} :
    proxyOf st k = some p ↔ ∃ v, st k = some v ∧ v.proxy = p ∧ p ≠ NOBODY := by
  unfold proxyOf
  cases st k with
  | none => simp
  | some v =>
    simp only [Option.bind_some, Option.some.injEq, exists_eq_left']
    split
    · rename_i none
      simp only [reduceCtorEq, false_iff, not_and, not_not]
      intro same
      rw [← same, none]
    · rename_i some
      simp only [Option.some.injEq]
      constructor
      · intro same
        exact ⟨same, same ▸ some⟩
      · intro same
        exact same.1

theorem Proxied.empty : Proxied fun _ => none where
  sinks k v h := by cases h
  acyclic a cycle := by
    obtain ⟨b, link⟩ := first_link cycle
    cases link

/-! ## Changes of the graph -/

variable {st : Standings} {k : Name} {v : Standing}

/-- The proxy of a row that is written is what the row says. -/
theorem proxyOf_update (st : Standings) (k : Name) (v : Standing) :
    proxyOf (Function.update st k (some v)) =
      Function.update (proxyOf st) k (if v.proxy = NOBODY then none else some v.proxy) := by
  funext j
  simp only [proxyOf, Function.update_apply]
  split
  · rw [Option.bind_some]
  · rfl

theorem Proxied.sinks_update (h : Proxied st) (sink : v.isProxy = true → v.proxy = NOBODY) :
    ∀ j u, Function.update st k (some v) j = some u → u.isProxy = true → u.proxy = NOBODY := by
  intro j u found
  rw [Function.update_apply] at found
  split at found
  · cases found
    exact sink
  · exact h.sinks j u found

/-- A voter without a proxy, or with the one it had. -/
theorem Proxied.keep (h : Proxied st) (sink : v.isProxy = true → v.proxy = NOBODY)
    (same : v.proxy = NOBODY ∨ ∃ old, st k = some old ∧ old.proxy = v.proxy) :
    Proxied (Function.update st k (some v)) := by
  refine ⟨h.sinks_update sink, h.acyclic.mono fun a b link => ?_⟩
  unfold Links at link ⊢
  rw [proxyOf_update, Function.update_apply] at link
  split at link
  · rename_i here
    subst here
    split at link
    · cases link
    · rename_i some
      obtain ⟨old, found, stays⟩ := same.resolve_left some
      exact proxyOf_some.mpr ⟨old, found, stays.trans (Option.some.inj link),
        Option.some.inj link ▸ some⟩
  · exact link

/-- A voter that is no proxy names another account that is one. -/
theorem Proxied.choose (h : Proxied st) {new : Standing} (apart : k ≠ v.proxy)
    (own : v.isProxy = false) (found : st v.proxy = some new) (registered : new.isProxy = true) :
    Proxied (Function.update st k (some v)) := by
  have last : proxyOf st v.proxy = none := by
    rw [proxyOf, found, Option.bind_some, if_pos (h.sinks _ _ found registered)]
  refine ⟨h.sinks_update fun on => ?_, ?_⟩
  · cases own.symm.trans on
  · rw [proxyOf_update]
    split
    · refine h.acyclic.mono fun a b link => ?_
      unfold Links at link ⊢
      rw [Function.update_apply] at link
      split at link
      · cases link
      · exact link
    · exact h.acyclic.redirect apart last

/-! ## Every action keeps it -/

variable {c : Ctx D} {s s' : State D} {e e' : Election D}

theorem Proxied.vote (h : Proxied e.standing) {voterName proxy : Name} {producers : List Name}
    (voted : updateVotes c e voterName proxy producers true = .ok e') : Proxied e'.standing := by
  obtain ⟨voter, settled, weight, found, reweighed, named, rfl⟩ := updateVotes_ok voted
  have row : settled.standing voterName = some voter.standing := by
    rw [reweighed.standing, Election.standing, found, Option.map_some]
  have written : Election.standing { settled with voters := settled.voters.modify voterName fun v =>
      { v with lastVoteWeight := weight, producers, proxy } } =
      Function.update e.standing voterName (some { voter.standing with producers, proxy }) := by
    funext k
    rw [← reweighed.standing]
    simp only [Election.standing, Table.lookup_modify, Function.update_apply] at row ⊢
    split
    · rename_i here
      subst here
      cases there : settled.voters.lookup k with
      | none =>
        rw [there] at row
        cases row
      | some v =>
        rw [there, Option.map_some] at row
        rw [← Option.some.inj row]
        rfl
    · rfl
  rw [written]
  by_cases none : proxy = NOBODY
  · exact h.keep (fun _ => none) (Or.inl none)
  · obtain ⟨apart, own, new, there, registered⟩ := named none
    exact h.choose apart own there (registered rfl)

/-- A voter that has no proxy may be registered as one. -/
theorem Proxied.switch (h : Proxied e.standing) {proxy : Name} {voter : VoterInfo D}
    {isProxy : Bool}
    (found : e.voters.lookup proxy = some voter) (single : isProxy = false ∨ voter.proxy = NOBODY) :
    Proxied
      (Election.standing { e with voters := e.voters.insert proxy { voter with isProxy } }) := by
  rw [standing_insert]
  refine h.keep (fun on => ?_) (Or.inr ⟨voter.standing, ?_, rfl⟩)
  · exact single.resolve_left fun off => by cases off.symm.trans on
  · rw [Election.standing, found, Option.map_some]

theorem Proxied.register (h : Proxied s.standing) {proxy : Name} {isProxy : Bool}
    (done : regproxy c s proxy isProxy = .ok s') : Proxied s'.standing := by
  obtain ⟨e, rfl, ⟨-, rfl⟩ | ⟨voter, found, single, passed⟩⟩ := regproxy_ok done
  · rw [standing_insert]
    exact h.keep (fun _ => rfl) (Or.inl rfl)
  · rw [(propagate_reweighed passed).standing]
    exact h.switch found single

theorem Proxied.restake (h : Proxied e.standing) (owner : Name) (total : Asset) :
    Proxied (Election.standing { e with
      voters := e.voters.insert owner (restake c (e.voters.lookup owner) total) }) := by
  rw [standing_insert]
  unfold System.restake
  cases found : e.voters.lookup owner with
  | none => exact h.keep (fun _ => rfl) (Or.inl rfl)
  | some voter =>
    have row : e.standing owner = some voter.standing := by
      rw [Election.standing, found, Option.map_some]
    exact h.keep (fun on => h.sinks owner voter.standing row on) (Or.inr ⟨_, row, rfl⟩)

theorem Proxied.stake (h : Proxied s.standing) {owner : Name} {total : Asset}
    (done : updateVotingPower c s owner total = .ok s') : Proxied s'.standing := by
  obtain ⟨e, -, reweighed, rfl⟩ := updateVotingPower_ok done
  rw [reweighed.standing]
  exact h.restake owner total

theorem Proxied.changebw (h : Proxied s.standing) {source receiver : Name} {net cpu : Asset}
    {transfer : Bool} (done : changebw c s source receiver net cpu transfer = .ok s') :
    Proxied s'.standing := by
  obtain ⟨delband, userres, paid, -, -, -, -, settled, voted⟩ := changebw_ok done
  refine Proxied.stake ?_ voted
  rcases settled with ⟨-, settled⟩ | ⟨-, rfl⟩
  · rw [settleStake_election settled]
    exact h
  · exact h

/-- What `voteproducer`, `regproxy`, `delegatebw` and `undelegatebw` are. -/
def Action.votes : Action → Bool
  | .voteproducer .. | .regproxy .. | .delegatebw .. | .undelegatebw .. => true
  | _ => false

theorem Proxied.apply (h : Proxied s.standing) {a : Action} (votes : a.votes = true)
    (done : a.apply c s = .ok s') : Proxied s'.standing := by
  cases a <;> try cases votes
  case voteproducer voter proxy producers =>
    simp only [Action.apply, voteproducer, bind_eq_ok, pure_eq_ok] at done
    obtain ⟨-, -, e, voted, rfl⟩ := done
    exact h.vote voted
  case regproxy proxy isProxy => exact h.register done
  case delegatebw source receiver net cpu transfer =>
    obtain ⟨-, -, -, -, -, -, changed⟩ := delegatebw_ok done
    exact h.changebw changed
  case undelegatebw source receiver net cpu =>
    obtain ⟨-, -, -, -, -, changed⟩ := undelegatebw_ok done
    exact h.changebw changed

/-! ## Propagation ends -/

/-- A failure other than a recursion that was not over in time. -/
@[simp] def Ended (message : String) : Prop := message ≠ ENDLESS

/-- The recursion is over, and more fuel makes no difference. -/
def Ends (c : Ctx D) (fuel : Nat) (e : Election D) (owner : Name) (voter : VoterInfo D) : Prop :=
  FailsOnly Ended (propagateWeightChange c fuel e owner voter) ∧ ∀ more, fuel ≤ more →
    propagateWeightChange c more e owner voter = propagateWeightChange c fuel e owner voter

theorem shiftVotes_ended {delta : D} (a : Accrued D) (producer : Name) :
    FailsOnly Ended (shiftVotes c delta a producer) := by
  simp [shiftVotes, ENDLESS]

/-- One call ends when the call for the voter's proxy does. -/
theorem Ends.succ {fuel : Nat} {owner : Name} {voter : VoterInfo D}
    (rest : ∀ proxy row, voter.proxy ≠ NOBODY → e.voters.lookup voter.proxy = some proxy →
      row.standing = proxy.standing →
      Ends c fuel { e with voters := e.voters.insert voter.proxy row } voter.proxy row) :
    Ends c (fuel + 1) e owner voter := by
  constructor
  · simp only [propagateWeightChange]
    refine .bind (by simp [ENDLESS]) fun _ _ => .bind ?_ fun _ _ => failsOnly_pure _
    refine failsOnly_ite.mpr ⟨fun _ => failsOnly_ite.mpr ⟨fun some => ?_, fun _ => ?_⟩, fun _ => ?_⟩
    · refine .bind (by simp [ENDLESS]) fun proxy found => ?_
      exact (rest proxy _ some (find_eq_ok.mp found) (by rfl)).1
    · exact .bind (failsOnly_foldlM shiftVotes_ended _ _) fun _ _ => failsOnly_pure _
    · exact failsOnly_pure _
  · intro more enough
    obtain ⟨more, rfl⟩ : ∃ n, more = n + 1 := ⟨more - 1, by omega⟩
    simp only [propagateWeightChange]
    refine bind_congr fun _ => congrArg (· >>= _) ?_
    split
    · split
      · rename_i some
        cases found : e.voters.lookup voter.proxy with
        | none => simp only [find, found]; rfl
        | some proxy =>
          simp only [find, found]
          exact (rest proxy _ some found (by rfl)).2 more (by omega)
      · rfl
    · rfl

theorem mem_keys {k : Name} {v : VoterInfo D} (found : e.voters.lookup k = some v) :
    k ∈ e.voters.keys :=
  AList.lookup_isSome.mp (by rw [found, Option.isSome_some])

/-- The recursion goes along a chain of proxies. -/
theorem propagate_ends (h : Proxied e.standing) {owner : Name} {voter : VoterInfo D}
    (found : e.voters.lookup owner = some voter) : Ends c e.depth e owner voter := by
  refine h.acyclic.steps (P := fun n k => ∀ e' v, e'.standing = e.standing →
    e'.voters.lookup k = some v → Ends c n e' k v) ?_ owner (mem_keys found) e voter rfl found
  intro n k next e' v same there
  refine Ends.succ fun proxy row chosen stands kept => next v.proxy ?_ ?_ _ _ ?_ ?_
  · refine proxyOf_some.mpr ⟨v.standing, ?_, rfl, chosen⟩
    rw [← same, Election.standing, there, Option.map_some]
  · have row : e.standing v.proxy = some proxy.standing := by
      rw [← same, Election.standing, stands, Option.map_some]
    cases stood : e.voters.lookup v.proxy with
    | none =>
      rw [Election.standing, stood] at row
      cases row
    | some old => exact mem_keys stood
  · rw [(Reweighed.voter stands kept).standing, same]
  · rw [Table.lookup_insert, if_pos rfl]

theorem depth_insert {k : Name} {v v' : VoterInfo D} (found : e.voters.lookup k = some v) :
    Election.depth { e with voters := e.voters.insert k v' } = e.depth := by
  have here := mem_keys found
  have some := List.length_pos_of_mem here
  rw [Election.depth, AList.keys_insert, List.length_cons, List.length_erase_of_mem here]
  exact Nat.sub_add_cancel some

theorem propagate_insert_ended {proxy : Name} {row row' : VoterInfo D}
    (h : Proxied (Election.standing { e with voters := e.voters.insert proxy row' }))
    (found : e.voters.lookup proxy = some row) :
    FailsOnly Ended (propagateWeightChange c e.depth { e with voters := e.voters.insert proxy row' }
      proxy row') := by
  rw [← depth_insert found]
  exact (propagate_ends h (by rw [Table.lookup_insert, if_pos rfl])).1

/-! ## No action runs on -/

theorem setProxied_ended (h : Proxied e.standing) {proxy : Name} {row : VoterInfo D} {weight : D}
    (found : e.voters.lookup proxy = some row) :
    FailsOnly Ended (setProxied c e proxy row weight) := by
  refine propagate_insert_ended ?_ found
  rw [(Reweighed.voter found (by rfl)).standing]
  exact h

theorem withdrawVote_ended (h : Proxied e.standing) {voter : VoterInfo D} :
    FailsOnly Ended (withdrawVote c e voter) := by
  refine failsOnly_ite.mpr ⟨fun _ => failsOnly_ite.mpr ⟨fun _ => ?_, fun _ => ?_⟩, fun _ => ?_⟩
  · refine .bind (by simp [ENDLESS]) fun old found => ?_
    exact .bind (setProxied_ended h (find_eq_ok.mp found)) fun _ _ => failsOnly_pure _
  · exact failsOnly_pure _
  · exact failsOnly_pure _

theorem castVote_ended (h : Proxied e.standing) {deltas : Deltas D} {weight : D} {proxy : Name}
    {producers : List Name} {voting : Bool} :
    FailsOnly Ended (castVote c e deltas weight proxy producers voting) := by
  refine failsOnly_ite.mpr ⟨fun _ => ?_, fun _ => failsOnly_pure _⟩
  refine .bind (by simp [ENDLESS]) fun new found => .bind (by simp [ENDLESS]) fun _ _ => ?_
  refine .bind (failsOnly_ite.mpr ⟨fun _ => ?_, fun _ => ?_⟩) fun _ _ => failsOnly_pure _
  · exact setProxied_ended h (find_eq_ok.mp found)
  · exact failsOnly_pure _

theorem applyDelta_ended {voting : Bool} (a : Accrued D) (d : Name × D × Bool) :
    FailsOnly Ended (applyDelta c voting a d) := by
  unfold applyDelta
  split <;> simp [ENDLESS]

theorem updateVotes_ended (h : Proxied e.standing) {voterName proxy : Name} {producers : List Name}
    {voting : Bool} : FailsOnly Ended (updateVotes c e voterName proxy producers voting) := by
  unfold updateVotes
  refine .bind (by simp [checkBallot, ENDLESS]) fun _ _ =>
    .bind (by simp [ENDLESS]) fun voter _ => ?_
  refine .bind (by simp [ENDLESS]) fun _ _ => ?_
  have active : Proxied (activateStake c e voter).standing := by
    rw [activateStake_reweighed.standing]
    exact h
  refine .bind (withdrawVote_ended active) fun withdrawal took => ?_
  have left : Proxied withdrawal.1.standing := by
    rw [(withdrawVote_reweighed took).standing]
    exact active
  refine .bind (castVote_ended left) fun _ _ => ?_
  exact .bind (failsOnly_foldlM applyDelta_ended _ _) fun _ _ => failsOnly_pure _

theorem pay_ended {source target : Name} {quantity : Asset} {memo : String} :
    FailsOnly Ended (s.pay source target quantity memo) := by
  have sub {accounts : Token.Accounts} {owner : Name} {value : Asset} :
      FailsOnly Ended (Token.subBalance .kept accounts owner value) := by
    simp [Token.subBalance, Asset.sub, ENDLESS]
  have add {accounts : Token.Accounts} {owner : Name} {value : Asset} :
      FailsOnly Ended (Token.addBalance accounts owner value) := by
    unfold Token.addBalance
    split <;> simp [Asset.add, ENDLESS]
  simp [State.pay, Token.transfer, Token.EosioToken.contract, Token.Ctx.requireAuth,
    sub, add, ENDLESS]

theorem updateVotingPower_ended (h : Proxied s.standing) {owner : Name} {total : Asset} :
    FailsOnly Ended (updateVotingPower c s owner total) := by
  unfold updateVotingPower
  refine .bind (by simp [ENDLESS]) fun _ _ =>
    .bind (by simp [validateB1Vesting, ENDLESS]) fun _ _ => ?_
  refine .bind (failsOnly_ite.mpr ⟨fun _ => ?_, fun _ => ?_⟩) fun _ _ => failsOnly_pure _
  · exact updateVotes_ended (h.restake owner total)
  · exact failsOnly_pure _

theorem coreSymbol_ended : FailsOnly Ended s.coreSymbol := by
  unfold State.coreSymbol
  split <;> simp [ENDLESS]

theorem updateRefund_ended {owner : Name} {net cpu : Asset} {toSelf : Bool} :
    FailsOnly Ended (updateRefund c s owner net cpu toSelf) := by
  have drained {pending balance : Asset} : FailsOnly Ended (drainRefund pending balance) := by
    simp [drainRefund, Asset.sub, ENDLESS]
  have opened {symbol : Symbol} {balance : Asset} :
      FailsOnly Ended (openRefund symbol balance) := by
    simp [openRefund, Asset.make, ENDLESS]
  unfold updateRefund
  refine failsOnly_ite.mpr ⟨fun _ => ?_, fun _ => failsOnly_pure _⟩
  split
  · refine .bind drained fun _ _ => .bind drained fun _ _ => ?_
    simp [ENDLESS]
  · refine failsOnly_ite.mpr ⟨fun _ => ?_, fun _ => failsOnly_pure _⟩
    exact .bind coreSymbol_ended fun _ _ => .bind opened fun _ _ => .bind opened fun _ _ =>
      failsOnly_pure _

theorem changebw_ended (h : Proxied s.standing) {source receiver : Name} {net cpu : Asset}
    {transfer : Bool} : FailsOnly Ended (changebw c s source receiver net cpu transfer) := by
  have delegated {owner : Name} :
      FailsOnly Ended (updateDelegated s.delband owner receiver net cpu) := by
    unfold updateDelegated
    refine .bind ?_ fun _ _ => by simp [ENDLESS]
    split <;> simp [Asset.add, ENDLESS]
  have totals : FailsOnly Ended (updateTotals s.userres receiver net cpu) := by
    unfold updateTotals
    refine .bind ?_ fun _ _ => by simp [ENDLESS]
    split <;> simp [Asset.add, ENDLESS]
  unfold changebw
  refine .bind (by simp [Ctx.requireAuth, ENDLESS]) fun _ _ =>
    .bind (by simp [ENDLESS]) fun _ _ => ?_
  refine .bind (by simp [Asset.add, ENDLESS]) fun _ _ => .bind (by simp [ENDLESS]) fun _ _ => ?_
  refine .bind delegated fun _ _ => .bind totals fun _ _ => .bind (failsOnly_ite.mpr ⟨fun _ => ?_,
    fun _ => failsOnly_pure _⟩) fun paid settled => updateVotingPower_ended ?_
  · refine .bind updateRefund_ended fun _ _ => .bind (by simp [Asset.add, ENDLESS]) fun _ _ => ?_
    exact failsOnly_ite.mpr ⟨fun _ => pay_ended, fun _ => failsOnly_pure _⟩
  · obtain ⟨-, settled⟩ | ⟨-, settled⟩ := ite_eq_ok.mp settled
    · rw [settleStake_election settled]
      exact h
    · cases settled
      exact h

theorem notNegative_ended {core : Symbol} {quantity : Asset} {message : String}
    (other : message ≠ ENDLESS) :
    FailsOnly Ended (notNegative core quantity message) := by
  unfold notNegative
  refine .bind (by simp [Asset.comparable, ENDLESS]) fun _ _ => ?_
  exact failsOnly_require.mpr (Or.inr other)

theorem apply_ended (h : Proxied s.standing) {a : Action} (votes : a.votes = true) :
    FailsOnly Ended (a.apply c s) := by
  cases a <;> try cases votes
  case voteproducer voter proxy producers =>
    refine .bind (by simp [Ctx.requireAuth, ENDLESS]) fun _ _ => ?_
    exact .bind (updateVotes_ended h) fun _ _ => failsOnly_pure _
  case regproxy proxy isProxy =>
    refine .bind (by simp [Ctx.requireAuth, ENDLESS]) fun _ _ => ?_
    split
    · rename_i voter found
      refine .bind (by simp [ENDLESS]) fun _ _ => .bind (by simp [ENDLESS]) fun _ single => ?_
      refine .bind (propagate_insert_ended ?_ found) fun _ _ => failsOnly_pure _
      exact h.switch found (require_eq_ok.mp single)
    · exact failsOnly_pure _
  case delegatebw source receiver net cpu transfer =>
    refine .bind coreSymbol_ended fun _ _ => .bind (by simp [Asset.make, ENDLESS]) fun _ _ => ?_
    refine .bind (notNegative_ended (by decide)) fun _ _ =>
      .bind (notNegative_ended (by decide)) fun _ _ => ?_
    refine .bind (by simp [ENDLESS]) fun _ _ => .bind (by simp [ENDLESS]) fun _ _ => ?_
    exact changebw_ended h
  case undelegatebw source receiver net cpu =>
    refine .bind coreSymbol_ended fun _ _ => .bind (by simp [Asset.make, ENDLESS]) fun _ _ => ?_
    refine .bind (notNegative_ended (by decide)) fun _ _ =>
      .bind (notNegative_ended (by decide)) fun _ _ => ?_
    refine .bind (by simp [ENDLESS]) fun _ _ => .bind (by simp [ENDLESS]) fun _ _ => ?_
    exact changebw_ended h

/-! ## Every run -/

/-- After a run of votes no proxy has a proxy, no chain of proxies has a cycle,
a change of weight is passed on to an end whatever the weights, and so no next
call of the kind runs on. -/
theorem propagation_terminates (self : Name) (s : State D) (fresh : s.voters = ∅)
    (calls : List (Call D)) (votes : ∀ call ∈ calls, call.action.votes = true) :
    let t := run (step self) s calls
    (∀ k v, t.voters.lookup k = some v → v.isProxy = true → v.proxy = NOBODY) ∧
      Acyclic (proxyOf t.standing) ∧
      (∀ (c : Ctx D) (e : Election D) k v, e.standing = t.standing →
        e.voters.lookup k = some v → Ends c e.depth e k v) ∧
      ∀ call : Call D, call.action.votes = true → FailsOnly Ended (perform self t call) := by
  intro t
  have start : Proxied s.standing := by
    have none : s.standing = fun _ => none := by
      funext k
      rw [Election.standing, fresh, AList.lookup_empty, Option.map_none]
    rw [none]
    exact .empty
  have proxied : Proxied t.standing := by
    refine run_invariant (I := fun s => Proxied s.standing) (fun s call h voted => ?_) start
      (along_of_forall votes s)
    exact step_keeps h fun s' done => h.apply voted (perform_ok done).2
  refine ⟨fun k v found on => ?_, proxied.acyclic, fun c e k v same found => ?_,
    fun call voted => ?_⟩
  · refine proxied.sinks k v.standing ?_ on
    rw [Election.standing, found, Option.map_some]
  · exact propagate_ends (same ▸ proxied) found
  · exact .bind (by simp [ENDLESS]) fun _ _ => apply_ended proxied voted

section

open Sample

/-- `nick` stakes and names `rick`, who stops being a proxy and names `dick`. -/
def chain : List (Call Int) :=
  [call nick 2 (.delegatebw nick nick (eos 1000) (eos 0) false),
    call rick 3 (.regproxy rick true),
    call nick 4 (.voteproducer nick rick []),
    call rick 5 (.regproxy rick false),
    call dick 6 (.regproxy dick true),
    call rick 7 (.voteproducer rick dick []),
    call nick 8 (.delegatebw nick nick (eos 0) (eos 500) false)]

theorem chain_terminates :
    proxyOf (run (step eosio) listed chain).standing nick = some rick ∧
      proxyOf (run (step eosio) listed chain).standing rick = some dick ∧
      Acyclic (proxyOf (run (step eosio) listed chain).standing) :=
  ⟨by decide +kernel, by decide +kernel,
    (propagation_terminates eosio listed (by rfl) chain (by decide)).2.1⟩

end

end DecentralBank.System
