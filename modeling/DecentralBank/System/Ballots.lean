import DecentralBank.System.Interleavings

/-!
# Ballots can be cast again

A ballot that was counted names producers that have a row, in order and not too
many, or a proxy that has one. So it can be cast again when its voter's stake
changes, and a change of weight can always be passed on.
-/

namespace DecentralBank.System

open Checked Runs

variable {D : Type} {self : Name} {fp : Doubles D} {c : Ctx D} {s s' : State D} {e e' : Election D}
  {k : Name} {v : Standing}

/-- A producer that has registered, also if it was removed. -/
def Election.registers (e : Election D) (producer : Name) : Prop :=
  (e.producers.lookup producer).isSome = true

/-- What `k` votes for is there. -/
structure Castable (e : Election D) (k : Name) (v : Standing) : Prop where
  proxied : v.proxy ≠ NOBODY →
    v.producers = [] ∧ k ≠ v.proxy ∧ ∃ proxy, e.standing v.proxy = some proxy
  short : v.producers.length ≤ 30
  sorted : sorted v.producers = true
  registered : ∀ p ∈ v.producers, e.registers p

/-- Every ballot names what is there, and proxies have no proxy. -/
structure Ballots (e : Election D) : Prop where
  proxied : Proxied e.standing
  castable : ∀ k v, e.standing k = some v → Castable e k v

/-! ## Weights -/

theorem Reweighed.registers (h : Reweighed e e') (producer : Name) :
    e'.registers producer ↔ e.registers producer := by
  have same := congrArg Option.isSome (h.unpaid producer)
  rw [Option.isSome_map, Option.isSome_map] at same
  unfold Election.registers
  rw [same]

/-- More producers may register, and more accounts vote. -/
theorem Castable.mono (h : Castable e k v)
    (standing : ∀ j u, e.standing j = some u → ∃ u', e'.standing j = some u')
    (registered : ∀ p, e.registers p → e'.registers p) : Castable e' k v := by
  refine ⟨fun chosen => ?_, h.short, h.sorted, fun p voted => registered p (h.registered p voted)⟩
  obtain ⟨alone, apart, proxy, found⟩ := h.proxied chosen
  exact ⟨alone, apart, standing _ _ found⟩

theorem Ballots.reweighed (h : Ballots e) (reweighed : Reweighed e e') : Ballots e' := by
  have standing := reweighed.standing
  refine ⟨by rw [standing]; exact h.proxied, fun k v found => ?_⟩
  rw [standing] at found
  refine (h.castable k v found).mono (fun j u there => ⟨u, by rw [standing]; exact there⟩) ?_
  exact fun p => (reweighed.registers p).mpr

theorem Election.standing_some {voter : VoterInfo D} (found : e.voters.lookup k = some voter) :
    e.standing k = some voter.standing := by
  rw [Election.standing, found, Option.map_some]

theorem standing_row (found : e.standing k = some v) :
    ∃ voter, e.voters.lookup k = some voter ∧ voter.standing = v := by
  unfold Election.standing at found
  exact Option.map_eq_some_iff.mp found

/-! ## Nothing fails -/

/-- A program that does not fail. -/
abbrev Succeeds {α : Type} (x : Checked α) : Prop := FailsOnly (fun _ => False) x

theorem Succeeds.ok {α : Type} {x : Checked α} (h : Succeeds x) : ∃ a, x = .ok a :=
  h.succeeds fun _ _ refused => refused

/-- The loop over the producers of a ballot finds each of them. -/
theorem shiftVotes_succeeds {delta : D} {producers : List Name}
    (registered : ∀ p ∈ producers, e.registers p) :
    Succeeds (producers.foldlM (shiftVotes c delta) (Accrued.start c e)) := by
  refine failsOnly_foldlM_of (I := fun a => Reweighed e a.election) (fun a before p voted => ?_)
    (.refl e)
  obtain ⟨prod, found⟩ :=
    Option.isSome_iff_exists.mp ((before.registers p).mpr (registered p voted))
  refine ⟨.row found (failsOnly_pure _), fun b shifted => ?_⟩
  exact before.trans (shiftVotes_reweighed shifted)

/-- A change of weight is passed on, or the recursion is not over in time. -/
theorem propagate_endless (fuel : Nat) (h : Ballots e) {owner : Name} {voter : VoterInfo D}
    (stands : e.standing owner = some voter.standing) :
    FailsOnly (fun message => message = ENDLESS) (propagateWeightChange c fuel e owner voter) := by
  induction fuel generalizing e owner voter with
  | zero => exact failsOnly_error.mpr rfl
  | succ fuel ih =>
    have castable := h.castable _ _ stands
    have single : voter.proxy = NOBODY ∨ voter.isProxy = false := by
      cases on : voter.isProxy with
      | false => exact Or.inr rfl
      | true => exact Or.inl (h.proxied.sinks _ _ stands on)
    simp only [propagateWeightChange]
    refine .check single (.bind ?_ fun _ _ => failsOnly_pure _)
    refine failsOnly_ite.mpr ⟨fun _ => failsOnly_ite.mpr ⟨fun chosen => ?_, fun _ => ?_⟩, fun _ => ?_⟩
    · obtain ⟨-, -, _, there⟩ := castable.proxied chosen
      obtain ⟨proxy, found, -⟩ := standing_row there
      replace found : e.voters.lookup voter.proxy = some proxy := found
      refine .row found (ih (h.reweighed (.voter found (by rfl))) ?_)
      exact Election.standing_some (by rw [Table.lookup_insert, if_pos rfl])
    · refine .bind (fun message failed => ?_) fun _ _ => failsOnly_pure _
      exact (shiftVotes_succeeds castable.registered message failed).elim
    · exact failsOnly_pure _

/-- A change of weight is passed on. -/
theorem propagate_succeeds (h : Ballots e) {owner : Name} {voter : VoterInfo D}
    (found : e.voters.lookup owner = some voter) :
    Succeeds (propagateWeightChange c e.depth e owner voter) := by
  have ended := (propagate_ends (c := c) h.proxied found).1
  have endless := propagate_endless (c := c) e.depth h (Election.standing_some found)
  intro message failed
  exact ended message failed (endless message failed)

theorem setProxied_succeeds (h : Ballots e) {proxy : Name} {row : VoterInfo D} {weight : D}
    (found : e.voters.lookup proxy = some row) : Succeeds (setProxied c e proxy row weight) := by
  unfold setProxied
  rw [← depth_insert found]
  refine propagate_succeeds (h.reweighed (.voter found (by rfl))) ?_
  rw [Table.lookup_insert, if_pos rfl]

/-! ## A ballot cast again -/

theorem mem_adjust {producer : Name} {f : D → D} {isNew : Bool} {deltas : Deltas D}
    {d : Name × D × Bool} (h : d ∈ adjust c producer f isNew deltas) :
    d.1 = producer ∨ d ∈ deltas := by
  induction deltas with
  | nil =>
    rw [adjust, List.mem_singleton] at h
    exact Or.inl (by rw [h])
  | cons first rest ih =>
    obtain ⟨name, old⟩ := first
    unfold adjust at h
    split at h
    · rename_i here
      rcases List.mem_cons.mp h with rfl | later
      · exact Or.inl here.symm
      · exact Or.inr (List.mem_cons_of_mem _ later)
    · split at h
      · rcases List.mem_cons.mp h with rfl | later
        · exact Or.inl rfl
        · exact Or.inr later
      · rcases List.mem_cons.mp h with rfl | later
        · exact Or.inr List.mem_cons_self
        · exact (ih later).imp_right (List.mem_cons_of_mem _)

/-- Votes change for producers of the ballots only. -/
theorem mem_adjusted {f : D → D} {isNew : Bool} {producers : List Name} {deltas : Deltas D}
    {d : Name × D × Bool}
    (h : d ∈ producers.foldl (fun deltas p => adjust c p f isNew deltas) deltas) :
    d.1 ∈ producers ∨ d ∈ deltas := by
  induction producers generalizing deltas with
  | nil => exact Or.inr h
  | cons p rest ih =>
    rcases ih h with later | adjusted
    · exact Or.inl (List.mem_cons_of_mem _ later)
    · refine (mem_adjust adjusted).imp_left fun here => ?_
      rw [here]
      exact List.mem_cons_self

theorem withdrawVote_succeeds (h : Ballots e) {voter : VoterInfo D}
    (stands : e.standing k = some voter.standing) : Succeeds (withdrawVote c e voter) := by
  refine failsOnly_ite.mpr ⟨fun _ => failsOnly_ite.mpr ⟨fun chosen => ?_, fun _ => failsOnly_pure _⟩,
    fun _ => failsOnly_pure _⟩
  obtain ⟨-, -, _, there⟩ := (h.castable _ _ stands).proxied chosen
  obtain ⟨old, found, -⟩ := standing_row there
  replace found : e.voters.lookup voter.proxy = some old := found
  exact .row found (.bind (setProxied_succeeds h found) fun _ _ => failsOnly_pure _)

theorem withdrawVote_deltas {voter : VoterInfo D} {deltas : Deltas D}
    (h : withdrawVote c e voter = .ok (e', deltas)) : ∀ d ∈ deltas, d.1 ∈ voter.producers := by
  intro d mem
  simp only [withdrawVote, ite_eq_ok, bind_eq_ok, pure_eq_ok, Prod.mk.injEq] at h
  rcases h with ⟨-, ⟨-, old, -, _, -, -, rfl⟩ | ⟨-, -, rfl⟩⟩ | ⟨-, -, rfl⟩
  · cases mem
  · exact (mem_adjusted mem).resolve_right List.not_mem_nil
  · cases mem

theorem castVote_deltas {deltas deltas' : Deltas D} {weight : D} {proxy : Name}
    {producers : List Name} {voting : Bool}
    (h : castVote c e deltas weight proxy producers voting = .ok (e', deltas')) :
    ∀ d ∈ deltas', d.1 ∈ producers ∨ d ∈ deltas := by
  intro d mem
  simp only [castVote, ite_eq_ok, bind_eq_ok, pure_eq_ok, Prod.mk.injEq] at h
  obtain ⟨-, new, -, -, -, _, -, -, rfl⟩ | ⟨-, -, rfl⟩ := h
  · exact Or.inr mem
  · split at mem
    · exact mem_adjusted mem
    · exact Or.inr mem

/-- A ballot can be cast again as it stands, whatever the weights and the time. -/
theorem updateVotes_succeeds (h : Ballots e) {voter : VoterInfo D}
    (found : e.voters.lookup k = some voter) :
    Succeeds (updateVotes c e k voter.proxy voter.producers false) := by
  have stands := Election.standing_some found
  have castable := h.castable _ _ stands
  have single : voter.proxy = NOBODY ∨ voter.isProxy = false := by
    cases on : voter.isProxy with
    | false => exact Or.inr rfl
    | true => exact Or.inl (h.proxied.sinks _ _ stands on)
  have ballot : Succeeds (checkBallot k voter.proxy voter.producers) := by
    refine failsOnly_ite.mpr ⟨fun chosen => ?_, fun _ => ?_⟩
    · obtain ⟨alone, apart, -⟩ := castable.proxied chosen
      exact .check (List.length_eq_zero_iff.mpr alone) (failsOnly_require.mpr (Or.inl apart))
    · exact .check castable.short (failsOnly_require.mpr (Or.inl castable.sorted))
  have active : Reweighed e (activateStake c e voter) := activateStake_reweighed
  have again : Election.standing (activateStake c e voter) k = some voter.standing := by
    rw [active.standing, stands]
  unfold updateVotes
  refine .bind ballot fun _ _ => .row found (.check single ?_)
  refine .bind (withdrawVote_succeeds (h.reweighed active) again) fun ⟨withdrawn, deltas⟩ took => ?_
  have left := active.trans (withdrawVote_reweighed took)
  have cast : Succeeds (castVote c withdrawn deltas (voteWeight c voter) voter.proxy
      voter.producers false) := by
    refine failsOnly_ite.mpr ⟨fun chosen => ?_, fun _ => failsOnly_pure _⟩
    obtain ⟨-, -, _, there⟩ := ((h.reweighed left).castable k voter.standing
      (by rw [left.standing, stands])).proxied chosen
    obtain ⟨new, named, -⟩ := standing_row there
    replace named : withdrawn.voters.lookup voter.proxy = some new := named
    refine .row named (.check (Or.inl rfl) (.bind ?_ fun _ _ => failsOnly_pure _))
    exact failsOnly_ite.mpr ⟨fun _ => setProxied_succeeds (h.reweighed left) named,
      fun _ => failsOnly_pure _⟩
  refine .bind cast fun ⟨given, deltas'⟩ gave => ?_
  have after := left.trans (castVote_ok gave).1
  have votes (d : Name × D × Bool) (mem : d ∈ deltas') : d.1 ∈ voter.producers :=
    (castVote_deltas gave d mem).elim id (withdrawVote_deltas took d)
  refine .bind (failsOnly_foldlM_of (I := fun a => Reweighed e a.election)
    (fun a before d mem => ?_) after) fun _ _ => failsOnly_pure _
  obtain ⟨prod, there⟩ := Option.isSome_iff_exists.mp
    ((before.registers d.1).mpr (castable.registered d.1 (votes d mem)))
  refine ⟨?_, fun b applied => before.trans (applyDelta_reweighed applied)⟩
  simp only [applyDelta, there]
  exact .check (Or.inl trivial) (failsOnly_pure _)

/-! ## A new ballot -/

theorem adjust_here (producer : Name) (f : D → D) (isNew : Bool) (deltas : Deltas D) :
    ∃ d, (producer, d, isNew) ∈ adjust c producer f isNew deltas := by
  induction deltas with
  | nil => exact ⟨_, List.mem_singleton_self _⟩
  | cons first rest ih =>
    obtain ⟨name, old⟩ := first
    unfold adjust
    split
    · rename_i here
      subst here
      exact ⟨_, List.mem_cons_self⟩
    · split
      · exact ⟨_, List.mem_cons_self⟩
      · obtain ⟨d, mem⟩ := ih
        exact ⟨d, List.mem_cons_of_mem _ mem⟩

theorem adjust_kept {producer name : Name} {f : D → D} {deltas : Deltas D}
    (h : ∃ d, (name, d, true) ∈ deltas) : ∃ d, (name, d, true) ∈ adjust c producer f true deltas := by
  obtain ⟨d, mem⟩ := h
  by_cases here : name = producer
  · exact here ▸ adjust_here _ _ _ _
  · refine ⟨d, ?_⟩
    induction deltas with
    | nil => cases mem
    | cons first rest ih =>
      obtain ⟨other, old⟩ := first
      unfold adjust
      split
      · rename_i same
        rcases List.mem_cons.mp mem with own | later
        · cases own
          exact absurd same.symm here
        · exact List.mem_cons_of_mem _ later
      · split
        · exact List.mem_cons_of_mem _ mem
        · rcases List.mem_cons.mp mem with own | later
          · exact own ▸ List.mem_cons_self
          · exact List.mem_cons_of_mem _ (ih later)

/-- The producers of a ballot that counts are among those whose votes change. -/
theorem adjusted_all {f : D → D} (producers : List Name) (deltas : Deltas D) (p : Name)
    (h : p ∈ producers ∨ ∃ d, (p, d, true) ∈ deltas) :
    ∃ d, (p, d, true) ∈ producers.foldl (fun deltas p => adjust c p f true deltas) deltas := by
  induction producers generalizing deltas with
  | nil => exact h.resolve_left List.not_mem_nil
  | cons q rest ih =>
    refine ih _ ?_
    rcases h with voted | before
    · rcases List.mem_cons.mp voted with rfl | later
      · exact Or.inr (adjust_here _ _ _ _)
      · exact Or.inl later
    · exact Or.inr (adjust_kept before)

/-- The producers of a new ballot have a row, when its weight counts. -/
theorem updateVotes_registered {proxy : Name} {producers : List Name} {voter : VoterInfo D}
    (found : e.voters.lookup k = some voter) (none : proxy = NOBODY)
    (counts : c.fp.le c.fp.zero (voteWeight c voter) = true)
    (h : updateVotes c e k proxy producers true = .ok e') : ∀ p ∈ producers, e.registers p := by
  intro p voted
  simp only [updateVotes, bind_eq_ok, find_eq_ok, found, Option.some.injEq, Prod.exists] at h
  obtain ⟨-, -, _, rfl, -, -, withdrawn, deltas, took, cast, deltas', gave, accrued, looped, -⟩ := h
  have before := (activateStake_reweighed.trans (withdrawVote_reweighed took)).trans
    (castVote_ok gave).1
  simp only [castVote, none, ne_eq, not_true_eq_false, if_false, counts, if_true, pure_eq_ok,
    Prod.mk.injEq] at gave
  obtain ⟨-, rfl⟩ := gave
  obtain ⟨d, mem⟩ := adjusted_all producers deltas p (Or.inl voted)
  obtain ⟨a, b, reached, turned⟩ := foldlM_turn (I := fun a => Reweighed e a.election)
    (fun _ _ _ _ turned reached => reached.trans (applyDelta_reweighed turned)) looped before _ mem
  refine (reached.registers p).mp ?_
  cases there : a.election.producers.lookup p with
  | some prod =>
    unfold Election.registers
    rw [there]
    rfl
  | none =>
    simp only [applyDelta, there, bind_eq_ok, require_eq_ok, Bool.true_eq_false, exists_const,
      false_and] at turned

theorem standing_ballot {weight : D} {proxy : Name} {producers : List Name}
    (stands : e.standing k = some v) :
    Election.standing { e with voters := e.voters.modify k fun v =>
      { v with lastVoteWeight := weight, producers, proxy } } =
      Function.update e.standing k (some { v with producers, proxy }) := by
  obtain ⟨voter, found, rfl⟩ := standing_row stands
  funext j
  simp only [Election.standing, Table.lookup_modify, Function.update_apply]
  split
  · rename_i here
    rw [here, found]
    rfl
  · rfl

theorem Ballots.vote {proxy : Name} {producers : List Name} {voter : VoterInfo D} (h : Ballots e)
    (found : e.voters.lookup k = some voter)
    (counts : c.fp.le c.fp.zero (voteWeight c voter) = true)
    (voted : updateVotes c e k proxy producers true = .ok e') : Ballots e' := by
  have proxied := h.proxied.vote voted
  have registered := fun none => updateVotes_registered found none counts voted
  have ballot : checkBallot k proxy producers = .ok () := by
    simp only [updateVotes, bind_eq_ok] at voted
    obtain ⟨_, checked, -⟩ := voted
    exact checked
  simp only [checkBallot, ite_eq_ok, bind_eq_ok, require_eq_ok, exists_const] at ballot
  obtain ⟨_, settled, weight, found', reweighed, named, rfl⟩ := updateVotes_ok voted
  cases found.symm.trans found'
  have again : settled.standing k = some voter.standing := by
    rw [reweighed.standing, Election.standing_some found]
  have written : Election.standing { settled with voters := settled.voters.modify k fun v =>
        { v with lastVoteWeight := weight, producers, proxy } } =
      Function.update settled.standing k (some { voter.standing with producers, proxy }) :=
    standing_ballot again
  refine ⟨proxied, fun j u stands => ?_⟩
  have wider (j : Name) (u : Standing) (there : e.standing j = some u) :
      ∃ u', Election.standing { settled with voters := settled.voters.modify k fun v =>
        { v with lastVoteWeight := weight, producers, proxy } } j = some u' := by
    rw [written, Function.update_apply, reweighed.standing]
    split
    · exact ⟨_, rfl⟩
    · exact ⟨u, there⟩
  have known (p : Name) (there : e.registers p) : settled.registers p :=
    (reweighed.registers p).mpr there
  rw [written, Function.update_apply] at stands
  split at stands
  · rename_i here
    cases stands
    subst here
    rcases ballot with ⟨chosen, alone, apart⟩ | ⟨none, short, ordered⟩
    · have empty : producers = [] := List.length_eq_zero_iff.mp alone
      obtain ⟨-, -, new, there, -⟩ := named chosen
      refine ⟨fun _ => ⟨empty, apart, wider _ _ there⟩, ?_, ?_, ?_⟩
      · simp only [empty, List.length_nil, Nat.zero_le]
      · simp only [empty, sorted]
      · simp only [empty]
        exact fun _ voted => absurd voted List.not_mem_nil
    · have nobody : proxy = NOBODY := not_not.mp none
      exact ⟨fun chosen => absurd nobody chosen, short, ordered,
        fun p voted => known p (registered nobody p voted)⟩
  · rw [reweighed.standing] at stands
    exact (h.castable j u stands).mono wider known

/-! ## Every action keeps them -/

/-- Nobody votes, and producers may register. -/
structure Steady (e e' : Election D) : Prop where
  voters : e'.voters = e.voters
  registered : ∀ p, e.registers p → e'.registers p

theorem Steady.refl (e : Election D) : Steady e e := ⟨rfl, fun _ => id⟩

theorem registers_insert {producers : Table Name (ProducerInfo D)} (producer : Name)
    (row : ProducerInfo D) {p : Name} (h : (producers.lookup p).isSome = true) :
    ((producers.insert producer row).lookup p).isSome = true := by
  rw [Table.lookup_insert]
  split
  · rfl
  · exact h

theorem Ballots.steady (h : Ballots e) (steady : Steady e e') : Ballots e' := by
  have standing : e'.standing = e.standing := by
    funext k
    rw [Election.standing, steady.voters, Election.standing]
  refine ⟨by rw [standing]; exact h.proxied, fun k v stands => ?_⟩
  rw [standing] at stands
  exact (h.castable k v stands).mono (fun j u there => ⟨u, by rw [standing]; exact there⟩)
    steady.registered

/-- A voter's row is written with the votes it had, or none. -/
theorem Ballots.insert {row : VoterInfo D} (h : Ballots e)
    (proxied : Proxied (Election.standing { e with voters := e.voters.insert k row }))
    (votes : (row.proxy = NOBODY ∧ row.producers = []) ∨
      ∃ voter, e.voters.lookup k = some voter ∧ row.proxy = voter.proxy ∧
        row.producers = voter.producers) :
    Ballots { e with voters := e.voters.insert k row } := by
  have wider (j : Name) (u : Standing) (there : e.standing j = some u) :
      ∃ u', Election.standing { e with voters := e.voters.insert k row } j = some u' := by
    rw [standing_insert, Function.update_apply]
    split
    · exact ⟨_, rfl⟩
    · exact ⟨u, there⟩
  refine ⟨proxied, fun j u stands => ?_⟩
  rw [standing_insert, Function.update_apply] at stands
  split at stands
  · rename_i here
    subst here
    cases stands
    rcases votes with ⟨nobody, none⟩ | ⟨voter, found, sameProxy, same⟩
    · refine ⟨fun chosen => absurd nobody chosen, ?_, ?_, ?_⟩
      · simp only [VoterInfo.standing, none, List.length_nil, Nat.zero_le]
      · simp only [VoterInfo.standing, none, sorted]
      · simp only [VoterInfo.standing, none]
        exact fun _ voted => absurd voted List.not_mem_nil
    · have kept : Castable { e with voters := e.voters.insert j row } j voter.standing :=
        (h.castable j _ (Election.standing_some found)).mono wider fun _ => id
      obtain ⟨proxied, short, ordered, registered⟩ := kept
      simp only [VoterInfo.standing, ← sameProxy, ← same] at proxied short ordered registered
      exact ⟨proxied, short, ordered, registered⟩
  · exact (h.castable j u stands).mono wider fun _ => id

theorem Ballots.register {proxy : Name} {isProxy : Bool} (h : Ballots s.toElection)
    (done : regproxy c s proxy isProxy = .ok s') : Ballots s'.toElection := by
  obtain ⟨e, rfl, ⟨-, rfl⟩ | ⟨voter, found, single, passed⟩⟩ := regproxy_ok done
  · refine h.insert ?_ (Or.inl ⟨rfl, rfl⟩)
    rw [standing_insert]
    exact h.proxied.keep (fun _ => rfl) (Or.inl rfl)
  · have switched := h.insert (h.proxied.switch found single) (Or.inr ⟨voter, found, rfl, rfl⟩)
    exact switched.reweighed (propagate_reweighed passed)

/-- More or less is staked. -/
theorem Ballots.restake (h : Ballots e) (owner : Name) (total : Asset) :
    Ballots { e with
      voters := e.voters.insert owner (restake c (e.voters.lookup owner) total) } := by
  refine h.insert (h.proxied.restake _ _) ?_
  unfold System.restake
  cases found : e.voters.lookup owner with
  | none => exact Or.inl ⟨rfl, rfl⟩
  | some voter => exact Or.inr ⟨voter, rfl, rfl, rfl⟩

theorem Ballots.changebw {source receiver : Name} {net cpu : Asset} {transfer : Bool}
    (h : Ballots s.toElection) (done : changebw c s source receiver net cpu transfer = .ok s') :
    Ballots s'.toElection := by
  obtain ⟨delband, userres, paid, -, -, -, -, settled, voted⟩ := changebw_ok done
  have same : paid.toElection = s.toElection := by
    rcases settled with ⟨-, settled⟩ | ⟨-, rfl⟩
    · rw [settleStake_election settled]
    · rfl
  obtain ⟨e, -, reweighed, rfl⟩ := updateVotingPower_ok voted
  rw [same] at reweighed
  exact (h.restake _ _).reweighed reweighed

theorem onblock_steady {slot : Nat} {producer : Name} (h : onblock c s slot producer = .ok s') :
    Steady s.toElection s'.toElection := by
  have voters : s'.voters = s.voters := by
    simp only [onblock, bind_eq_ok, ite_eq_ok, pure_eq_ok] at h
    obtain ⟨-, -, ⟨-, rfl⟩ | ⟨-, rfl⟩⟩ := h
    · rfl
    · obtain ⟨update, close, bids, -, same⟩ := everyMinute_ok (c := c) slot
      rw [same]
      unfold countBlock
      split
      · rfl
      · rfl
  refine ⟨voters, fun p there => ?_⟩
  obtain ⟨e, bids, -, produced, rfl⟩ := onblock_ok h
  unfold Election.registers at there ⊢
  rcases produced.counted with ⟨same, -⟩ | ⟨prod, -, same, -⟩
  · rw [same]
    exact there
  · rw [same]
    exact registers_insert _ _ there

/-- The buckets are filled without a word on votes. -/
theorem fillBuckets_election (h : fillBuckets c s = .ok s') :
    ∃ gstate, s'.toElection = { s.toElection with gstate } ∧
      gstate.totalProducerVoteWeight = s.gstate.totalProducerVoteWeight := by
  simp only [fillBuckets, bind_eq_ok, ite_eq_ok, pure_eq_ok] at h
  obtain ⟨core, -, supply, -, ⟨-, issued, -, minted, -, saved, saving, blocks, blocked, votes,
    voted, rfl⟩ | ⟨-, rfl⟩⟩ := h
  · obtain ⟨token₁, rfl, -⟩ := payCore_outgoing (s := { s with token := minted }) saving
    obtain ⟨token₂, rfl, -⟩ := payCore_outgoing blocked
    obtain ⟨token₃, rfl, -⟩ := payCore_outgoing voted
    exact ⟨_, rfl, rfl⟩
  · exact ⟨_, rfl, rfl⟩

/-- A claim settles the election, with what is in the buckets. -/
theorem claimrewards_election {owner : Name} (h : claimrewards c s owner = .ok s') :
    ∃ prod gstate, s.producers.lookup owner = some prod ∧
      gstate.totalProducerVoteWeight = s.gstate.totalProducerVoteWeight ∧
      s'.toElection = (settleClaim c { s.toElection with gstate } owner prod).2.2 := by
  simp only [claimrewards, bind_eq_ok, find_eq_ok] at h
  obtain ⟨-, -, prod, found, -, -, -, -, -, -, filled, filling, core, -, blocked, blockPaid, votePaid⟩ :=
    h
  obtain ⟨gstate, same, kept⟩ := fillBuckets_election filling
  obtain ⟨token₁, rfl, -⟩ := payPositive_outgoing
    (s := { filled with toElection := (settleClaim c filled.toElection owner prod).2.2 }) blockPaid
  obtain ⟨token₂, rfl, -⟩ := payPositive_outgoing votePaid
  refine ⟨prod, gstate, found, kept, ?_⟩
  rw [← same]

theorem claimrewards_steady {owner : Name} (h : claimrewards c s owner = .ok s') :
    Steady s.toElection s'.toElection := by
  have voters : s'.voters = s.voters := by
    obtain ⟨e, token, rfl, voters⟩ := (claimrewards_claims h).rest
    exact voters
  refine ⟨voters, fun p there => ?_⟩
  obtain ⟨prod, gstate, -, -, same⟩ := claimrewards_election h
  obtain ⟨paid, settled, -⟩ :=
    (settleClaim_ok c { s.toElection with gstate } owner prod).2.producers
  unfold Election.registers at there ⊢
  rw [same, settled]
  exact registers_insert _ _ there

theorem regproducer_steady {producer : Name} {key : PublicKey} {url : List UInt8} {location : Nat}
    (h : regproducer c s producer key url location = .ok s') :
    Steady s.toElection s'.toElection := by
  obtain ⟨e, rfl, registers⟩ := regproducer_ok h
  cases registers with
  | new | again | late => exact ⟨rfl, fun p there => registers_insert _ _ there⟩

/-- What is not a vote, a proxy or stake. -/
theorem apply_steady {a : Action} (other : a.votes = false) (h : a.apply c s = .ok s') :
    Steady s.toElection s'.toElection := by
  have traded {payers : List Name} (trades : Trades payers s s') :
      Steady s.toElection s'.toElection := by
    obtain ⟨_, _, _, _, _, _, _, _, rfl⟩ := trades.rest
    exact ⟨rfl, fun _ => id⟩
  cases a <;> try cases other
  case init version core =>
    simp only [Action.apply, System.init, bind_eq_ok, pure_eq_ok] at h
    obtain ⟨-, -, -, -, -, -, _, -, -, -, -, -, rfl⟩ := h
    exact .refl _
  case newaccount creator newact =>
    obtain ⟨_, _, -, -, -, rfl⟩ := newaccount_ok h
    exact .refl _
  case setram size => exact traded (setram_trades h)
  case setramrate rate => exact traded (setramrate_trades h)
  case buyrambytes payer receiver bytes => exact traded (buyrambytes_trades h)
  case buyram payer receiver quant => exact traded (buyram_trades h)
  case sellram account bytes => exact traded (sellram_trades h)
  case rmvproducer producer =>
    simp only [Action.apply, rmvproducer, bind_eq_ok, pure_eq_ok] at h
    obtain ⟨-, -, prod, -, rfl⟩ := h
    exact ⟨rfl, fun p there => registers_insert _ _ there⟩
  case updtrevision revision =>
    simp only [Action.apply, updtrevision, bind_eq_ok, pure_eq_ok] at h
    obtain ⟨-, -, -, -, -, -, -, -, rfl⟩ := h
    exact ⟨rfl, fun _ => id⟩
  case bidname bidder newname bid =>
    obtain ⟨_, _, _, rfl, -⟩ := bidname_moves h
    exact .refl _
  case bidrefund bidder newname =>
    obtain ⟨_, _, rfl, -⟩ := bidrefund_moves h
    exact .refl _
  case refund owner =>
    simp only [Action.apply, refund, bind_eq_ok, pure_eq_ok] at h
    obtain ⟨-, -, _, -, -, -, _, -, paid, sent, rfl⟩ := h
    rw [← pay_election sent]
    exact .refl _
  case regproducer producer key url location => exact regproducer_steady h
  case unregprod producer =>
    simp only [Action.apply, unregprod, bind_eq_ok, pure_eq_ok] at h
    obtain ⟨-, -, prod, -, rfl⟩ := h
    exact ⟨rfl, fun p there => registers_insert _ _ there⟩
  case onblock slot producer => exact onblock_steady h
  case claimrewards owner => exact claimrewards_steady h

/-- A new ballot counts: its weight is not below zero. -/
def Call.counts (self : Name) (s : State D) (call : Call D) : Bool :=
  match call.action with
  | .voteproducer voterName _ _ =>
    (s.voters.lookup voterName).all fun voter =>
      call.fp.le call.fp.zero (voteWeight ⟨self, call.auth, call.now, call.fp⟩ voter)
  | _ => true

theorem Ballots.cast {a : Action} (h : Ballots s.toElection) (votes : a.votes = true)
    (counts : (⟨c.auth, c.now, c.fp, a⟩ : Call D).counts c.self s = true)
    (done : a.apply c s = .ok s') : Ballots s'.toElection := by
  cases a <;> try cases votes
  case voteproducer voterName proxy producers =>
    simp only [Action.apply, voteproducer, bind_eq_ok, pure_eq_ok] at done
    obtain ⟨-, -, e, voted, rfl⟩ := done
    obtain ⟨voter, -, -, found, -⟩ := updateVotes_ok voted
    simp only [Call.counts, found, Option.all_some] at counts
    exact h.vote found counts voted
  case regproxy proxy isProxy => exact h.register done
  case delegatebw source receiver net cpu transfer =>
    obtain ⟨-, -, -, -, -, -, changed⟩ := delegatebw_ok done
    exact h.changebw changed
  case undelegatebw source receiver net cpu =>
    obtain ⟨-, -, -, -, -, changed⟩ := undelegatebw_ok done
    exact h.changebw changed

theorem Ballots.apply {a : Action} (h : Ballots s.toElection)
    (counts : (⟨c.auth, c.now, c.fp, a⟩ : Call D).counts c.self s = true)
    (done : a.apply c s = .ok s') : Ballots s'.toElection := by
  by_cases votes : a.votes = true
  · exact h.cast votes counts done
  · exact h.steady (apply_steady (Bool.eq_false_iff.mpr votes) done)

theorem Ballots.moves {who : Name → Bool} {ok : State D → Call D → Bool} (h : Ballots s.toElection)
    (counts : ∀ s call, ok s call = true → call.counts self s = true)
    (moved : Moves who ok self fp s s') : Ballots s'.toElection := by
  cases moved with
  | @act auth now a s' size known signs allowed done =>
    have kept := h.apply (c := ⟨self, auth, now, fp⟩) (counts _ _ allowed) done
    exact kept.steady ⟨rfl, fun _ => id⟩
  | params => exact h.steady ⟨rfl, fun _ => id⟩
  | token signs done => exact h
  | stay => exact h

theorem Ballots.empty (fresh : e.voters = ∅) : Ballots e := by
  have none (k : Name) : e.standing k = none := by
    rw [Election.standing, fresh, AList.lookup_empty, Option.map_none]
  refine ⟨?_, fun k v stands => ?_⟩
  · rw [show e.standing = fun _ => Option.none from funext none]
    exact .empty
  · rw [none] at stands
    cases stands

/-- A refund is no ballot. -/
theorem counts_refunds {self : Name} (s : State D) (call : Call D)
    (refunds : call.action.refunds = true) : call.counts self s = true := by
  unfold Call.counts
  cases action : call.action <;> first | rfl | (rw [action] at refunds; cases refunds)

/-- While no ballot of a weight below zero is cast, every ballot can be cast again as it stands and
every weight passed on, whatever the weights are and whenever it is done. -/
theorem ballots_castable (self : Name) (fp : Doubles D) (ch : Blockchain D)
    (known : self ∈ ch.accounts) (idle : ch.deferred = ∅) (fresh : ch.voters = ∅)
    (events : List Event)
    (counts : Along (Blockchain.step self fp)
      (fun ch e => e.allowed (fun s call => call.counts self s) fp ch = true) ch events) :
    let t := run (Blockchain.step self fp) ch events
    ∀ k voter, t.voters.lookup k = some voter → Castable t.toElection k voter.standing ∧
      ∀ c : Ctx D, (∃ e, updateVotes c t.toElection k voter.proxy voter.producers false = .ok e) ∧
        ∃ e, propagateWeightChange c t.depth t.toElection k voter = .ok e := by
  intro t k voter found
  have ballots : Ballots t.toElection := by
    have queued : Queued (fun _ => true) self ch := .idle known rfl idle
    refine (moves_invariant (I := fun s => Ballots s.toElection) counts_refunds
      (fun _ _ h moved => h.moves (fun _ _ counts => counts) moved) queued (.empty fresh)
      (fun e _ => ?_) counts).2
    cases e <;> simp [Event.signedBy]
  exact ⟨ballots.castable k _ (Election.standing_some found), fun c =>
    ⟨(updateVotes_succeeds ballots found).ok, (propagate_succeeds ballots found).ok⟩⟩

section

open Sample

/-- `nick` votes through `rick`, whose producer is removed, and stakes more. -/
def electorate : List Event :=
  [signed dick 100 (.regproducer dick ⟨0, [1]⟩ [] 0),
    signed rick 101 (.regproxy rick true),
    signed rick 102 (.voteproducer rick NOBODY [dick]),
    signed nick 103 (.delegatebw nick nick (eos 1000) (eos 0) false),
    signed nick 104 (.voteproducer nick rick []),
    signed eosio 105 (.rmvproducer dick),
    signed nick 106 (.delegatebw nick nick (eos 0) (eos 500) false)]

theorem electorate_castable :
    let t := run (Blockchain.step eosio whole) (blockchain activated) electorate
    (t.voters.lookup rick).isSome = true ∧
      ∀ voter, t.voters.lookup rick = some voter → Castable t.toElection rick voter.standing :=
  ⟨by decide +kernel, fun voter found => (ballots_castable eosio whole (blockchain activated)
    (by decide) rfl rfl electorate (by decide +kernel) rick voter found).1⟩

end

end DecentralBank.System
