import DecentralBank.System.Voting

/-!
# What voting does to the tables

A change of votes changes weights, and leaves who votes for whom, what is
staked and the blocks to be paid as they were.
-/

namespace DecentralBank.System

open Checked

variable {D : Type} {c : Ctx D}

/-- What a voter has chosen and staked, whatever its weight. -/
structure Standing where
  proxy : Name
  producers : List Name
  staked : Int
  isProxy : Bool

def VoterInfo.standing (v : VoterInfo D) : Standing := ⟨v.proxy, v.producers, v.staked, v.isProxy⟩

def Election.standing (e : Election D) (k : Name) : Option Standing :=
  (e.voters.lookup k).map VoterInfo.standing

theorem standing_insert (e : Election D) (k : Name) (v : VoterInfo D) :
    Election.standing { e with voters := e.voters.insert k v } =
      Function.update e.standing k (some v.standing) := by
  funext j
  rw [Election.standing, Table.lookup_insert, Function.update_apply]
  split
  · rfl
  · rfl

/-- The weights of `e` have changed, and what follows from weights. -/
structure Reweighed (e e' : Election D) : Prop where
  standing : e'.standing = e.standing
  unpaid : ∀ k, (e'.producers.lookup k).map ProducerInfo.unpaidBlocks =
    (e.producers.lookup k).map ProducerInfo.unpaidBlocks
  gstate : ∃ stake time weight, e'.gstate = { e.gstate with
    totalActivatedStake := stake
    threshActivatedStakeTime := time
    totalProducerVoteWeight := weight }
  gstate2 : ∃ share, e'.gstate2 = { e.gstate2 with totalProducerVotepayShare := share }

namespace Reweighed

variable {e e' e'' : Election D}

theorem refl (e : Election D) : Reweighed e e :=
  ⟨rfl, fun _ => rfl, ⟨_, _, _, rfl⟩, ⟨_, rfl⟩⟩

theorem trans (h : Reweighed e e') (g : Reweighed e' e'') : Reweighed e e'' := by
  obtain ⟨_, _, weight, first⟩ := h.gstate
  obtain ⟨stake, time, weight', second⟩ := g.gstate
  obtain ⟨_, first2⟩ := h.gstate2
  obtain ⟨share, second2⟩ := g.gstate2
  refine ⟨g.standing.trans h.standing, fun k => (g.unpaid k).trans (h.unpaid k), ?_, ?_⟩
  · exact ⟨stake, time, weight', by rw [second, first]⟩
  · exact ⟨share, by rw [second2, first2]⟩

/-- A voter's row with another weight. -/
theorem voter {k : Name} {v v' : VoterInfo D} (found : e.voters.lookup k = some v)
    (same : v'.standing = v.standing) : Reweighed e { e with voters := e.voters.insert k v' } := by
  refine ⟨?_, fun _ => rfl, ⟨_, _, _, rfl⟩, ⟨_, rfl⟩⟩
  funext j
  unfold Election.standing
  rw [Table.lookup_insert]
  split
  · rename_i here
    rw [here, found, Option.map_some, Option.map_some, same]
  · rfl

theorem modify (k : Name) {f : VoterInfo D → VoterInfo D}
    (same : ∀ v, (f v).standing = v.standing) :
    Reweighed e { e with voters := e.voters.modify k f } :=
  ⟨funext fun j => Table.map_modify _ k j f same, fun _ => rfl, ⟨_, _, _, rfl⟩, ⟨_, rfl⟩⟩

end Reweighed

/-! ## Vote pay -/

variable {e e' : Election D} {a b : Accrued D} {owner : Name} {prod : ProducerInfo D}
    {votes delta : D}

theorem updateTotalVotepayShare_reweighed (additionalShares sharesRate : D) :
    Reweighed e (updateTotalVotepayShare c e additionalShares sharesRate).2 :=
  ⟨rfl, fun _ => rfl, ⟨_, _, _, rfl⟩, ⟨_, rfl⟩⟩

theorem accrue_reweighed : Reweighed a.election (a.accrue c owner prod delta).election := by
  unfold Accrued.accrue
  cases a.election.producers2.lookup owner with
  | none => exact .refl _
  | some prod2 =>
    simp only [updateProducerVotepayShare]
    split
    · exact ⟨rfl, fun _ => rfl, ⟨_, _, _, rfl⟩, ⟨_, rfl⟩⟩
    · split
      · exact ⟨rfl, fun _ => rfl, ⟨_, _, _, rfl⟩, ⟨_, rfl⟩⟩
      · exact ⟨rfl, fun _ => rfl, ⟨_, _, _, rfl⟩, ⟨_, rfl⟩⟩

theorem revote_reweighed (found : a.election.producers.lookup owner = some prod) :
    Reweighed a.election (a.revote c owner prod votes delta).election := by
  simp only [Accrued.revote]
  refine Reweighed.trans ?_ accrue_reweighed
  refine ⟨rfl, fun k => ?_, ⟨_, _, _, rfl⟩, ⟨_, rfl⟩⟩
  rw [Table.lookup_insert]
  split
  · rename_i here
    rw [here, found]
    rfl
  · rfl

theorem settle_reweighed : Reweighed a.election (a.settle c) :=
  updateTotalVotepayShare_reweighed _ _

/-! ## Loops over producers -/

theorem shiftVotes_reweighed {producer : Name} (h : shiftVotes c delta a producer = .ok b) :
    Reweighed a.election b.election := by
  simp only [shiftVotes, bind_eq_ok, find_eq_ok, pure_eq_ok] at h
  obtain ⟨prod, found, rfl⟩ := h
  exact revote_reweighed found

theorem applyDelta_reweighed {voting : Bool} {d : Name × D × Bool}
    (h : applyDelta c voting a d = .ok b) : Reweighed a.election b.election := by
  unfold applyDelta at h
  cases found : a.election.producers.lookup d.1 with
  | none =>
    simp only [found, bind_eq_ok, require_eq_ok, pure_eq_ok, exists_const] at h
    obtain ⟨-, rfl⟩ := h
    exact .refl _
  | some prod =>
    simp only [found, bind_eq_ok, require_eq_ok, pure_eq_ok, exists_const] at h
    obtain ⟨-, rfl⟩ := h
    exact revote_reweighed found

/-- What each turn of a loop reweighs, the loop does. -/
theorem loop_reweighed {T : Type} {turn : Accrued D → T → Checked (Accrued D)}
    (one : ∀ a t b, turn a t = .ok b → Reweighed a.election b.election) (ts : List T)
    (h : ts.foldlM turn a = .ok b) : Reweighed a.election b.election := by
  refine foldlM_keeps (I := fun b => Reweighed a.election b.election) ?_ h (.refl _)
  intro t _ b b' turned before
  exact before.trans (one b t b' turned)

/-! ## Propagation -/

theorem propagate_reweighed {fuel : Nat} {voter : VoterInfo D}
    (h : propagateWeightChange c fuel e owner voter = .ok e') : Reweighed e e' := by
  induction fuel generalizing e e' owner voter with
  | zero => cases h
  | succ fuel ih =>
    simp only [propagateWeightChange, bind_eq_ok, require_eq_ok, ite_eq_ok, find_eq_ok, pure_eq_ok,
      exists_const] at h
    obtain ⟨-, passed, step, rfl⟩ := h
    refine Reweighed.trans ?_ (.modify owner fun _ => rfl)
    rcases step with ⟨-, ⟨-, proxy, found, done⟩ | ⟨-, shifted, looped, rfl⟩⟩ | ⟨-, rfl⟩
    · exact (Reweighed.voter found (by rfl)).trans (ih done)
    · exact (loop_reweighed (fun _ _ _ => shiftVotes_reweighed) _ looped).trans settle_reweighed
    · exact .refl _

theorem setProxied_reweighed {proxy : Name} {row : VoterInfo D} {weight : D}
    (found : e.voters.lookup proxy = some row) (h : setProxied c e proxy row weight = .ok e') :
    Reweighed e e' :=
  (Reweighed.voter found (by rfl)).trans (propagate_reweighed h)

/-! ## Ballots -/

variable {voter : VoterInfo D} {deltas deltas' : Deltas D}

theorem activateStake_reweighed : Reweighed e (activateStake c e voter) := by
  unfold activateStake
  split
  · exact ⟨rfl, fun _ => rfl, ⟨_, _, _, rfl⟩, ⟨_, rfl⟩⟩
  · exact .refl _

theorem withdrawVote_reweighed (h : withdrawVote c e voter = .ok (e', deltas)) :
    Reweighed e e' := by
  simp only [withdrawVote, ite_eq_ok, bind_eq_ok, find_eq_ok, pure_eq_ok, Prod.mk.injEq] at h
  rcases h with ⟨-, ⟨-, old, found, _, set, rfl, -⟩ | ⟨-, rfl, -⟩⟩ | ⟨-, rfl, -⟩
  · exact setProxied_reweighed found set
  · exact .refl _
  · exact .refl _

theorem castVote_ok {weight : D} {proxy : Name} {producers : List Name} {voting : Bool}
    (h : castVote c e deltas weight proxy producers voting = .ok (e', deltas')) :
    Reweighed e e' ∧ (proxy ≠ NOBODY → ∃ new, e.voters.lookup proxy = some new ∧
      (voting = true → new.isProxy = true)) := by
  simp only [castVote, ite_eq_ok, bind_eq_ok, find_eq_ok, require_eq_ok, pure_eq_ok, exists_const,
    Prod.mk.injEq] at h
  obtain ⟨some, new, found, registered, _, set, rfl, -⟩ | ⟨none, rfl, -⟩ := h
  · refine ⟨?_, fun _ => ⟨new, found, fun voted => ?_⟩⟩
    · rcases set with ⟨-, set⟩ | ⟨-, rfl⟩
      · exact setProxied_reweighed found set
      · exact .refl _
    · rcases registered with off | on
      · cases voted.symm.trans off
      · exact on
  · exact ⟨.refl _, fun some => absurd some none⟩

/-- A ballot that counts: weights change, and the voter's choice is recorded.
A proxy is another account with a row, which the voter may name if it is no
proxy itself, and must be registered when the ballot is a new one. -/
theorem updateVotes_ok {voterName proxy : Name} {producers : List Name} {voting : Bool}
    (h : updateVotes c e voterName proxy producers voting = .ok e') :
    ∃ voter settled weight, e.voters.lookup voterName = some voter ∧ Reweighed e settled ∧
      (proxy ≠ NOBODY → voterName ≠ proxy ∧ voter.isProxy = false ∧
        ∃ new, e.standing proxy = some new ∧ (voting = true → new.isProxy = true)) ∧
      e' = { settled with voters := settled.voters.modify voterName fun v =>
        { v with lastVoteWeight := weight, producers, proxy } } := by
  simp only [updateVotes, checkBallot, bind_eq_ok, ite_eq_ok, require_eq_ok, find_eq_ok, pure_eq_ok,
    exists_const, Prod.exists] at h
  obtain ⟨ballot, voter, found, single, withdrawn, deltas, took, cast, deltas', gave,
    accrued, looped, rfl⟩ := h
  have before := activateStake_reweighed.trans (withdrawVote_reweighed took)
  obtain ⟨given, named⟩ := castVote_ok gave
  have after := (before.trans given).trans
    ((loop_reweighed (fun _ _ _ => applyDelta_reweighed) _ looped).trans
      (settle_reweighed (c := c)))
  refine ⟨voter, _, _, found, after, fun some => ?_, rfl⟩
  obtain ⟨-, -, apart⟩ | ⟨none, -⟩ := ballot
  · obtain ⟨new, there, registered⟩ := named some
    refine ⟨apart, single.resolve_left some, new.standing, ?_, registered⟩
    rw [← before.standing, Election.standing, there]
    rfl
  · exact absurd some none

/-! ## Proxies -/

/-- A new voter gets a row. One that has voted passes on what its proxied weight changes. -/
theorem regproxy_ok {s s' : State D} {proxy : Name} {isProxy : Bool}
    (h : regproxy c s proxy isProxy = .ok s') : ∃ e, s' = { s with toElection := e } ∧
      ((s.voters.lookup proxy = none ∧ e = { s.toElection with
          voters := s.voters.insert proxy { VoterInfo.default c with isProxy } }) ∨
        ∃ voter, s.voters.lookup proxy = some voter ∧ (isProxy = false ∨ voter.proxy = NOBODY) ∧
          propagateWeightChange c s.depth
            { s.toElection with voters := s.voters.insert proxy { voter with isProxy } } proxy
            { voter with isProxy } = .ok e) := by
  unfold regproxy at h
  cases found : s.voters.lookup proxy with
  | none =>
    simp only [found, bind_eq_ok, pure_eq_ok] at h
    obtain ⟨-, -, rfl⟩ := h
    exact ⟨_, rfl, Or.inl ⟨rfl, rfl⟩⟩
  | some voter =>
    simp only [found, bind_eq_ok, require_eq_ok, pure_eq_ok, exists_const] at h
    obtain ⟨-, -, -, single, e, passed, rfl⟩ := h
    exact ⟨e, rfl, Or.inr ⟨voter, rfl, single, passed⟩⟩

/-! ## Producers -/

/-- A row of a producer that has registered before keeps its votes and its unpaid blocks. -/
structure Rewritten (c : Ctx D) (prod row : ProducerInfo D) : Prop where
  votes : row.totalVotes = prod.totalVotes
  unpaid : row.unpaidBlocks = prod.unpaidBlocks
  claim : row.lastClaimTime = if prod.lastClaimTime = 0 then c.now else prod.lastClaimTime

/-- A producer registers: with rows of its own, again, or again and for vote pay. -/
inductive Registers (c : Ctx D) (e : Election D) (producer : Name) : Election D → Prop
  | new {row : ProducerInfo D} (absent : e.producers.lookup producer = none)
      (votes : row.totalVotes = c.fp.zero) (unpaid : row.unpaidBlocks = 0)
      (claim : row.lastClaimTime = c.now) :
      Registers c e producer { e with
        producers := e.producers.insert producer row
        producers2 := e.producers2.insert producer ⟨c.fp.zero, c.now⟩ }
  | again {prod row : ProducerInfo D} {prod2 : ProducerInfo2 D}
      (found : e.producers.lookup producer = some prod)
      (paired : e.producers2.lookup producer = some prod2) (kept : Rewritten c prod row) :
      Registers c e producer { e with producers := e.producers.insert producer row }
  | late {prod row : ProducerInfo D} (found : e.producers.lookup producer = some prod)
      (unpaired : e.producers2.lookup producer = none) (kept : Rewritten c prod row) :
      Registers c e producer (updateTotalVotepayShare c { e with
        producers := e.producers.insert producer row
        producers2 := e.producers2.insert producer ⟨c.fp.zero, c.now⟩ } c.fp.zero
        prod.totalVotes).2

theorem regproducer_ok {s s' : State D} {producer : Name} {key : PublicKey} {url : List UInt8}
    {location : Nat} (h : regproducer c s producer key url location = .ok s') :
    ∃ e, s' = { s with toElection := e } ∧ Registers c s.toElection producer e := by
  simp only [regproducer, bind_eq_ok] at h
  obtain ⟨-, -, -, -, -, -, h⟩ := h
  cases found : s.producers.lookup producer with
  | none =>
    simp only [found, pure_eq_ok] at h
    exact ⟨_, h.symm, .new found rfl rfl rfl⟩
  | some prod =>
    simp only [found, pure_eq_ok] at h
    cases again : s.producers2.lookup producer with
    | some prod2 =>
      simp only [again] at h
      exact ⟨_, h.symm, .again found again ⟨rfl, rfl, rfl⟩⟩
    | none =>
      simp only [again] at h
      exact ⟨_, h.symm, .late found again ⟨rfl, rfl, rfl⟩⟩

end DecentralBank.System
