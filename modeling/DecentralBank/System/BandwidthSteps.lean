import DecentralBank.System.Bandwidth
import DecentralBank.System.VotingSteps

/-!
# What staking does to the tables
-/

namespace DecentralBank.System

open Checked

variable {D : Type} {c : Ctx D} {s s' : State D} {e e' : Election D} {source receiver owner : Name}
  {net cpu total : Asset} {transfer toSelf : Bool}

/-! ## Votes cast again -/

/-- A ballot cast again as it stands changes weights only. -/
theorem updateVotes_again {voterName : Name} {voter : VoterInfo D} {voting : Bool}
    (found : e.voters.lookup voterName = some voter)
    (h : updateVotes c e voterName voter.proxy voter.producers voting = .ok e') :
    Reweighed e e' := by
  obtain ⟨_, settled, weight, -, reweighed, -, rfl⟩ := updateVotes_ok h
  have row : settled.standing voterName = some voter.standing := by
    rw [reweighed.standing, Election.standing, found, Option.map_some]
  obtain ⟨standing, unpaid, gstate, gstate2⟩ := reweighed
  refine ⟨funext fun k => ?_, unpaid, gstate, gstate2⟩
  rw [← standing]
  simp only [Election.standing, Table.lookup_modify]
  split
  · rename_i here
    subst here
    simp only [Election.standing] at row
    cases there : settled.voters.lookup k with
    | none => rfl
    | some v =>
      rw [there, Option.map_some] at row
      have same := Option.some.inj row
      simp only [VoterInfo.standing, Standing.mk.injEq] at same
      simp [VoterInfo.standing, same]
  · rfl

theorem updateVotingPower_ok (h : updateVotingPower c s owner total = .ok s') :
    let voter := restake c (s.voters.lookup owner) total
    ∃ e, 0 ≤ voter.staked ∧
      Reweighed { s.toElection with voters := s.voters.insert owner voter } e ∧
      s' = { s with toElection := e } := by
  intro voter
  simp only [updateVotingPower, bind_eq_ok, require_eq_ok, exists_const, pure_eq_ok, ite_eq_ok] at h
  obtain ⟨nonneg, -, -, e, voted, rfl⟩ := h
  refine ⟨e, nonneg, ?_, rfl⟩
  rcases voted with ⟨-, again⟩ | ⟨-, rfl⟩
  · exact updateVotes_again (by rw [Table.lookup_insert, if_pos rfl]) again
  · exact .refl _

/-! ## The parts of `changebw` -/

theorem settleStake_ok (h : settleStake c s source owner net cpu toSelf = .ok s') :
    ∃ refunds netBalance cpuBalance,
      updateRefund c s owner net cpu toSelf = .ok (refunds, netBalance, cpuBalance) ∧
      netBalance.symbol = cpuBalance.symbol ∧
      ((0 < netBalance.amount + cpuBalance.amount ∧
          ({ s with refunds } : State D).pay source STAKE_ACCOUNT
            ⟨netBalance.amount + cpuBalance.amount, netBalance.symbol⟩ "stake bandwidth" =
            .ok s') ∨
        (netBalance.amount + cpuBalance.amount ≤ 0 ∧ s' = { s with refunds })) := by
  simp only [settleStake, bind_eq_ok, ite_eq_ok, Asset.add_eq_ok, pure_eq_ok, Prod.exists, not_lt]
    at h
  obtain ⟨refunds, netBalance, cpuBalance, left, _, ⟨same, -, -, rfl⟩, rest⟩ := h
  refine ⟨refunds, netBalance, cpuBalance, left, same.symm, ?_⟩
  rcases rest with paid | ⟨none, rfl⟩
  · exact Or.inl paid
  · exact Or.inr ⟨none, rfl⟩

theorem pay_election {source target : Name} {quantity : Asset} {memo : String}
    (h : s.pay source target quantity memo = .ok s') : s'.toElection = s.toElection := by
  obtain ⟨token, -, rfl⟩ := State.pay_ok h
  rfl

theorem settleStake_election {source owner : Name} {net cpu : Asset} {toSelf : Bool}
    (h : settleStake c s source owner net cpu toSelf = .ok s') : s'.toElection = s.toElection := by
  obtain ⟨refunds, _, _, -, -, ⟨-, paid⟩ | ⟨-, rfl⟩⟩ := settleStake_ok h
  · have same := pay_election paid
    exact same
  · rfl

/-- Who delegates: the receiver itself when the stake is a gift. -/
def delegator (source receiver : Name) (transfer : Bool) : Name :=
  if transfer then receiver else source

theorem changebw_ok (h : changebw c s source receiver net cpu transfer = .ok s') :
    ∃ delband userres paid, source ∈ c.auth ∧
      (cpu.symbol = net.symbol ∧ -Asset.maxAmount ≤ net.amount + cpu.amount ∧
        net.amount + cpu.amount ≤ Asset.maxAmount) ∧
      updateDelegated s.delband (delegator source receiver transfer) receiver net cpu =
        .ok delband ∧
      updateTotals s.userres receiver net cpu = .ok userres ∧
      ((STAKE_ACCOUNT ≠ source ∧ settleStake c { s with delband, userres } source
          (delegator source receiver transfer) net cpu
          (!transfer && decide (delegator source receiver transfer = receiver)) = .ok paid) ∨
        (STAKE_ACCOUNT = source ∧ paid = { s with delband, userres })) ∧
      updateVotingPower c paid (delegator source receiver transfer)
        ⟨net.amount + cpu.amount, net.symbol⟩ = .ok s' := by
  simp only [changebw, bind_eq_ok, Ctx.requireAuth_eq_ok, require_eq_ok, Asset.add_eq_ok, ite_eq_ok,
    pure_eq_ok, exists_const, not_not] at h
  obtain ⟨signed, -, _, ⟨same, lo, hi, rfl⟩, -, delband, delegated, userres, totals, paid, settled,
    voted⟩ := h
  refine ⟨delband, userres, paid, signed, ⟨same, lo, hi⟩, delegated, totals, ?_, voted⟩
  rcases settled with settled | ⟨own, rfl⟩
  · exact Or.inl settled
  · exact Or.inr ⟨own, rfl⟩

/-- The row of the delegator has its new stake, and its vote the weight of it. -/
theorem changebw_restakes (h : changebw c s source receiver net cpu transfer = .ok s') :
    let owner := delegator source receiver transfer
    let row := restake c (s.voters.lookup owner) ⟨net.amount + cpu.amount, net.symbol⟩
    let e := { s.toElection with voters := s.voters.insert owner row }
    0 ≤ row.staked ∧ e.voters.lookup owner = some row ∧
      (updateVotes c e owner row.proxy row.producers false = .ok s'.toElection ∨
        s'.toElection = e) := by
  intro owner row e
  obtain ⟨delband, userres, paid, -, -, -, -, settled, voted⟩ := changebw_ok h
  have same : paid.toElection = s.toElection := by
    rcases settled with ⟨-, settled⟩ | ⟨-, rfl⟩
    · rw [settleStake_election settled]
    · rfl
  simp only [updateVotingPower, bind_eq_ok, require_eq_ok, exists_const, pure_eq_ok, ite_eq_ok, same]
    at voted
  obtain ⟨nonneg, -, -, _, voted, rfl⟩ := voted
  refine ⟨nonneg, by rw [Table.lookup_insert, if_pos rfl], ?_⟩
  rcases voted with ⟨-, again⟩ | ⟨-, rfl⟩
  · exact Or.inl again
  · exact Or.inr rfl

/-! ## Actions -/

theorem delegatebw_ok (h : delegatebw c s source receiver net cpu transfer = .ok s') :
    ∃ core, s.coreSymbol = .ok core ∧ net.symbol = core ∧ 0 ≤ net.amount ∧ 0 ≤ cpu.amount ∧
      (transfer = false ∨ source ≠ receiver) ∧
      changebw c s source receiver net cpu transfer = .ok s' := by
  simp only [delegatebw, notNegative, Asset.comparable, bind_eq_ok, Asset.make_eq_ok, require_eq_ok,
    exists_const] at h
  obtain ⟨core, known, _, ⟨-, -, rfl⟩, ⟨-, cpuStake⟩, ⟨same, netStake⟩, -, other, changed⟩ := h
  exact ⟨core, known, same, netStake, cpuStake, other, changed⟩

theorem undelegatebw_ok (h : undelegatebw c s source receiver net cpu = .ok s') :
    ∃ core, s.coreSymbol = .ok core ∧ net.symbol = core ∧ 0 ≤ net.amount ∧ 0 ≤ cpu.amount ∧
      changebw c s source receiver net.neg cpu.neg false = .ok s' := by
  simp only [undelegatebw, notNegative, Asset.comparable, bind_eq_ok, Asset.make_eq_ok,
    require_eq_ok, exists_const] at h
  obtain ⟨core, known, _, ⟨-, -, rfl⟩, ⟨-, cpuStake⟩, ⟨same, netStake⟩, -, -, changed⟩ := h
  exact ⟨core, known, same, netStake, cpuStake, changed⟩

end DecentralBank.System
