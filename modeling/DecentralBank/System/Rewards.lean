import DecentralBank.System.Auctions
import DecentralBank.System.BandwidthSteps

/-!
# Rewards are paid from what was funded

The blocks to be paid for are those of the producers, and the buckets hold
what was moved to `eosio.bpay` and `eosio.vpay` and not yet paid.
-/

namespace DecentralBank.System

open Checked Runs

variable {D : Type} {c : Ctx D} {s s' : State D} {core : Symbol} {owner : Name} {e e' : Election D}
  {prod : ProducerInfo D}

/-! ## Filling the buckets -/

/-- The shares are not negative, and add up to the tokens. -/
theorem shares_sum {tokens : Int} (nonneg : 0 ≤ tokens) (range : tokens ≤ Asset.maxAmount) :
    (shares tokens).savings + (shares tokens).perBlock + (shares tokens).perVote = tokens ∧
      0 ≤ (shares tokens).perBlock ∧ 0 ≤ (shares tokens).perVote ∧ 0 ≤ (shares tokens).savings := by
  have max : Asset.maxAmount < 2 ^ 62 := by decide
  have producers : tokens.tdiv 5 = tokens / 5 := Int.tdiv_eq_ediv_of_nonneg nonneg
  have blocks : (tokens / 5).tdiv 4 = tokens / 5 / 4 := Int.tdiv_eq_ediv_of_nonneg (by omega)
  have savings : i64 (tokens - tokens / 5) = tokens - tokens / 5 := i64_of_lt (by omega) (by omega)
  have votes : i64 (tokens / 5 - tokens / 5 / 4) = tokens / 5 - tokens / 5 / 4 :=
    i64_of_lt (by omega) (by omega)
  simp only [shares, producers, blocks, savings, votes]
  omega

theorem State.payCore_paid {source target : Name} {amount : Int} {memo : String}
    (h : s.payCore core source target amount memo = .ok s') (sound : Token.Conserved s.token) :
    ∃ token, s' = { s with token } ∧ Paid s source target ⟨amount, core⟩ token := by
  simp only [State.payCore, bind_eq_ok, Asset.make_eq_ok] at h
  obtain ⟨_, ⟨-, -, rfl⟩, sent⟩ := h
  exact State.pay_paid sent sound

/-- What a claim issues goes to the savings and the buckets. -/
structure Filled (core : Symbol) (s : State D) (token : Token.State) (share : Shares) : Prop where
  sound : Token.Conserved token
  nonneg : 0 ≤ share.perBlock ∧ 0 ≤ share.perVote ∧ 0 ≤ share.savings
  savings : Token.balanceOf token.accounts SAVING_ACCOUNT core.code =
    s.balance SAVING_ACCOUNT core.code + share.savings
  perBlock : Token.balanceOf token.accounts BPAY_ACCOUNT core.code =
    s.balance BPAY_ACCOUNT core.code + share.perBlock
  perVote : Token.balanceOf token.accounts VPAY_ACCOUNT core.code =
    s.balance VPAY_ACCOUNT core.code + share.perVote
  supply : ({ s with token } : State D).supply core.code =
    s.supply core.code + (share.savings + share.perBlock + share.perVote)

theorem fillBuckets_ok (market : s.coreSymbol = .ok core) (sound : Token.Conserved s.token)
    (h : fillBuckets c s = .ok s') :
    s' = s ∨ ∃ token share, Filled core s token share ∧ s' = { s with
      token
      gstate := { s.gstate with
        pervoteBucket := i64 (s.gstate.pervoteBucket + share.perVote)
        perblockBucket := i64 (s.gstate.perblockBucket + share.perBlock)
        lastPervoteBucketFill := c.now } } := by
  simp only [fillBuckets, bind_eq_ok, ite_eq_ok, Asset.make_eq_ok, pure_eq_ok] at h
  obtain ⟨core', same, supply, -, h⟩ := h
  cases market.symm.trans same
  rcases h with ⟨-, _, ⟨range, -, rfl⟩, minted, issued, saved, saving, blocks, blocked,
    votes, voted, rfl⟩ |
    ⟨-, rfl⟩
  · right
    obtain ⟨sound, positive, -, balances, supplied⟩ := issue_moves sound issued
    obtain ⟨sum, nonneg⟩ := shares_sum positive.le range.2
    obtain ⟨token₁, rfl, first⟩ := State.payCore_paid saving sound
    obtain ⟨token₂, rfl, second⟩ := State.payCore_paid blocked first.sound
    obtain ⟨token₃, rfl, third⟩ := State.payCore_paid voted second.sound
    have own {account : Name} (other : account ≠ c.self) :
        Token.balanceOf minted.accounts account core.code = s.balance account core.code := by
      rw [balances, if_neg fun here => other here.1, add_zero]
      rfl
    have saver := first.apart.symm
    have blockPayer := second.apart.symm
    have votePayer := third.apart.symm
    refine ⟨token₃, shares (newTokens c s supply), ⟨third.sound, nonneg, ?_, ?_, ?_, ?_⟩, rfl⟩
    · have kept₃ := third.elsewhere saver (by decide) core.code
      have kept₂ := second.elsewhere saver (by decide) core.code
      have paid := first.received rfl
      exact kept₃.trans (kept₂.trans (paid.trans (congrArg (· + _) (own saver))))
    · have kept₃ := third.elsewhere blockPayer (by decide) core.code
      have paid := second.received rfl
      have kept₁ := first.elsewhere blockPayer (by decide) core.code
      exact kept₃.trans (paid.trans (congrArg (· + _) (kept₁.trans (own blockPayer))))
    · have paid := third.received rfl
      have kept₂ := second.elsewhere votePayer (by decide) core.code
      have kept₁ := first.elsewhere votePayer (by decide) core.code
      exact paid.trans (congrArg (· + _) (kept₂.trans (kept₁.trans (own votePayer))))
    · have grown := supplied core.code
      rw [if_pos rfl] at grown
      refine (third.supply _).trans
        ((second.supply _).trans ((first.supply _).trans (grown.trans ?_)))
      rw [sum]
      rfl
  · exact Or.inl rfl

/-! ## Settling a claim -/

/-- Vote pay leaves what is counted as it is, and is clamped from revision one on. -/
theorem perVotePay_ok (c : Ctx D) (e : Election D) (prod : ProducerInfo D) (share : D)
    (crossed : Bool) :
    (perVotePay c e prod share crossed).2.gstate = e.gstate ∧
      (perVotePay c e prod share crossed).2.producers = e.producers ∧
      (perVotePay c e prod share crossed).2.gstate2.revision = e.gstate2.revision ∧
      (0 < e.gstate2.revision → 0 ≤ e.gstate.pervoteBucket →
        (perVotePay c e prod share crossed).1 ≤ e.gstate.pervoteBucket) := by
  unfold perVotePay
  simp only
  split
  · split
    · refine ⟨rfl, rfl, rfl, fun _ _ => ?_⟩
      simp only
      split
      · exact le_refl _
      · omega
    · exact ⟨rfl, rfl, rfl, fun _ nonneg => nonneg⟩
  · rename_i early
    split
    · exact ⟨rfl, rfl, rfl, fun late => absurd late early⟩
    · exact ⟨rfl, rfl, rfl, fun late => absurd late early⟩

/-- What a claim that is settled pays, and what it leaves. -/
structure Settled (e : Election D) (owner : Name) (prod : ProducerInfo D) (votePay : Int)
    (e' : Election D) : Prop where
  nonneg : 0 ≤ votePay
  clamped : 0 < e.gstate2.revision → 0 ≤ e.gstate.pervoteBucket → votePay ≤ e.gstate.pervoteBucket
  gstate : e'.gstate = { e.gstate with
    pervoteBucket := i64 (e.gstate.pervoteBucket - votePay)
    perblockBucket := i64 (e.gstate.perblockBucket - perBlockPay e.gstate prod)
    totalUnpaidBlocks := u32 ((e.gstate.totalUnpaidBlocks : Int) - prod.unpaidBlocks) }
  revision : e'.gstate2.revision = e.gstate2.revision
  producers : ∃ paid, e'.producers = e.producers.insert owner paid ∧ paid.unpaidBlocks = 0

/-- The votes are paid out of the buckets as they were, whatever the share of `owner`. -/
theorem settled_of (c : Ctx D) (e e₁ : Election D) (owner : Name) (prod : ProducerInfo D)
    (gstate : e₁.gstate = e.gstate)
    (producers : e₁.producers = e.producers) (revision : e₁.gstate2.revision = e.gstate2.revision)
    (share additionalShares sharesRate : D) (crossed : Bool) :
    let voted := perVotePay c e₁ prod share crossed
    let votePay := if voted.1 < MIN_PERVOTE_DAILY_PAY then 0 else voted.1
    let paid : Election D := { voted.2 with
      gstate := { voted.2.gstate with
        pervoteBucket := i64 (voted.2.gstate.pervoteBucket - votePay)
        perblockBucket := i64 (voted.2.gstate.perblockBucket - perBlockPay e.gstate prod)
        totalUnpaidBlocks := u32 ((voted.2.gstate.totalUnpaidBlocks : Int) - prod.unpaidBlocks) } }
    let settled := (updateTotalVotepayShare c paid additionalShares sharesRate).2
    Settled e owner prod votePay { settled with
      producers := settled.producers.insert owner
        { prod with lastClaimTime := c.now, unpaidBlocks := 0 } } := by
  intro voted votePay paid settled
  obtain ⟨gstate', producers', revision', clamped⟩ :=
    perVotePay_ok c e₁ prod share crossed
  rw [gstate] at gstate' clamped
  rw [revision] at revision' clamped
  have small : (0 : Int) < MIN_PERVOTE_DAILY_PAY := by decide
  refine ⟨?_, fun late nonneg => ?_, ?_, revision',
    ⟨{ prod with lastClaimTime := c.now, unpaidBlocks := 0 }, ?_, rfl⟩⟩
  · simp only [votePay]
    split
    · exact le_refl 0
    · omega
  · have most := clamped late nonneg
    simp only [votePay]
    split
    · exact nonneg
    · exact most
  · simp only [settled, updateTotalVotepayShare, paid, voted, gstate']
  · rw [← producers, ← producers']
    rfl

theorem settleClaim_ok (c : Ctx D) (e : Election D) (owner : Name) (prod : ProducerInfo D) :
    (settleClaim c e owner prod).1 = perBlockPay e.gstate prod ∧
      Settled e owner prod (settleClaim c e owner prod).2.1 (settleClaim c e owner prod).2.2 := by
  unfold settleClaim
  cases e.producers2.lookup owner with
  | none =>
    exact ⟨rfl,
      settled_of c e (updateProducerVotepayShare c e owner ⟨c.fp.zero, c.now⟩ c.fp.zero true).2
        owner prod rfl rfl rfl _ _ _ _⟩
  | some prod2 =>
    exact ⟨rfl,
      settled_of c e (updateProducerVotepayShare c e owner prod2 _ true).2
        owner prod rfl rfl rfl _ _ _ _⟩

/-! ## What is counted -/

/-- The blocks of all producers that are to be paid for. -/
def unpaidOf (producers : Table Name (ProducerInfo D)) : Int :=
  producers.total fun _ p => p.unpaidBlocks

theorem unpaidOf_congr {producers producers' : Table Name (ProducerInfo D)}
    (same : ∀ k, (producers'.lookup k).map ProducerInfo.unpaidBlocks =
      (producers.lookup k).map ProducerInfo.unpaidBlocks) :
    unpaidOf producers' = unpaidOf producers := by
  have rows (t : Table Name (ProducerInfo D)) :
      unpaidOf t = (t.mapRows ProducerInfo.unpaidBlocks).total fun _ (n : Nat) => (n : Int) := by
    simp only [unpaidOf, Table.total, Table.mapRows, List.map_map]
    rfl
  rw [rows, rows]
  refine Table.total_eq_of_lookup _ fun k => ?_
  rw [Table.lookup_mapRows, Table.lookup_mapRows, same]

theorem unpaidOf_insert {producers : Table Name (ProducerInfo D)} {p : ProducerInfo D}
    (found : producers.lookup owner = some p) (p' : ProducerInfo D) :
    unpaidOf (producers.insert owner p') = unpaidOf producers - p.unpaidBlocks +
      p'.unpaidBlocks := by
  rw [unpaidOf, Table.total_insert, Table.weightAt_some found, ← unpaidOf]

theorem unpaidOf_le {producers : Table Name (ProducerInfo D)} {p : ProducerInfo D}
    (found : producers.lookup owner = some p) : (p.unpaidBlocks : Int) ≤ unpaidOf producers := by
  have rest : 0 ≤ unpaidOf (producers.erase owner) :=
    Table.total_nonneg fun _ p _ => Int.natCast_nonneg p.unpaidBlocks
  rw [unpaidOf, Table.total_erase, Table.weightAt_some found, ← unpaidOf] at rest
  omega

/-- The total of blocks to be paid for is that of the producers. -/
structure Counted (e : Election D) : Prop where
  unpaid : (e.gstate.totalUnpaidBlocks : Int) = unpaidOf e.producers
  word : e.gstate.totalUnpaidBlocks < 2 ^ 32

/-- The counters are sound, and the buckets hold what was moved to their accounts, which had `bpay`
and `vpay` when there were `supply` tokens. Beside it they may have been paid as producers. Pay for
votes is clamped when it is `late`. -/
structure Funded (core : Symbol) (late : Prop) (bpay vpay supply : Int) (s : State D) : Prop where
  market : s.coreSymbol = .ok core
  token : Token.Conserved s.token
  counted : Counted s.toElection
  perblock : 0 ≤ s.gstate.perblockBucket
  pervote : late → 0 < s.gstate2.revision ∧ 0 ≤ s.gstate.pervoteBucket
  flows : ∃ votes blocks : Int, 0 ≤ votes ∧ 0 ≤ blocks ∧
    s.balance BPAY_ACCOUNT core.code = bpay + s.gstate.perblockBucket + votes ∧
    s.balance VPAY_ACCOUNT core.code = vpay + s.gstate.pervoteBucket + blocks ∧
    blocks + s.gstate.perblockBucket ≤ s.supply core.code - supply

variable {late : Prop} {bpay vpay supply : Int}

/-- The counters stay sound, and the buckets and the ledger as they are. -/
structure Unspent (s s' : State D) : Prop where
  market : s'.rammarket = s.rammarket
  token : s'.token = s.token
  counted : Counted s.toElection → Counted s'.toElection
  perblock : s'.gstate.perblockBucket = s.gstate.perblockBucket
  pervote : s'.gstate.pervoteBucket = s.gstate.pervoteBucket
  revision : s'.gstate2.revision = s.gstate2.revision

theorem Unspent.balance (h : Unspent s s') (account : Name) (code : SymbolCode) :
    s'.balance account code = s.balance account code := by
  unfold State.balance
  rw [h.token]

theorem Funded.unspent (hs : Funded core late bpay vpay supply s) (h : Unspent s s') :
    Funded core late bpay vpay supply s' := by
  have market : s'.coreSymbol = s.coreSymbol := by
    unfold State.coreSymbol
    rw [h.market]
  refine ⟨market.trans hs.market, h.token ▸ hs.token, h.counted hs.counted, ?_, ?_, ?_⟩
  · rw [h.perblock]
    exact hs.perblock
  · rw [h.pervote, h.revision]
    exact hs.pervote
  · rw [h.balance, h.balance, h.perblock, h.pervote, State.supply, h.token]
    exact hs.flows

theorem onblock_unspent {slot : Nat} {producer : Name}
    (fits : (s.producers.lookup producer).isSome = true →
        (s.gstate.totalUnpaidBlocks : Int) + 1 < 2 ^ 32)
    (h : onblock c s slot producer = .ok s') : Unspent s s' := by
  obtain ⟨e, bids, -, made, rfl⟩ := onblock_ok h
  refine ⟨rfl, rfl, fun counted => ?_, made.perblock, made.pervote, made.revision⟩
  have unpaid := counted.unpaid
  have word := counted.word
  rcases made.counted with ⟨producers, total⟩ | ⟨prod, found, producers, total⟩
  · refine ⟨?_, total ▸ word⟩
    rw [producers, total, unpaid]
  · have part := unpaidOf_le found
    replace fits := fits (by rw [found]; rfl)
    have one := u32_of_lt (by omega) fits
    have own : (u32 ((prod.unpaidBlocks : Int) + 1) : Int) = prod.unpaidBlocks + 1 :=
      u32_of_lt (by omega) (by omega)
    refine ⟨?_, by simp only [total]; omega⟩
    rw [producers, total, unpaidOf_insert found, one]
    simp only [own]
    omega

theorem voteproducer_unspent {voter proxy : Name} {producers : List Name}
    (h : voteproducer c s voter proxy producers = .ok s') : Unspent s s' := by
  simp only [voteproducer, bind_eq_ok, Ctx.requireAuth_eq_ok, exists_const, pure_eq_ok] at h
  obtain ⟨-, e, voted, rfl⟩ := h
  obtain ⟨_, settled, _, -, reweighed, -, rfl⟩ := updateVotes_ok voted
  obtain ⟨_, _, _, gstate⟩ := reweighed.gstate
  obtain ⟨_, gstate2⟩ := reweighed.gstate2
  refine ⟨rfl, rfl, fun counted => ⟨?_, ?_⟩, ?_, ?_, ?_⟩
  · simp only [gstate, counted.unpaid]
    exact (unpaidOf_congr reweighed.unpaid).symm
  · simp only [gstate, counted.word]
  · simp only [gstate]
  · simp only [gstate]
  · simp only [gstate2]

/-- A producer's row is written without a change of its blocks. -/
theorem rewrite_unspent {producer : Name} {p : ProducerInfo D}
    (found : s.producers.lookup producer = some p) (p' : ProducerInfo D)
    (same : p'.unpaidBlocks = p.unpaidBlocks) :
    Unspent s { s with producers := s.producers.insert producer p' } := by
  refine ⟨rfl, rfl, fun counted => ⟨?_, counted.word⟩, rfl, rfl, rfl⟩
  simp only
  rw [unpaidOf_insert found, same, counted.unpaid]
  ring

theorem regproducer_unspent {producer : Name} {key : PublicKey} {url : List UInt8} {location : Nat}
    (h : regproducer c s producer key url location = .ok s') : Unspent s s' := by
  obtain ⟨e, rfl, registers⟩ := regproducer_ok h
  cases registers with
  | new absent votes unpaid claim =>
    refine ⟨rfl, rfl, fun counted => ⟨?_, counted.word⟩, rfl, rfl, rfl⟩
    simp only
    rw [unpaidOf, Table.total_insert, Table.weightAt_none absent, ← unpaidOf, counted.unpaid, unpaid]
    simp
  | again found paired kept => exact rewrite_unspent found _ kept.unpaid
  | late found unpaired kept =>
    have written := rewrite_unspent found _ kept.unpaid
    exact ⟨rfl, rfl, fun counted => ⟨(written.counted counted).unpaid, counted.word⟩, rfl, rfl, rfl⟩

theorem unregprod_unspent {producer : Name} (h : unregprod c s producer = .ok s') :
    Unspent s s' := by
  simp only [unregprod, bind_eq_ok, Ctx.requireAuth_eq_ok, find_eq_ok, exists_const,
    pure_eq_ok] at h
  obtain ⟨-, prod, found, rfl⟩ := h
  exact rewrite_unspent found _ rfl

theorem rmvproducer_unspent {producer : Name} (h : rmvproducer c s producer = .ok s') :
    Unspent s s' := by
  simp only [rmvproducer, bind_eq_ok, Ctx.requireAuth_eq_ok, find_eq_ok, exists_const,
    pure_eq_ok] at h
  obtain ⟨-, prod, found, rfl⟩ := h
  exact rewrite_unspent found _ rfl

/-! ## Claims -/

/-- What the buckets hold beyond the balances is as before when they are filled. -/
theorem Funded.fillBuckets (hs : Funded core late bpay vpay supply s)
    (room : 0 ≤ bpay ∧ 0 ≤ vpay ∧ vpay ≤ Asset.maxAmount ∧ 0 ≤ supply)
    (h : fillBuckets c s = .ok s') :
    Funded core late bpay vpay supply s' ∧ s'.producers = s.producers ∧ s'.gstate2 = s.gstate2 ∧
      s'.balance BPAY_ACCOUNT core.code - s'.gstate.perblockBucket =
        s.balance BPAY_ACCOUNT core.code - s.gstate.perblockBucket ∧
      s'.balance VPAY_ACCOUNT core.code - s'.gstate.pervoteBucket =
        s.balance VPAY_ACCOUNT core.code - s.gstate.pervoteBucket := by
  rcases fillBuckets_ok hs.market hs.token h with rfl | ⟨token, share, filled, rfl⟩
  · exact ⟨hs, rfl, rfl, rfl, rfl⟩
  · obtain ⟨votes, blocks, gotVotes, gotBlocks, blockFlow, voteFlow, issued⟩ := hs.flows
    obtain ⟨perBlock, perVote, savings⟩ := filled.nonneg
    have blockBalance := filled.perBlock
    have voteBalance := filled.perVote
    have supplied := filled.supply
    have mostBlock := filled.sound.atMost BPAY_ACCOUNT core.code
    have mostVote := filled.sound.atMost VPAY_ACCOUNT core.code
    have leastVote : 0 ≤ Token.balanceOf token.accounts VPAY_ACCOUNT core.code :=
      filled.sound.rows.held _ _
    have capped := (State.supply_range hs.token core.code).2
    have bucket := hs.perblock
    have max : Asset.maxAmount < 2 ^ 62 := by decide
    have blockBucket : i64 (s.gstate.perblockBucket + share.perBlock) =
        s.gstate.perblockBucket + share.perBlock := i64_of_lt (by omega) (by omega)
    have voteBucket : i64 (s.gstate.pervoteBucket + share.perVote) =
        s.gstate.pervoteBucket + share.perVote := i64_of_lt (by omega) (by omega)
    refine ⟨⟨hs.market, filled.sound, ⟨hs.counted.unpaid, hs.counted.word⟩, ?_,
      fun late => ?_, votes, blocks, gotVotes, gotBlocks, ?_, ?_, ?_⟩, rfl, rfl, ?_, ?_⟩
    · simp only [blockBucket]
      omega
    · obtain ⟨revised, before⟩ := hs.pervote late
      simp only [voteBucket]
      exact ⟨revised, by omega⟩
    · simp only [State.balance, blockBucket] at blockFlow blockBalance ⊢
      omega
    · simp only [State.balance, voteBucket] at voteFlow voteBalance ⊢
      omega
    · simp only [State.supply, blockBucket] at supplied issued ⊢
      omega
    · simp only [State.balance, blockBucket] at blockBalance ⊢
      omega
    · simp only [State.balance, voteBucket] at voteBalance ⊢
      omega

theorem perBlockPay_le (hs : Funded core late bpay vpay supply s)
    (found : s.producers.lookup owner = some prod)
    (product : s.gstate.perblockBucket * prod.unpaidBlocks < 2 ^ 63) :
    0 ≤ perBlockPay s.gstate prod ∧ perBlockPay s.gstate prod ≤ s.gstate.perblockBucket := by
  have part := unpaidOf_le found
  have unpaid := hs.counted.unpaid
  have bucket := hs.perblock
  have nonneg : 0 ≤ s.gstate.perblockBucket * prod.unpaidBlocks :=
    mul_nonneg bucket (Int.natCast_nonneg _)
  unfold perBlockPay
  split
  · rename_i positive
    rw [i64_of_lt (by omega) product, Int.tdiv_eq_ediv_of_nonneg nonneg]
    refine ⟨Int.ediv_nonneg nonneg (Int.natCast_nonneg _), ?_⟩
    refine Int.ediv_le_of_le_mul (by omega) ?_
    exact mul_le_mul_of_nonneg_left (by omega) bucket
  · exact ⟨le_refl 0, bucket⟩

/-- A payment, if there is anything to be paid. -/
theorem payPositive_ok {source target : Name} {amount : Int} {memo : String}
    (h : (if 0 < amount then s.payCore core source target amount memo else pure s) = .ok s')
    (nonneg : 0 ≤ amount) (sound : Token.Conserved s.token) :
    ∃ token, s' = { s with token } ∧ Token.Conserved token ∧ token.stats = s.token.stats ∧
      (source = target → amount = 0) ∧
      ∀ account, Token.balanceOf token.accounts account core.code = s.balance account core.code -
        (if account = source then amount else 0) + if account = target then amount else 0 := by
  obtain ⟨positive, sent⟩ | ⟨not, same⟩ := ite_eq_ok.mp h
  · obtain ⟨token, rfl, paid⟩ := State.payCore_paid sent sound
    refine ⟨token, rfl, paid.sound, paid.stats, fun own => absurd own paid.apart, fun account => ?_⟩
    by_cases payer : account = source
    · subst payer
      rw [paid.spent rfl, if_pos rfl, if_neg paid.apart, add_zero]
    · rw [if_neg payer, sub_zero]
      by_cases payee : account = target
      · subst payee
        rw [paid.received rfl, if_pos rfl]
      · rw [paid.elsewhere payer payee, if_neg payee, add_zero]
  · cases same
    have none : amount = 0 := by omega
    refine ⟨s.token, rfl, sound, rfl, fun _ => none, fun account => ?_⟩
    simp only [none, ite_self, sub_zero, add_zero]
    rfl

/-- A claim takes from the buckets what it pays, and from the counters the blocks it pays for. -/
theorem Funded.settle (hs : Funded core late bpay vpay supply s)
    (room : 0 ≤ bpay ∧ 0 ≤ vpay ∧ vpay ≤ Asset.maxAmount ∧ 0 ≤ supply)
    (found : s.producers.lookup owner = some prod)
    (product : s.gstate.perblockBucket * prod.unpaidBlocks < 2 ^ 63) {votePay : Int}
    {token : Token.State}
    (settled : Settled s.toElection owner prod votePay e) (sound : Token.Conserved token)
    (stats : token.stats = s.token.stats)
    (blockBalance : Token.balanceOf token.accounts BPAY_ACCOUNT core.code =
      s.balance BPAY_ACCOUNT core.code - perBlockPay s.gstate prod +
        (if owner = BPAY_ACCOUNT then votePay else 0))
    (voteBalance : Token.balanceOf token.accounts VPAY_ACCOUNT core.code =
      s.balance VPAY_ACCOUNT core.code +
        (if owner = VPAY_ACCOUNT then perBlockPay s.gstate prod else 0) - votePay) :
    Funded core late bpay vpay supply { s with toElection := e, token } ∧
      e.gstate.perblockBucket = s.gstate.perblockBucket - perBlockPay s.gstate prod ∧
      e.gstate.pervoteBucket = s.gstate.pervoteBucket - votePay := by
  obtain ⟨nonneg, most⟩ := perBlockPay_le hs found product
  obtain ⟨votes, blocks, gotVotes, gotBlocks, blockFlow, voteFlow, issued⟩ := hs.flows
  have paysVotes := settled.nonneg
  have mostBlock := hs.token.atMost BPAY_ACCOUNT core.code
  have mostVote := sound.atMost VPAY_ACCOUNT core.code
  have leastVote : 0 ≤ Token.balanceOf token.accounts VPAY_ACCOUNT core.code := sound.rows.held _ _
  have capped := (State.supply_range hs.token core.code).2
  have max : Asset.maxAmount < 2 ^ 62 := by decide
  have moreVotes : 0 ≤ if owner = BPAY_ACCOUNT then votePay else 0 := by
    split
    · exact paysVotes
    · exact le_refl 0
  have moreBlocks : 0 ≤ (if owner = VPAY_ACCOUNT then perBlockPay s.gstate prod else 0) ∧
      (if owner = VPAY_ACCOUNT then perBlockPay s.gstate prod else 0) ≤
        perBlockPay s.gstate prod := by
    split
    · exact ⟨nonneg, le_refl _⟩
    · exact ⟨le_refl 0, nonneg⟩
  have bucket := hs.perblock
  unfold State.balance at blockFlow voteFlow blockBalance voteBalance
  have perblock : e.gstate.perblockBucket =
      s.gstate.perblockBucket - perBlockPay s.gstate prod := by
    rw [settled.gstate]
    exact i64_of_lt (by omega) (by omega)
  have pervote : e.gstate.pervoteBucket = s.gstate.pervoteBucket - votePay := by
    rw [settled.gstate]
    exact i64_of_lt (by omega) (by omega)
  have part := unpaidOf_le found
  have unpaid := hs.counted.unpaid
  have word := hs.counted.word
  have fewer : (e.gstate.totalUnpaidBlocks : Int) =
      s.gstate.totalUnpaidBlocks - prod.unpaidBlocks := by
    rw [settled.gstate]
    exact u32_of_lt (by omega) (by omega)
  refine ⟨⟨hs.market, sound, ⟨?_, ?_⟩, ?_, fun late => ?_, votes + _, blocks + _,
    add_nonneg gotVotes moreVotes, add_nonneg gotBlocks moreBlocks.1, ?_, ?_, ?_⟩,
    perblock, pervote⟩
  · obtain ⟨paid, producers, none⟩ := settled.producers
    have inserted := unpaidOf_insert found paid
    simp only [producers, fewer]
    omega
  · simp only
    omega
  · simp only [perblock]
    omega
  · obtain ⟨revised, before⟩ := hs.pervote late
    have clamped := settled.clamped revised before
    simp only [pervote, settled.revision]
    exact ⟨revised, by omega⟩
  · simp only [State.balance, perblock]
    omega
  · simp only [State.balance, pervote]
    omega
  · have same :
        ({ s with toElection := e, token } : State D).supply core.code = s.supply core.code := by
      unfold State.supply
      rw [stats]
    simp only [same, perblock]
    omega

/-- What a claim of `owner` pays for blocks and for votes. -/
def claimPays (c : Ctx D) (s : State D) (owner : Name) : Int × Int :=
  match System.fillBuckets c s, s.producers.lookup owner with
  | .ok filled, some prod =>
    let (blockPay, votePay, _) := settleClaim c filled.toElection owner prod
    (blockPay, votePay)
  | _, _ => (0, 0)

/-- The product of a claim fits its word. -/
def claimFits (c : Ctx D) (s : State D) (owner : Name) : Bool :=
  match System.fillBuckets c s, s.producers.lookup owner with
  | .ok filled, some prod => decide (filled.gstate.perblockBucket * prod.unpaidBlocks < 2 ^ 63)
  | _, _ => true

theorem Funded.claimrewards (hs : Funded core late bpay vpay supply s)
    (room : 0 ≤ bpay ∧ 0 ≤ vpay ∧ vpay ≤ Asset.maxAmount ∧ 0 ≤ supply)
    (fits : claimFits c s owner = true)
    (h : claimrewards c s owner = .ok s') :
    Funded core late bpay vpay supply s' ∧
      s'.balance BPAY_ACCOUNT core.code - s'.gstate.perblockBucket =
        s.balance BPAY_ACCOUNT core.code - s.gstate.perblockBucket +
          (if owner = BPAY_ACCOUNT then (claimPays c s owner).2 else 0) ∧
      s'.balance VPAY_ACCOUNT core.code - s'.gstate.pervoteBucket =
        s.balance VPAY_ACCOUNT core.code - s.gstate.pervoteBucket +
          (if owner = VPAY_ACCOUNT then (claimPays c s owner).1 else 0) := by
  simp only [System.claimrewards, bind_eq_ok, Ctx.requireAuth_eq_ok, require_eq_ok, find_eq_ok,
    exists_const] at h
  obtain ⟨-, prod, found, -, -, -, filled, filling, core', known, blocked, blockPaid, votePaid⟩ := h
  obtain ⟨hf, producers, -, blockGap, voteGap⟩ := hs.fillBuckets room filling
  cases hf.market.symm.trans known
  simp only [claimFits, filling, found, decide_eq_true_eq] at fits
  have pays : claimPays c s owner = ((settleClaim c filled.toElection owner prod).1,
      (settleClaim c filled.toElection owner prod).2.1) := by
    simp only [claimPays, filling, found]
  rw [← producers] at found
  obtain ⟨blockPay, settled⟩ := settleClaim_ok c filled.toElection owner prod
  obtain ⟨nonneg, -⟩ := perBlockPay_le hf found fits
  rw [pays, blockPay]
  rw [blockPay] at blockPaid
  obtain ⟨token₁, rfl, sound₁, stats₁, apart₁, balances₁⟩ :=
    payPositive_ok blockPaid nonneg hf.token
  obtain ⟨token₂, rfl, sound₂, stats₂, apart₂, balances₂⟩ :=
    payPositive_ok votePaid settled.nonneg sound₁
  simp only [State.balance] at balances₁ balances₂
  generalize (settleClaim c filled.toElection owner prod).2.1 = votePay at *
  have bpay_ne_vpay : BPAY_ACCOUNT ≠ VPAY_ACCOUNT := by decide
  have blockBalance : Token.balanceOf token₂.accounts BPAY_ACCOUNT core.code =
      filled.balance BPAY_ACCOUNT core.code - perBlockPay filled.gstate prod +
        (if owner = BPAY_ACCOUNT then votePay else 0) := by
    rw [balances₂, balances₁, if_pos rfl, if_neg bpay_ne_vpay, sub_zero]
    simp only [eq_comm (a := BPAY_ACCOUNT)] at apart₁ ⊢
    split
    · rename_i own
      simp only [apart₁ own, sub_zero, add_zero, State.balance]
    · simp only [add_zero, State.balance]
  have voteBalance : Token.balanceOf token₂.accounts VPAY_ACCOUNT core.code =
      filled.balance VPAY_ACCOUNT core.code +
        (if owner = VPAY_ACCOUNT then perBlockPay filled.gstate prod else 0) - votePay := by
    rw [balances₂, balances₁, if_pos rfl, if_neg bpay_ne_vpay.symm, sub_zero]
    simp only [eq_comm (a := VPAY_ACCOUNT)] at apart₂ ⊢
    split
    · rename_i own
      simp only [apart₂ own, sub_zero, add_zero, State.balance]
    · simp only [add_zero, State.balance]
  obtain ⟨funded, perblock, pervote⟩ :=
    hf.settle room found fits settled sound₂ (stats₂.trans stats₁)
    blockBalance voteBalance
  refine ⟨funded, ?_, ?_⟩
  · simp only [State.balance, perblock] at blockGap blockBalance ⊢
    omega
  · simp only [State.balance, pervote] at voteGap voteBalance ⊢
    omega

/-! ## Every run -/

/-- Blocks, producers, votes and claims. -/
def Action.rewards : Action → Bool
  | .onblock .. | .regproducer .. | .unregprod .. | .rmvproducer .. | .voteproducer ..
  | .claimrewards .. => true
  | _ => false

/-- The counters of blocks and the products of claims fit their words. -/
def Call.fits (self : Name) (s : State D) (call : Call D) : Bool :=
  match call.action with
  | .onblock _ producer =>
    (s.producers.lookup producer).isNone || decide ((s.gstate.totalUnpaidBlocks : Int) + 1 < 2 ^ 32)
  | .claimrewards owner => claimFits ⟨self, call.auth, call.now, call.fp⟩ s owner
  | _ => true

/-- What `account` is paid when it claims rewards: for blocks, or for votes. -/
def paidTo (self : Name) (part : Int × Int → Int) (account : Name) (s : State D)
    (call : Call D) : Int :=
  match call.action, perform self s call with
  | .claimrewards owner, .ok _ =>
    if owner = account then part (claimPays ⟨self, call.auth, call.now, call.fp⟩ s owner) else 0
  | _, _ => 0

theorem paidTo_of_ok {self account : Name} {call : Call D} {part : Int × Int → Int}
    (done : perform self s call = .ok s') : paidTo self part account s call =
      match call.action with
      | .claimrewards owner =>
        if owner = account then part (claimPays ⟨self, call.auth, call.now, call.fp⟩ s owner) else 0
      | _ => 0 := by
  unfold paidTo
  rw [done]
  cases call.action <;> rfl

/-- What each call does to the balances beyond the buckets. -/
theorem Funded.perform (hs : Funded core late bpay vpay supply s)
    (room : 0 ≤ bpay ∧ 0 ≤ vpay ∧ vpay ≤ Asset.maxAmount ∧ 0 ≤ supply) {self : Name} {call : Call D}
    (rewards : call.action.rewards = true) (fits : call.fits self s = true)
    (done : perform self s call = .ok s') :
    Funded core late bpay vpay supply s' ∧
      s'.balance BPAY_ACCOUNT core.code - s'.gstate.perblockBucket =
        s.balance BPAY_ACCOUNT core.code - s.gstate.perblockBucket +
          paidTo self Prod.snd BPAY_ACCOUNT s call ∧
      s'.balance VPAY_ACCOUNT core.code - s'.gstate.pervoteBucket =
        s.balance VPAY_ACCOUNT core.code - s.gstate.pervoteBucket +
          paidTo self Prod.fst VPAY_ACCOUNT s call := by
  rw [paidTo_of_ok done, paidTo_of_ok done]
  have h := (perform_ok done).2
  unfold Call.fits at fits
  have kept (unspent : Unspent s s') : Funded core late bpay vpay supply s' ∧
      s'.balance BPAY_ACCOUNT core.code - s'.gstate.perblockBucket =
        s.balance BPAY_ACCOUNT core.code - s.gstate.perblockBucket + 0 ∧
      s'.balance VPAY_ACCOUNT core.code - s'.gstate.pervoteBucket =
        s.balance VPAY_ACCOUNT core.code - s.gstate.pervoteBucket + 0 := by
    rw [unspent.balance, unspent.balance, unspent.perblock, unspent.pervote, add_zero, add_zero]
    exact ⟨hs.unspent unspent, rfl, rfl⟩
  generalize call.action = a at *
  cases a <;> try cases rewards
  case onblock slot producer =>
    refine kept (onblock_unspent (fun registered => ?_) h)
    simp only [Option.isNone_eq_false_iff.mpr registered, Bool.false_or, decide_eq_true_eq] at fits
    exact fits
  case regproducer => exact kept (regproducer_unspent h)
  case unregprod => exact kept (unregprod_unspent h)
  case rmvproducer => exact kept (rmvproducer_unspent h)
  case voteproducer => exact kept (voteproducer_unspent h)
  case claimrewards owner => exact hs.claimrewards room fits h

/-- What each step does to the balances beyond the buckets. -/
theorem Funded.step (hs : Funded core late bpay vpay supply s)
    (room : 0 ≤ bpay ∧ 0 ≤ vpay ∧ vpay ≤ Asset.maxAmount ∧ 0 ≤ supply) {self : Name} {call : Call D}
    (rewards : call.action.rewards = true) (fits : call.fits self s = true) :
    Funded core late bpay vpay supply (System.step self s call) ∧
      (System.step self s call).balance BPAY_ACCOUNT core.code -
          (System.step self s call).gstate.perblockBucket =
        s.balance BPAY_ACCOUNT core.code - s.gstate.perblockBucket +
          paidTo self Prod.snd BPAY_ACCOUNT s call ∧
      (System.step self s call).balance VPAY_ACCOUNT core.code -
          (System.step self s call).gstate.pervoteBucket =
        s.balance VPAY_ACCOUNT core.code - s.gstate.pervoteBucket +
          paidTo self Prod.fst VPAY_ACCOUNT s call := by
  cases done : System.perform self s call with
  | ok s' =>
    have next : System.step self s call = s' := by
      unfold System.step
      rw [done]
    rw [next]
    exact hs.perform room rewards fits done
  | error message =>
    have same : System.step self s call = s := by
      unfold System.step
      rw [done]
    have unpaid (part : Int × Int → Int) (account : Name) :
        paidTo self part account s call = 0 := by
      unfold paidTo
      rw [done]
      cases call.action <;> rfl
    rw [same, unpaid, unpaid, add_zero, add_zero]
    exact ⟨hs, rfl, rfl⟩

theorem payPositive_supply {source target : Name} {amount : Int} {memo : String}
    (h : (if 0 < amount then s.payCore core source target amount memo else pure s) = .ok s')
    (sound : Token.Conserved s.token) :
    Token.Conserved s'.token ∧ s'.supply core.code = s.supply core.code := by
  obtain ⟨-, sent⟩ | ⟨-, same⟩ := ite_eq_ok.mp h
  · obtain ⟨token, rfl, paid⟩ := State.payCore_paid sent sound
    exact ⟨paid.sound, paid.supply _⟩
  · cases same
    exact ⟨sound, rfl⟩

/-- A claim issues what it fills the buckets with, and that is what the savings and the buckets'
accounts receive. -/
theorem claimrewards_sum (market : s.coreSymbol = .ok core) (sound : Token.Conserved s.token)
    (h : claimrewards c s owner = .ok s') : ∃ filled, fillBuckets c s = .ok filled ∧
      (filled.balance SAVING_ACCOUNT core.code - s.balance SAVING_ACCOUNT core.code) +
          (filled.balance BPAY_ACCOUNT core.code - s.balance BPAY_ACCOUNT core.code) +
          (filled.balance VPAY_ACCOUNT core.code - s.balance VPAY_ACCOUNT core.code) =
        s'.supply core.code - s.supply core.code := by
  simp only [claimrewards, bind_eq_ok, Ctx.requireAuth_eq_ok, require_eq_ok, find_eq_ok,
    exists_const] at h
  obtain ⟨-, prod, -, -, -, -, filled, filling, core', known, blocked, blockPaid, votePaid⟩ := h
  refine ⟨filled, filling, ?_⟩
  have later (market : filled.coreSymbol = .ok core) (sound : Token.Conserved filled.token) :
      s'.supply core.code = filled.supply core.code := by
    cases market.symm.trans known
    obtain ⟨sound, first⟩ := payPositive_supply blockPaid sound
    exact (payPositive_supply votePaid sound).2.trans first
  rcases fillBuckets_ok market sound filling with rfl | ⟨token, share, buckets, rfl⟩
  · rw [later market sound]
    omega
  · rw [later market buckets.sound]
    have savings := buckets.savings
    have perBlock := buckets.perBlock
    have perVote := buckets.perVote
    have issued := buckets.supply
    simp only [State.balance, State.supply] at savings perBlock perVote issued ⊢
    omega

/-- No blocks are to be paid for, and nothing is in the buckets. -/
structure Unfunded (s : State D) : Prop where
  total : s.gstate.totalUnpaidBlocks = 0
  producers : s.producers.All fun _ p => p.unpaidBlocks = 0
  perblock : s.gstate.perblockBucket = 0
  pervote : s.gstate.pervoteBucket = 0

theorem Unfunded.funded (hs : Unfunded s) (market : s.coreSymbol = .ok core)
    (token : Token.Conserved s.token) :
    Funded core (1 ≤ s.gstate2.revision) (s.balance BPAY_ACCOUNT core.code)
      (s.balance VPAY_ACCOUNT core.code)
      (s.supply core.code) s := by
  have none : unpaidOf s.producers = 0 :=
    Table.total_zero fun k p found => by rw [hs.producers k p found]; rfl
  refine ⟨market, token, ⟨?_, ?_⟩, hs.perblock.ge, fun late => ⟨late, hs.pervote.ge⟩, 0, 0,
    le_refl 0, le_refl 0, ?_, ?_, ?_⟩
  · rw [none, hs.total]
    rfl
  · rw [hs.total]
    decide
  · rw [hs.perblock, add_zero, add_zero]
  · rw [hs.pervote, add_zero, add_zero]
  · rw [hs.perblock, add_zero, sub_self]

theorem rewards_funded (self : Name) (s : State D) (market : s.coreSymbol = .ok core)
    (token : Token.Conserved s.token) (unfunded : Unfunded s) (calls : List (Call D))
    (rewards : ∀ call ∈ calls, call.action.rewards = true)
    (fits : Along (step self) (fun s call => call.fits self s = true) s calls) :
    let t := run (step self) s calls
    (t.gstate.totalUnpaidBlocks : Int) = unpaidOf t.producers ∧
      0 ≤ t.gstate.perblockBucket ∧
      t.balance BPAY_ACCOUNT core.code - s.balance BPAY_ACCOUNT core.code =
        t.gstate.perblockBucket + tally (step self) (paidTo self Prod.snd BPAY_ACCOUNT) s calls ∧
      t.balance VPAY_ACCOUNT core.code - s.balance VPAY_ACCOUNT core.code =
        t.gstate.pervoteBucket + tally (step self) (paidTo self Prod.fst VPAY_ACCOUNT) s calls ∧
      (1 ≤ s.gstate2.revision → 0 ≤ t.gstate.pervoteBucket) ∧
      ∀ (c : Ctx D) owner t', claimrewards c t owner = .ok t' →
        ∃ filled, fillBuckets c t = .ok filled ∧
          (filled.balance SAVING_ACCOUNT core.code - t.balance SAVING_ACCOUNT core.code) +
              (filled.balance BPAY_ACCOUNT core.code - t.balance BPAY_ACCOUNT core.code) +
              (filled.balance VPAY_ACCOUNT core.code - t.balance VPAY_ACCOUNT core.code) =
            t'.supply core.code - t.supply core.code := by
  intro t
  have start := unfunded.funded market token
  have room : 0 ≤ s.balance BPAY_ACCOUNT core.code ∧ 0 ≤ s.balance VPAY_ACCOUNT core.code ∧
      s.balance VPAY_ACCOUNT core.code ≤ Asset.maxAmount ∧ 0 ≤ s.supply core.code :=
    ⟨token.rows.held _ _, token.rows.held _ _, token.atMost _ _,
      (State.supply_range token core.code).1⟩
  have along := along_and (along_of_forall rewards s) fits
  have keeps (s₁ : State D) (call : Call D)
      (hs : Funded core (1 ≤ s.gstate2.revision) (s.balance BPAY_ACCOUNT core.code)
        (s.balance VPAY_ACCOUNT core.code) (s.supply core.code) s₁)
      (allowed : call.action.rewards = true ∧ call.fits self s₁ = true) :=
    hs.step room allowed.1 allowed.2
  have funded : Funded core _ _ _ _ t :=
    run_invariant (fun s₁ call hs allowed => (keeps s₁ call hs allowed).1) start along
  have blockGap :=
    run_tally_eq (f := fun s => s.balance BPAY_ACCOUNT core.code - s.gstate.perblockBucket)
    (fun s₁ call hs allowed => (keeps s₁ call hs allowed).1)
    (fun s₁ call hs allowed => (keeps s₁ call hs allowed).2.1) start along
  have voteGap :=
    run_tally_eq (f := fun s => s.balance VPAY_ACCOUNT core.code - s.gstate.pervoteBucket)
    (fun s₁ call hs allowed => (keeps s₁ call hs allowed).1)
    (fun s₁ call hs allowed => (keeps s₁ call hs allowed).2.2) start along
  simp only [unfunded.perblock, unfunded.pervote, sub_zero] at blockGap voteGap
  refine ⟨funded.counted.unpaid, funded.perblock, ?_, ?_, fun late => (funded.pervote late).2, ?_⟩
  · simp only [t]
    omega
  · simp only [t]
    omega
  · intro c owner t' claim
    exact claimrewards_sum funded.market funded.token claim

section

open Sample

def key : PublicKey := ⟨0, [1]⟩

/-- `dick` and `nick` produce, `dick` claims, and `nick` is removed. -/
def producing : List (Call Int) :=
  [call dick 100 (.regproducer dick key [] 0),
    call nick 101 (.regproducer nick key [] 0),
    call eosio 102 (.onblock 1 dick),
    call eosio 103 (.onblock 2 dick),
    call eosio 104 (.onblock 3 nick),
    ⟨[dick], 100000000000, always 100000000, .claimrewards dick⟩,
    call eosio 100001 (.rmvproducer nick),
    call eosio 100002 (.onblock 5 nick)]

theorem producing_funded :
    let t := run (step eosio) activated producing
    t.gstate.totalUnpaidBlocks = 2 ∧ t.gstate.perblockBucket = 1666667 ∧
      t.balance BPAY_ACCOUNT EOS.code - activated.balance BPAY_ACCOUNT EOS.code = 1666667 := by
  intro t
  have market : activated.coreSymbol = .ok EOS := rfl
  obtain ⟨-, -, funds, -⟩ := rewards_funded eosio activated market ledger_conserved
    ⟨rfl, Table.All.empty _, rfl, rfl⟩ producing (by decide) (by decide +kernel)
  have bucket : t.gstate.perblockBucket = 1666667 := by decide +kernel
  have none : tally (step eosio) (paidTo eosio Prod.snd BPAY_ACCOUNT) activated producing = 0 := by
    decide +kernel
  refine ⟨by decide +kernel, bucket, funds.trans ?_⟩
  rw [none, add_zero]
  exact bucket

/-- Balances that are not what was funded: `eosio.bpay` is paid for its votes out of `eosio.vpay`,
and `eosio.vpay` for its blocks out of `eosio.bpay`. -/
theorem rewards_mixed :
    let claiming (producer maker : Name) : List (Call Int) :=
      [call producer 100 (.regproducer producer key [] 0),
        call eosio 101 (.onblock 1 maker),
        ⟨[producer], 100000000000, always 100000000, .claimrewards producer⟩]
    let s : State Int :=
      { activated with gstate := { activated.gstate with totalProducerVoteWeight := 1 } }
    let voted := run (step eosio) s (claiming BPAY_ACCOUNT dick)
    let produced := run (step eosio) activated (claiming VPAY_ACCOUNT VPAY_ACCOUNT)
    voted.balance BPAY_ACCOUNT EOS.code - s.balance BPAY_ACCOUNT EOS.code ≠
        voted.gstate.perblockBucket ∧
      produced.balance VPAY_ACCOUNT EOS.code - activated.balance VPAY_ACCOUNT EOS.code ≠
        produced.gstate.pervoteBucket := by
  decide +kernel

end

end DecentralBank.System
