import DecentralBank.System.Interleavings

/-!
# The contract can pay what it owes

Whatever is done in any order, by anyone but the accounts of the reserves:
`eosio.stake` has what is staked and to be refunded, `eosio.ram` what is staked
for RAM, `eosio.names` what is bid, and `eosio.bpay` and `eosio.vpay` what is in
the buckets.
-/

namespace DecentralBank.Token

theorem Rows.pair_le {stats : Table SymbolCode CurrencyStats} {a : Accounts}
    (hr : Rows stats a) {x y : Name} (apart : x ≠ y) (code : SymbolCode) :
    balanceOf a x code + balanceOf a y code ≤ circulating a code := by
  have rest : Rows stats (a.erase (x, code)) := Table.All.erase hr _
  have kept : balanceOf (a.erase (x, code)) y code = balanceOf a y code := by
    rw [balanceOf, Ledger.held_erase, if_neg fun same => apart (Prod.mk.inj same).1.symm]
  have part := rest.held_le y code
  rw [circulating_erase, if_pos rfl, kept] at part
  omega

end DecentralBank.Token

namespace DecentralBank.System

open Checked Runs

variable {D : Type} {self : Name} {fp : Doubles D} {c : Ctx D} {s s' : State D} {core : Symbol}
  {payers : List Name} {metered : Prop}

/-- The accounts that hold what the contract owes. -/
def RESERVES : List Name := [STAKE_ACCOUNT, NAMES_ACCOUNT, RAM_ACCOUNT, BPAY_ACCOUNT, VPAY_ACCOUNT]

def outsider (account : Name) : Bool := decide (account ∉ RESERVES)

/-! ## Buckets -/

/-- What is in the buckets is in the hands of `eosio.bpay` and `eosio.vpay`. -/
structure Bucketed (core : Symbol) (s : State D) : Prop where
  counted : Counted s.toElection
  revision : 0 < s.gstate2.revision
  perblock : 0 ≤ s.gstate.perblockBucket ∧
    s.gstate.perblockBucket ≤ s.balance BPAY_ACCOUNT core.code
  pervote : 0 ≤ s.gstate.pervoteBucket ∧ s.gstate.pervoteBucket ≤ s.balance VPAY_ACCOUNT core.code

theorem Funded.bucketed (hs : Funded core True 0 0 0 s) : Bucketed core s := by
  obtain ⟨votes, blocks, gotVotes, gotBlocks, blockFlow, voteFlow, -⟩ := hs.flows
  obtain ⟨revision, pervote⟩ := hs.pervote trivial
  exact ⟨hs.counted, revision, ⟨hs.perblock, by omega⟩, pervote, by omega⟩

/-- What was paid beside the buckets is part of what circulates. -/
theorem Bucketed.funded (hs : Bucketed core s) (market : s.coreSymbol = .ok core)
    (sound : Token.Conserved s.token) : Funded core True 0 0 0 s := by
  have apart : BPAY_ACCOUNT ≠ VPAY_ACCOUNT := by decide
  have supplied : s.balance BPAY_ACCOUNT core.code + s.balance VPAY_ACCOUNT core.code ≤
      s.supply core.code := by
    have both := sound.rows.pair_le apart core.code
    cases found : s.token.stats.lookup core.code with
    | some st =>
      rw [sound.sums _ _ found] at both
      rw [State.supply, Ledger.held_some found]
      exact both
    | none =>
      have nothing (account : Name) : s.balance account core.code = 0 := by
        refine Ledger.held_none ?_
        cases row : s.token.accounts.lookup (account, core.code) with
        | none => rfl
        | some balance =>
          obtain ⟨-, st, there, -⟩ := sound.rows _ _ row
          cases found.symm.trans there
      rw [nothing, nothing, State.supply, Ledger.held_none found]
      exact le_refl _
  obtain ⟨leastBlock, mostBlock⟩ := hs.perblock
  obtain ⟨leastVote, mostVote⟩ := hs.pervote
  refine ⟨market, sound, hs.counted, leastBlock, fun _ => ⟨hs.revision, leastVote⟩,
    s.balance BPAY_ACCOUNT core.code - s.gstate.perblockBucket,
    s.balance VPAY_ACCOUNT core.code - s.gstate.pervoteBucket, ?_, ?_, ?_, ?_, ?_⟩
  all_goals omega

/-! ## What is left alone -/

section

variable {t : State D} (spends : Spends payers s.token t.token) (market : t.coreSymbol = s.coreSymbol)

include spends market

theorem stake_aside (hs : ∃ spare, Backed core spare s) (outside : STAKE_ACCOUNT ∉ payers)
    (delband : t.delband = s.delband) (refunds : t.refunds = s.refunds)
    (staked : ∀ u, stakedBy t.toElection u = stakedBy s.toElection u)
    (usable : ∀ r, usableBy (·.netWeight) t.userres r = usableBy (·.netWeight) s.userres r ∧
      usableBy (·.cpuWeight) t.userres r = usableBy (·.cpuWeight) s.userres r) :
    ∃ spare, Backed core spare t := by
  obtain ⟨spare, hs⟩ := hs
  have kept := spends.others _ outside core.code
  have reserve := hs.reserve
  have nonneg := hs.nonneg
  refine ⟨spare + (t.balance STAKE_ACCOUNT core.code - s.balance STAKE_ACCOUNT core.code),
    market.trans hs.market, spends.sound, delband ▸ hs.bands, refunds ▸ hs.dues, fun u => ?_,
    fun r => ?_, fun r => ?_, ?_, ?_⟩
  · rw [staked, hs.staked, delband]
  · rw [(usable r).1, hs.net, delband]
  · rw [(usable r).2, hs.cpu, delband]
  · rw [delband, refunds]
    omega
  · simp only [State.balance]
    omega

theorem names_aside (hs : Fair core s)
    (bids : refundable s.bidrefunds + offered s.namebids ≤ s.balance NAMES_ACCOUNT core.code)
    (outside : NAMES_ACCOUNT ∉ payers) (namebids : t.namebids = s.namebids)
    (bidrefunds : t.bidrefunds = s.bidrefunds) (grown : s.accounts ⊆ t.accounts) :
    Fair core t ∧
      refundable t.bidrefunds + offered t.namebids ≤ t.balance NAMES_ACCOUNT core.code := by
  have payable {bidder : Name} (h : Payable core s.accounts s.token.stats bidder) :
      Payable core t.accounts t.token.stats bidder := by
    obtain ⟨st, found, symbol⟩ := h.dealt
    obtain ⟨st', found', same⟩ := spends.symbols _ _ found
    exact ⟨grown h.known, h.apart, h.valid, st', found', symbol.trans same.symm⟩
  refine ⟨⟨market.trans hs.market, spends.sound, ?_, ?_⟩, ?_⟩
  · rw [namebids]
    intro k b found
    obtain ⟨positive, range, can⟩ := hs.bids k b found
    exact ⟨positive, range, payable can⟩
  · rw [bidrefunds]
    intro k a found
    obtain ⟨symbol, positive, range, can⟩ := hs.refunds k a found
    exact ⟨symbol, positive, range, payable can⟩
  · rw [namebids, bidrefunds]
    exact bids.trans (spends.others _ outside core.code)

omit market in
theorem buckets_aside (hs : Bucketed core s) (blocks : BPAY_ACCOUNT ∉ payers)
    (votes : VPAY_ACCOUNT ∉ payers) (counted : Counted s.toElection → Counted t.toElection)
    (revision : s.gstate2.revision ≤ t.gstate2.revision)
    (perblock : t.gstate.perblockBucket = s.gstate.perblockBucket)
    (pervote : t.gstate.pervoteBucket = s.gstate.pervoteBucket) : Bucketed core t := by
  refine ⟨counted hs.counted, hs.revision.trans_le revision, ?_, ?_⟩
  · rw [perblock]
    exact ⟨hs.perblock.1, hs.perblock.2.trans (spends.others _ blocks core.code)⟩
  · rw [pervote]
    exact ⟨hs.pervote.1, hs.pervote.2.trans (spends.others _ votes core.code)⟩

omit market in
theorem ram_aside (hs : ∃ quote held, 0 ≤ held ∧ Accounted core quote held s)
    (outside : RAM_ACCOUNT ∉ payers) (market : t.rammarket = s.rammarket)
    (size : t.gstate.maxRamSize = s.gstate.maxRamSize)
    (reserved : t.gstate.totalRamBytesReserved = s.gstate.totalRamBytesReserved)
    (stake : t.gstate.totalRamStake = s.gstate.totalRamStake)
    (bytes : ramOf t.userres = ramOf s.userres) (refunds : t.refunds = s.refunds) :
    ∃ quote held, 0 ≤ held ∧ Accounted core quote held t := by
  obtain ⟨quote, held, nonneg, hs⟩ := hs
  obtain ⟨m, found, listed, offered, staked⟩ := hs.market
  have kept := spends.others _ outside core.code
  have balance := hs.balance
  refine ⟨quote, held + (t.balance RAM_ACCOUNT core.code - s.balance RAM_ACCOUNT core.code), ?_,
    spends.sound, ⟨m, market ▸ found, listed, ?_, ?_⟩, ?_, ?_, ?_, hs.price, ?_⟩
  · simp only [State.balance]
    omega
  · rw [size, reserved, offered]
  · rw [stake, staked]
  · rw [reserved, bytes, hs.reserved]
  · rw [stake]
    omega
  · rw [stake]
    exact hs.stake
  · rw [refunds]
    exact hs.refunds

end

/-! ## Solvency -/

/-- What the contract owes is in its reserves, and the tables that say so agree. So it is with
what producers have earned if pay is `metered`: what is counted fits, and pay for votes is clamped. -/
structure Solvent (core : Symbol) (metered : Prop) (s : State D) : Prop where
  stake : ∃ spare, Backed core spare s
  ram : ∃ quote held, 0 ≤ held ∧ Accounted core quote held s
  names : Fair core s
  bids : refundable s.bidrefunds + offered s.namebids ≤ s.balance NAMES_ACCOUNT core.code
  buckets : metered → Bucketed core s

namespace Solvent

theorem sound (hs : Solvent core metered s) : Token.Conserved s.token := hs.names.token

theorem market (hs : Solvent core metered s) : s.coreSymbol = .ok core := hs.names.market

/-- What is spent outside the reserves is not what they hold. -/
theorem reserves_apart (outside : ∀ r ∈ RESERVES, r ∉ payers) :
    STAKE_ACCOUNT ∉ payers ∧ NAMES_ACCOUNT ∉ payers ∧ RAM_ACCOUNT ∉ payers ∧
      BPAY_ACCOUNT ∉ payers ∧ VPAY_ACCOUNT ∉ payers :=
  ⟨outside _ (by decide), outside _ (by decide), outside _ (by decide), outside _ (by decide),
    outside _ (by decide)⟩

/-- Votes and blocks, and tokens spent outside the reserves. -/
theorem governs {e : Election D} {token : Token.State} (hs : Solvent core metered s)
    (governs : Governs metered s.toElection e) (outgoing : Outgoing payers s.token token)
    (outside : ∀ r ∈ RESERVES, r ∉ payers) :
    Solvent core metered { s with toElection := e, token } := by
  have spends := outgoing hs.sound
  obtain ⟨stakeApart, namesApart, ramApart, blocksApart, votesApart⟩ := reserves_apart outside
  obtain ⟨size, reserved, ramStake, pervote, perblock⟩ := Holdings.mk.inj governs.holdings
  have bids := names_aside (t := { s with toElection := e, token }) spends rfl hs.names hs.bids
    namesApart rfl rfl (List.Subset.refl _)
  refine ⟨?_, ?_, bids.1, bids.2, ?_⟩
  · exact stake_aside (t := { s with toElection := e, token }) spends rfl hs.stake stakeApart rfl rfl
      governs.staked fun _ => ⟨rfl, rfl⟩
  · exact ram_aside (t := { s with toElection := e, token }) spends hs.ram ramApart rfl size reserved
      ramStake rfl rfl
  · exact fun meters => buckets_aside (t := { s with toElection := e, token }) spends
      (hs.buckets meters) blocksApart votesApart (governs.counted meters) governs.revision perblock
      pervote

/-- Bids and their refunds, the end of auctions and new accounts. -/
theorem auction {a : Action} {e : Election D} {token : Token.State}
    {namebids : Table Name NameBid} {bidrefunds : Refunds} {userres : Table Name UserResources}
    {accounts : List Name} (hs : Solvent core metered s)
    (effect : Effect core s a
      { s with toElection := e, token, namebids, bidrefunds, userres, accounts })
    (governs : Governs metered s.toElection e) (outgoing : Outgoing payers s.token token)
    (outside : ∀ r ∈ RESERVES, r ≠ NAMES_ACCOUNT → r ∉ payers)
    (usable : ∀ r, usableBy (·.netWeight) userres r = usableBy (·.netWeight) s.userres r ∧
      usableBy (·.cpuWeight) userres r = usableBy (·.cpuWeight) s.userres r)
    (bytes : ramOf userres = ramOf s.userres) :
    Solvent core metered { s with toElection := e, token, namebids, bidrefunds, userres, accounts } := by
  have spends := outgoing hs.sound
  obtain ⟨size, reserved, ramStake, pervote, perblock⟩ := Holdings.mk.inj governs.holdings
  have moved := effect.reserve hs.names
  have won := claimed_nonneg s a
    { s with toElection := e, token, namebids, bidrefunds, userres, accounts }
  have bids := hs.bids
  refine ⟨?_, ?_, hs.names.effect effect, by omega, ?_⟩
  · exact stake_aside
      (t := { s with toElection := e, token, namebids, bidrefunds, userres, accounts })
      spends rfl hs.stake (outside _ (by decide) (by decide)) rfl rfl governs.staked usable
  · exact ram_aside
      (t := { s with toElection := e, token, namebids, bidrefunds, userres, accounts })
      spends hs.ram (outside _ (by decide) (by decide)) rfl size reserved ramStake bytes rfl
  · exact fun meters => buckets_aside
      (t := { s with toElection := e, token, namebids, bidrefunds, userres, accounts })
      spends (hs.buckets meters) (outside _ (by decide) (by decide))
      (outside _ (by decide) (by decide)) (governs.counted meters) governs.revision perblock pervote

theorem bidname {bidder newname : Name} {bid : Asset} (hs : Solvent core metered s)
    (known : ∀ account ∈ c.auth, account ∈ s.accounts) (outside : bidder ∉ RESERVES)
    (h : bidname c s bidder newname bid = .ok s') : Solvent core metered s' := by
  have effect := bidname_effect hs.market hs.sound known h
  obtain ⟨token, namebids, bidrefunds, rfl, outgoing⟩ := bidname_moves h
  refine hs.auction effect (.refl _) outgoing (fun r held _ => ?_) (fun _ => ⟨rfl, rfl⟩) rfl
  rw [List.mem_singleton]
  exact fun own => outside (own ▸ held)

theorem bidrefund {bidder newname : Name} (hs : Solvent core metered s)
    (h : bidrefund s bidder newname = .ok s') : Solvent core metered s' := by
  have effect : Effect core s (.bidrefund bidder newname) s' := bidrefund_effect hs.sound h
  obtain ⟨token, bidrefunds, rfl, outgoing⟩ := bidrefund_moves h
  refine hs.auction effect (.refl _) outgoing (fun r _ other => ?_) (fun _ => ⟨rfl, rfl⟩) rfl
  rw [List.mem_singleton]
  exact other

theorem onblock {slot : Nat} {producer : Name} (hs : Solvent core metered s)
    (fits : metered → (s.producers.lookup producer).isSome = true →
      (s.gstate.totalUnpaidBlocks : Int) + 1 < 2 ^ 32)
    (h : onblock c s slot producer = .ok s') : Solvent core metered s' := by
  have effect : Effect core s (.onblock slot producer) s' := onblock_effect h
  obtain ⟨e, namebids, rfl, governs⟩ := onblock_governs fits h
  exact hs.auction effect governs .refl (fun _ _ _ => List.not_mem_nil)
    (fun _ => ⟨rfl, rfl⟩) rfl

theorem newaccount {creator newact : Name} (hs : Solvent core metered s)
    (h : newaccount c s creator newact = .ok s') : Solvent core metered s' := by
  have effect : Effect core s (.newaccount creator newact) s' := newaccount_effect h
  obtain ⟨none, namebids, fresh, -, nothing, rfl⟩ := newaccount_ok h
  refine hs.auction effect (.refl _) .refl (fun _ _ _ => List.not_mem_nil)
    (usableBy_nothing fresh nothing nothing) ?_
  rw [ramOf, Table.total_insert, Table.weightAt_none fresh]
  simp only [sub_zero, add_zero, ramOf]

/-- Trade in RAM, which is settled with `eosio.ram`. -/
theorem trades (hs : Solvent core metered s) (trades : Trades payers s s')
    (outside : ∀ r ∈ RESERVES, r ≠ RAM_ACCOUNT → r ∉ payers)
    (accounted : ∀ quote held, 0 ≤ held → Accounted core quote held s →
      Accounted core quote held s') : Solvent core metered s' := by
  have spends := trades.outgoing hs.sound
  have market := trades.market
  have usable := trades.usable
  obtain ⟨quote, held, nonneg, ram⟩ := hs.ram
  have ram := accounted quote held nonneg ram
  obtain ⟨_, _, _, _, _, _, _, _, rfl⟩ := trades.rest
  have bids := names_aside spends market hs.names hs.bids (outside _ (by decide) (by decide)) rfl rfl
    (List.Subset.refl _)
  refine ⟨?_, ⟨quote, held, nonneg, ram⟩, bids.1, bids.2, ?_⟩
  · exact stake_aside spends market hs.stake (outside _ (by decide) (by decide)) rfl rfl
      (fun _ => rfl) usable
  · exact fun meters => buckets_aside spends (hs.buckets meters) (outside _ (by decide) (by decide))
      (outside _ (by decide) (by decide)) (fun counted => ⟨counted.unpaid, counted.word⟩) (le_refl _)
      rfl rfl

/-- Stake and its refunds, which are settled with `eosio.stake`. -/
theorem stakes (hs : Solvent core metered s) (stakes : Stakes payers s s')
    (outside : ∀ r ∈ RESERVES, r ≠ STAKE_ACCOUNT → r ∉ payers)
    (backed : ∀ spare, Backed core spare s → Backed core spare s')
    (accounted : ∀ quote held, Accounted core quote held s → Accounted core quote held s') :
    Solvent core metered s' := by
  have spends := stakes.outgoing hs.sound
  obtain ⟨size, reserved, ramStake, pervote, perblock⟩ := Holdings.mk.inj stakes.holdings
  have counted := stakes.counted
  have revision := stakes.revision
  obtain ⟨spare, stake⟩ := hs.stake
  obtain ⟨quote, held, nonneg, ram⟩ := hs.ram
  have stake := backed spare stake
  have ram := accounted quote held ram
  obtain ⟨_, _, _, _, _, rfl⟩ := stakes.rest
  have bids := names_aside spends rfl hs.names hs.bids (outside _ (by decide) (by decide)) rfl rfl
    (List.Subset.refl _)
  exact ⟨⟨spare, stake⟩, ⟨quote, held, nonneg, ram⟩, bids.1, bids.2,
    fun meters => buckets_aside spends (hs.buckets meters) (outside _ (by decide) (by decide))
      (outside _ (by decide) (by decide)) counted revision perblock pervote⟩

/-- Claims, which are settled with `eosio.bpay` and `eosio.vpay`. -/
theorem claimrewards {owner : Name} (hs : Solvent core metered s) (outside : c.self ∉ RESERVES)
    (fits : metered → claimFits c s owner = true) (h : claimrewards c s owner = .ok s') :
    Solvent core metered s' := by
  have claims := claimrewards_claims h
  have spends := claims.outgoing hs.sound
  have room : (0 : Int) ≤ 0 ∧ (0 : Int) ≤ 0 ∧ (0 : Int) ≤ Asset.maxAmount ∧ (0 : Int) ≤ 0 :=
    ⟨le_refl 0, le_refl 0, Asset.maxAmount_nonneg, le_refl 0⟩
  have funded (meters : metered) : Bucketed core s' :=
    (((hs.buckets meters).funded hs.market hs.sound).claimrewards room (fits meters) h).1.bucketed
  obtain ⟨size, reserved, ramStake⟩ := claims.ram
  obtain ⟨e, token, rfl, voters⟩ := claims.rest
  have apart {r : Name} (held : r ∈ RESERVES) (blocks : r ≠ BPAY_ACCOUNT) (votes : r ≠ VPAY_ACCOUNT) :
      r ∉ [c.self, BPAY_ACCOUNT, VPAY_ACCOUNT] := by
    simp only [List.mem_cons, List.not_mem_nil, or_false, not_or]
    exact ⟨fun own => outside (own ▸ held), blocks, votes⟩
  have bids := names_aside spends rfl hs.names hs.bids
    (apart (by decide) (by decide) (by decide)) rfl rfl (List.Subset.refl _)
  refine ⟨?_, ?_, bids.1, bids.2, funded⟩
  · refine stake_aside spends rfl hs.stake (apart (by decide) (by decide) (by decide)) rfl rfl
      (fun u => ?_) fun _ => ⟨rfl, rfl⟩
    simp only [stakedBy, Election.standing, voters]
  · exact ram_aside spends hs.ram (apart (by decide) (by decide) (by decide)) rfl size reserved
      ramStake rfl rfl

/-- Whoever pays has signed, or is the reserve that the action settles with. -/
theorem signs {payer reserve : Name} (outside : ∀ r ∈ RESERVES, r ∉ c.auth)
    (signed : payer ∈ c.auth) {r : Name} (held : r ∈ RESERVES) (other : r ≠ reserve) :
    r ∉ [reserve, payer] := by
  simp only [List.mem_cons, List.not_mem_nil, or_false, not_or]
  exact ⟨other, fun own => outside r held (own ▸ signed)⟩

theorem apply {a : Action} (hs : Solvent core metered s) (other : core ≠ RAM_SYMBOL)
    (apart : core ≠ RAMCORE_SYMBOL) (own : c.self ∉ RESERVES)
    (known : ∀ account ∈ c.auth, account ∈ s.accounts) (outside : ∀ r ∈ RESERVES, r ∉ c.auth)
    (fits : metered → (⟨c.auth, c.now, c.fp, a⟩ : Call D).fits c.self s = true)
    (h : a.apply c s = .ok s') : Solvent core metered s' := by
  have unsigned {payer : Name} (signed : payer ∈ c.auth) : payer ∉ RESERVES :=
    fun held => outside _ held signed
  have only {payer : Name} (signed : payer ∈ c.auth) (r : Name) (held : r ∈ RESERVES)
      (_ : r ≠ RAM_ACCOUNT) : r ∉ [payer] := by
    rw [List.mem_singleton]
    exact fun same => outside r held (same ▸ signed)
  have votes (governs : a.governs = true) : Solvent core metered s' := by
    obtain ⟨e, rfl, governed⟩ := apply_governs metered governs h
    exact hs.governs governed .refl fun _ _ => List.not_mem_nil
  have none (r : Name) (_ : r ∈ RESERVES) (_ : r ≠ RAM_ACCOUNT) : r ∉ ([] : List Name) :=
    List.not_mem_nil
  cases a with
  | init version symbol =>
    simp only [Action.apply, System.init, bind_eq_ok, require_eq_ok, Option.isNone_iff_eq_none] at h
    obtain ⟨-, -, -, -, -, unlisted, -⟩ := h
    obtain ⟨m, found, -⟩ := State.coreSymbol_eq_ok.mp hs.market
    cases unlisted.symm.trans found
  | newaccount creator newact => exact hs.newaccount h
  | setram size =>
    exact hs.trades (setram_trades h) none fun _ _ _ ram => ram.setram h
  | setramrate rate =>
    exact hs.trades (setramrate_trades h) none fun _ _ _ ram => ram.setramrate h
  | buyram payer receiver quant =>
    have signed : payer ∈ c.auth := by
      simp only [Action.apply, System.buyram, bind_eq_ok, Ctx.requireAuth_eq_ok] at h
      obtain ⟨-, signed, -⟩ := h
      exact signed
    exact hs.trades (buyram_trades h) (only signed) fun _ _ nonneg ram =>
      ram.buyram other apart nonneg h
  | buyrambytes payer receiver bytes =>
    have signed : payer ∈ c.auth := by
      simp only [Action.apply, System.buyrambytes, System.buyram, bind_eq_ok,
        Ctx.requireAuth_eq_ok] at h
      obtain ⟨-, -, -, -, -, -, -, -, -, signed, -⟩ := h
      exact signed
    exact hs.trades (buyrambytes_trades h) (only signed) fun _ _ nonneg ram =>
      ram.buyrambytes other apart nonneg h
  | sellram account bytes =>
    have signed : account ∈ c.auth := by
      simp only [Action.apply, System.sellram, bind_eq_ok, Ctx.requireAuth_eq_ok] at h
      obtain ⟨-, signed, -⟩ := h
      exact signed
    exact hs.trades (sellram_trades h) (fun r held other => signs outside signed held other)
      fun _ _ nonneg ram => ram.sellram other apart nonneg h
  | bidname bidder newname bid =>
    have signed : bidder ∈ c.auth := by
      simp only [Action.apply, System.bidname, bind_eq_ok, Ctx.requireAuth_eq_ok] at h
      obtain ⟨-, signed, -⟩ := h
      exact signed
    exact hs.bidname known (unsigned signed) h
  | bidrefund bidder newname => exact hs.bidrefund h
  | delegatebw source receiver net cpu transfer =>
    obtain ⟨core', same, symbol, -, -, -, changed⟩ := delegatebw_ok h
    cases hs.market.symm.trans same
    obtain ⟨-, -, -, signed, -⟩ := changebw_ok changed
    refine hs.stakes (changebw_stakes changed) (fun r held _ => ?_)
      (fun _ stake => stake.changebw ?_ symbol changed)
      fun _ _ ram => ram.changebw (Or.inl ?_) changed
    · rw [List.mem_singleton]
      exact fun same => outside r held (same ▸ signed)
    · exact fun same => outside _ (by decide) (same ▸ signed)
    · exact fun same => outside _ (by decide) (same ▸ signed)
  | undelegatebw source receiver net cpu =>
    obtain ⟨core', same, symbol, netStake, cpuStake, changed⟩ := undelegatebw_ok h
    cases hs.market.symm.trans same
    obtain ⟨-, -, -, signed, -⟩ := changebw_ok changed
    have negative : net.neg.symbol = core := symbol
    refine hs.stakes (changebw_stakes changed) (fun r held _ => ?_)
      (fun _ stake => stake.changebw ?_ negative changed)
      fun _ _ ram => ram.changebw (Or.inl ?_) changed
    · rw [List.mem_singleton]
      exact fun same => outside r held (same ▸ signed)
    · exact fun same => outside _ (by decide) (same ▸ signed)
    · exact fun same => outside _ (by decide) (same ▸ signed)
  | refund owner =>
    have signed : owner ∈ c.auth := by
      simp only [Action.apply, System.refund, bind_eq_ok, Ctx.requireAuth_eq_ok] at h
      obtain ⟨-, signed, -⟩ := h
      exact signed
    refine hs.stakes (refund_stakes h) (fun r _ apart => ?_) (fun _ stake => stake.refund h)
      fun _ _ ram => ram.refund (fun same => ?_) h
    · rw [List.mem_singleton]
      exact apart
    · exact outside _ (by decide) (same ▸ signed)
  | onblock slot producer =>
    refine hs.onblock (fun meters registered => ?_) h
    have word := fits meters
    simp only [Call.fits, Option.isNone_eq_false_iff.mpr registered, Bool.false_or,
      decide_eq_true_eq] at word
    exact word
  | claimrewards owner => exact hs.claimrewards own fits h
  | rmvproducer | updtrevision | regproducer | unregprod | voteproducer | regproxy =>
    exact votes rfl

/-- What is not counted in the global state may change. -/
theorem settings {gstate : GlobalState D} (hs : Solvent core metered s)
    (holdings : gstate.holdings = s.gstate.holdings)
    (unpaid : gstate.totalUnpaidBlocks = s.gstate.totalUnpaidBlocks) :
    Solvent core metered { s with gstate } := by
  obtain ⟨size, reserved, ramStake, pervote, perblock⟩ := Holdings.mk.inj holdings
  have spends : Spends [] s.token s.token := Outgoing.refl hs.sound
  have apart (r : Name) : r ∉ ([] : List Name) := List.not_mem_nil
  have bids := names_aside (t := { s with gstate }) spends rfl hs.names hs.bids (apart _) rfl rfl
    (List.Subset.refl _)
  refine ⟨?_, ?_, bids.1, bids.2, ?_⟩
  · exact stake_aside (t := { s with gstate }) spends rfl hs.stake (apart _) rfl rfl (fun _ => rfl)
      fun _ => ⟨rfl, rfl⟩
  · exact ram_aside (t := { s with gstate }) spends hs.ram (apart _) rfl size reserved ramStake rfl
      rfl
  · exact fun meters => buckets_aside (t := { s with gstate }) spends (hs.buckets meters) (apart _)
      (apart _) (fun counted => counted.congr unpaid fun _ => rfl) (le_refl _) perblock pervote

/-- Whatever moves the tables. -/
theorem moves {ok : State D → Call D → Bool} (hs : Solvent core metered s) (other : core ≠ RAM_SYMBOL)
    (apart : core ≠ RAMCORE_SYMBOL) (own : self ∉ RESERVES)
    (fits : metered → ∀ s call, ok s call = true → call.fits self s = true)
    (moved : Moves outsider ok self fp s s') : Solvent core metered s' := by
  have outside {auth : List Name} (signs : ∀ account ∈ auth, outsider account = true) :
      ∀ r ∈ RESERVES, r ∉ auth :=
    fun r held signed => of_decide_eq_true (signs r signed) held
  cases moved with
  | @act auth now a s' size known signs allowed done =>
    have hs : Solvent core metered s' :=
      hs.apply (c := ⟨self, auth, now, fp⟩) other apart own known (outside signs)
        (fun meters => fits meters _ _ allowed) done
    have kept : Solvent core metered (s'.resize size) := hs.settings rfl rfl
    exact kept
  | @params params =>
    have kept : Solvent core metered { s with
        gstate := { s.gstate with toBlockchainParameters := params } } := hs.settings rfl rfl
    exact kept
  | token signs done => exact hs.governs (.refl _) (token_outgoing done) (outside signs)
  | stay => exact hs

end Solvent

/-! ## Every run -/

/-- Nothing is staked, reserved, earned or bid. -/
structure Fresh (s : State D) : Prop where
  unstaked : Unstaked s
  unreserved : Unreserved s
  unfunded : Unfunded s
  unbid : s.namebids = ∅
  settled : s.bidrefunds = ∅

theorem Fresh.revise (fresh : Fresh s) (gstate2 : GlobalState2 D) : Fresh { s with gstate2 } :=
  ⟨⟨fresh.unstaked.delband, fresh.unstaked.refunds, fresh.unstaked.voters, fresh.unstaked.userres⟩,
    ⟨fresh.unreserved.token, fresh.unreserved.reserved, fresh.unreserved.stake,
      fresh.unreserved.userres, fresh.unreserved.refunds⟩,
    ⟨fresh.unfunded.total, fresh.unfunded.producers, fresh.unfunded.perblock,
      fresh.unfunded.pervote⟩,
    fresh.unbid, fresh.settled⟩

theorem Fresh.solvent {version : Nat} (fresh : Fresh s) (clamps : metered → 1 ≤ s.gstate2.revision)
    (h : init c s version core = .ok s') : Solvent core metered s' := by
  obtain ⟨m, listing, -, -, accounted⟩ := fresh.unreserved.init h
  have market := accounted.coreSymbol
  have held (account : Name) : 0 ≤ s'.balance account core.code :=
    accounted.token.rows.held account core.code
  simp only [System.init, bind_eq_ok, pure_eq_ok] at h
  obtain ⟨-, -, -, -, -, -, _, -, -, -, -, -, rfl⟩ := h
  have unstaked := fresh.unstaked
  have unfunded := fresh.unfunded
  have none : unpaidOf s.producers = 0 :=
    Table.total_zero fun k p found => by rw [unfunded.producers k p found]; rfl
  refine ⟨⟨_, Unstaked.backed ⟨unstaked.delband, unstaked.refunds, unstaked.voters,
    unstaked.userres⟩ market accounted.token⟩, ⟨_, _, held _, accounted⟩,
    ⟨market, accounted.token, ?_, ?_⟩, ?_,
    fun meters => ⟨⟨?_, ?_⟩, clamps meters, ⟨?_, ?_⟩, ⟨?_, ?_⟩⟩⟩
  · simp only [fresh.unbid]
    exact Table.All.empty _
  · simp only [fresh.settled]
    exact Table.All.empty _
  · simp only [fresh.unbid, fresh.settled]
    exact held NAMES_ACCOUNT
  · simp only [none, unfunded.total]
    rfl
  · simp only [unfunded.total]
    decide
  · exact unfunded.perblock.ge
  · simp only [unfunded.perblock]
    exact held BPAY_ACCOUNT
  · exact unfunded.pervote.ge
  · simp only [unfunded.pervote]
    exact held VPAY_ACCOUNT

/-- What is staked, staked for RAM and bid is in the reserves, and what accounts have staked and can
use is what was delegated. -/
structure Covered (core : Symbol) (s : State D) : Prop where
  stake : locked s.delband + pending s.refunds ≤ s.balance STAKE_ACCOUNT core.code
  ram : s.gstate.totalRamStake ≤ s.balance RAM_ACCOUNT core.code
  names : refundable s.bidrefunds + offered s.namebids ≤ s.balance NAMES_ACCOUNT core.code
  staked : ∀ u, stakedBy s.toElection u = delegatedBy s.delband u
  usable : ∀ r, usableBy (·.netWeight) s.userres r = delegatedTo (·.netWeight) s.delband r ∧
    usableBy (·.cpuWeight) s.userres r = delegatedTo (·.cpuWeight) s.delband r

theorem Solvent.covered (hs : Solvent core metered s) : Covered core s := by
  obtain ⟨spare, stake⟩ := hs.stake
  obtain ⟨quote, held, nonneg, ram⟩ := hs.ram
  have reserve := stake.reserve
  have balance := ram.balance
  have rest := stake.nonneg
  exact ⟨by omega, by omega, hs.bids, stake.staked, fun r => ⟨stake.net r, stake.cpu r⟩⟩

/-- A refund, which is not of votes or rewards, fits every word. -/
theorem fits_refunds {self : Name} (s : State D) (call : Call D)
    (refunds : call.action.refunds = true) : call.fits self s = true := by
  unfold Call.fits
  cases action : call.action <;> first | rfl | (rw [action] at refunds; cases refunds)

/-- Without an account of the reserves, what is staked and bid is there. So is what producers have
earned, when the revision was raised first, for as long as what is counted fits its words. -/
theorem reserves_cover (self : Name) (fp : Doubles D) (ch : Blockchain D) (known : self ∈ ch.accounts)
    (own : self ∉ RESERVES) (idle : ch.deferred = ∅) (s₀ : State D) (fresh : Fresh s₀)
    (version : Nat) (opened : init c s₀ version core = .ok ch.toState) (other : core ≠ RAM_SYMBOL)
    (apart : core ≠ RAMCORE_SYMBOL) (events : List Event)
    (outside : ∀ e ∈ events, e.signedBy outsider = true) :
    Covered core (run (Blockchain.step self fp) ch events).toState ∧
      (1 ≤ s₀.gstate2.revision →
        Along (Blockchain.step self fp)
          (fun ch e => e.allowed (fun s call => call.fits self s) fp ch = true) ch events →
        Bucketed core (run (Blockchain.step self fp) ch events).toState) := by
  have queued : Queued outsider self ch := .idle known (decide_eq_true own) idle
  constructor
  · have solvent := (moves_invariant (I := Solvent core False) (fun _ _ _ => rfl)
      (fun _ _ hs moved => hs.moves other apart own False.elim moved) queued
      (fresh.solvent False.elim opened) outside
      (along_mono (fun ch e _ => allowed_any fp ch e) (along_true ch events))).2
    exact solvent.covered
  · intro clamps fits
    have solvent := (moves_invariant (I := Solvent core True) fits_refunds
      (fun _ _ hs moved => hs.moves other apart own (fun _ _ _ fits => fits) moved) queued
      (fresh.solvent (fun _ => clamps) opened) outside fits).2
    exact solvent.buckets trivial

section

open Sample

theorem founded_fresh : Fresh founded :=
  ⟨⟨rfl, rfl, Table.All.empty _, Table.All.empty _⟩,
    ⟨ledger_conserved, rfl, rfl, Table.All.empty _, Table.All.empty _⟩,
    ⟨rfl, Table.All.empty _, rfl, rfl⟩, rfl, rfl⟩

/-- `founded`, in its first revision. -/
def revised : State Int := { founded with gstate2 := { founded.gstate2 with revision := 1 } }

theorem revised_fresh : Fresh revised := founded_fresh.revise _

/-- `nick` stakes, votes and takes stake back, `dick` and `nick` bid against each other, `dick` buys
RAM, produces a block and claims, and what is deferred is run. -/
def everything : List Event :=
  [signed nick 100 (.delegatebw nick rick (eos 1000) (eos 300) false),
    signed dick 101 (.regproducer dick key [] 0),
    signed nick 102 (.voteproducer nick NOBODY [dick]),
    signed dick 103 (.bidname dick com (eos 100)),
    signed nick 104 (.bidname nick com (eos 200)),
    .fire (bidrefundId com dick) 105000000,
    signed dick 106 (.buyram dick nick (eos 1000)),
    .token [rick] (.ledger (.transfer rick STAKE_ACCOUNT (eos 7) [])),
    signed nick 107 (.undelegatebw nick rick (eos 400) (eos 300)),
    signed eosio 108 (.onblock 216 dick),
    signed dick 100000 (.claimrewards dick),
    .fire (refundId nick) 300000000000]

theorem everything_covered :
    let t := run (Blockchain.step eosio (always 5000)) (blockchain (opening revised EOS)) everything
    locked t.delband + pending t.refunds = 600 ∧ 600 ≤ t.balance STAKE_ACCOUNT EOS.code ∧
      t.gstate.pervoteBucket = 750 ∧ 750 ≤ t.balance VPAY_ACCOUNT EOS.code := by
  intro t
  have opened :=
    opening_ok (show (perform eosio revised (call eosio 0 (.init 0 EOS))).isOk = true by
    decide +kernel)
  have cover := reserves_cover eosio (always 5000)
    (blockchain (opening revised EOS)) (by decide +kernel) (by decide) rfl revised revised_fresh 0
    opened (by decide) (by decide) everything (by decide +kernel)
  have covered : Covered EOS t.toState := cover.1
  have buckets : Bucketed EOS t.toState := cover.2 (by decide) (by decide +kernel)
  have locked : locked t.delband + pending t.refunds = 600 := by decide +kernel
  have bucket : t.gstate.pervoteBucket = 750 := by decide +kernel
  exact ⟨locked, locked.symm.trans_le covered.stake, bucket, bucket.symm.trans_le buckets.pervote.2⟩

end

end DecentralBank.System
