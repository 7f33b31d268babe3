import DecentralBank.System.Proxies
import DecentralBank.System.Ram
import DecentralBank.System.Rewards
import DecentralBank.System.Staking

/-!
# What each action touches

An action takes tokens from few accounts and writes few of the tables. What it
leaves alone is said here once for each kind of action.
-/

namespace DecentralBank.System

open Checked Runs

variable {D : Type} {c : Ctx D} {s s' : State D} {e e' : Election D} {core : Symbol}

/-! ## Tokens -/

/-- No account but `payers` has less of any token, and tokens keep their symbols. -/
structure Spends (payers : List Name) (t t' : Token.State) : Prop where
  sound : Token.Conserved t'
  symbols : ∀ code st, t.stats.lookup code = some st →
    ∃ st', t'.stats.lookup code = some st' ∧ st'.supply.symbol = st.supply.symbol
  others : ∀ account, account ∉ payers → ∀ code,
    Token.balanceOf t.accounts account code ≤ Token.balanceOf t'.accounts account code

/-- From a sound ledger, only `payers` spend. -/
def Outgoing (payers : List Name) (t t' : Token.State) : Prop :=
  Token.Conserved t → Spends payers t t'

namespace Outgoing

variable {payers : List Name} {t t' t'' : Token.State}

theorem refl : Outgoing payers t t := fun sound =>
  ⟨sound, fun _ st found => ⟨st, found, rfl⟩, fun _ _ _ => le_refl _⟩

theorem trans (h : Outgoing payers t t') (g : Outgoing payers t' t'') : Outgoing payers t t'' := by
  intro sound
  have first := h sound
  have second := g first.sound
  refine ⟨second.sound, fun code st found => ?_, fun account other code => ?_⟩
  · obtain ⟨st', found', same⟩ := first.symbols code st found
    obtain ⟨st'', found'', same'⟩ := second.symbols code st' found'
    exact ⟨st'', found'', same'.trans same⟩
  · exact (first.others account other code).trans (second.others account other code)

theorem mono {more : List Name} (h : Outgoing payers t t') (sub : payers ⊆ more) :
    Outgoing more t t' := fun sound =>
  ⟨(h sound).sound, (h sound).symbols, fun account other code =>
    (h sound).others account (fun own => other (sub own)) code⟩

end Outgoing

theorem Paid.spends {source target : Name} {quantity : Asset} {token : Token.State}
    (paid : Paid s source target quantity token) : Spends [source] s.token token := by
  refine ⟨paid.sound, fun code st found => ⟨st, by rw [paid.stats, found], rfl⟩,
    fun account other code => ?_⟩
  have apart : account ≠ source := fun own => other (List.mem_singleton.mpr own)
  have moved := paid.moved account code
  have positive := paid.positive
  rw [if_neg fun own => apart own.1, add_zero] at moved
  rw [moved]
  simp only [State.balance]
  split
  · omega
  · omega

/-- A payment takes from nobody but the source. -/
theorem pay_outgoing {source target : Name} {quantity : Asset} {memo : String}
    (h : s.pay source target quantity memo = .ok s') :
    ∃ token, s' = { s with token } ∧ Outgoing [source] s.token token := by
  obtain ⟨token, moved, rfl⟩ := State.pay_ok h
  refine ⟨token, rfl, fun sound => ?_⟩
  obtain ⟨token', same, paid⟩ := State.pay_paid h sound
  cases same
  exact paid.spends

section

open Token

variable {k : Contract} {tc : Token.Ctx} {t t' : Token.State}

theorem transfer_outgoing {source target : Name} {quantity : Asset} {memo : List UInt8}
    (h : transfer k tc t source target quantity memo = .ok t') :
    Outgoing tc.auth t t' := by
  intro sound
  have signed : source ∈ tc.auth := by
    simp only [transfer, Token.Ctx.requireAuth_eq_ok, bind_eq_ok, require_eq_ok, exists_const] at h
    exact h.2.1
  obtain ⟨_, _, _, -, positive, -, -, -, -, same⟩ := transfer_ok h
  refine ⟨sound.transfer h, fun code st found => ⟨st, by rw [same, found], rfl⟩,
    fun account other code => ?_⟩
  have apart : account ≠ source := fun own => other (own ▸ signed)
  rw [balanceOf_transfer h account code, if_neg fun own => apart own.1, add_zero]
  split
  · omega
  · omega

theorem issue_outgoing {target : Name} {quantity : Asset} {memo : List UInt8}
    (h : issue k tc t target quantity memo = .ok t') :
    Outgoing tc.auth t t' := by
  intro sound
  obtain ⟨sound', positive, -, balances, -⟩ := issue_moves sound h
  refine ⟨sound', fun code st found => ?_, fun account _ code => ?_⟩
  · obtain ⟨st₀, minted, done, rest⟩ := issue_ok h
    obtain ⟨accounts, -, token, -, -, -, rfl⟩ := mint_ok done
    have kept : t'.stats = t.stats.insert quantity.symbol.code
        { st₀ with supply := ⟨st₀.supply.amount + quantity.amount, st₀.supply.symbol⟩ } := by
      rcases rest with ⟨-, rfl⟩ | ⟨-, sent⟩
      · rfl
      · obtain ⟨_, _, _, -, -, -, -, -, -, same⟩ := transfer_ok sent
        rw [same]
    rw [kept, Table.lookup_insert]
    split
    · rename_i here
      subst here
      cases token.symm.trans found
      exact ⟨_, rfl, rfl⟩
    · exact ⟨st, found, rfl⟩
  · rw [balances]
    split
    · omega
    · omega

theorem retire_outgoing {quantity : Asset} {memo : List UInt8}
    (h : EosioToken.retire tc t quantity memo = .ok t') : Outgoing tc.auth t t' := by
  intro sound
  have sound' := sound.retire h
  simp only [EosioToken.retire, Token.Ctx.requireAuth_eq_ok, bind_eq_ok, require_eq_ok, find_eq_ok,
    exists_const] at h
  obtain ⟨-, -, st, token, signed, -, positive, -, done⟩ := h
  obtain ⟨accounts, paid, rfl⟩ := destroy_ok done
  refine ⟨sound', fun code st' found => ?_, fun account other code => ?_⟩
  · simp only [Table.lookup_insert]
    split
    · rename_i here
      subst here
      cases token.symm.trans found
      exact ⟨_, rfl, rfl⟩
    · exact ⟨st', found, rfl⟩
  · have apart : account ≠ st.issuer := fun own => other (own ▸ signed)
    rw [balanceOf_sub paid, if_neg fun own => apart own.1, add_zero]

/-- An action of `eosio.token` takes from nobody who has not signed it. -/
theorem token_outgoing {action : EosioToken.Action}
    (h : EosioToken.apply tc t action = .ok t') : Outgoing tc.auth t t' := by
  intro sound
  have sound' := sound.eosioToken h
  cases action with
  | ledger action =>
    cases action with
    | create issuer maximumSupply =>
      obtain ⟨-, -, fresh, rfl⟩ := create_ok h
      refine ⟨sound', fun code st found => ⟨st, ?_, rfl⟩, fun _ _ _ => le_refl _⟩
      rw [Table.lookup_insert, if_neg, found]
      rintro rfl
      cases fresh.symm.trans found
    | issue target quantity memo => exact issue_outgoing h sound
    | transfer source target quantity memo => exact transfer_outgoing h sound
  | retire quantity memo => exact retire_outgoing h sound
  | openRow owner symbol ramPayer =>
    simp only [EosioToken.apply, EosioToken.openRow, Token.Ctx.requireAuth_eq_ok, bind_eq_ok,
      require_eq_ok, find_eq_ok, exists_const] at h
    obtain ⟨-, st, -, -, h⟩ := h
    cases found : t.accounts.lookup (owner, symbol.code) with
    | some balance =>
      simp only [found, pure_eq_ok] at h
      subst h
      exact Outgoing.refl sound
    | none =>
      simp only [found, bind_eq_ok, Asset.make_eq_ok, pure_eq_ok] at h
      obtain ⟨_, ⟨-, -, rfl⟩, rfl⟩ := h
      refine ⟨sound', fun code st' there => ⟨st', there, rfl⟩, fun account _ code => ?_⟩
      simp only [balanceOf, Ledger.held_insert]
      split
      · rename_i here
        rw [here, Ledger.held_none found]
      · exact le_refl _
  | close owner symbol =>
    simp only [EosioToken.apply, EosioToken.close, Token.Ctx.requireAuth_eq_ok, bind_eq_ok,
      require_eq_ok, find_eq_ok, pure_eq_ok, exists_const] at h
    obtain ⟨-, balance, found, none, rfl⟩ := h
    refine ⟨sound', fun code st there => ⟨st, there, rfl⟩, fun account _ code => ?_⟩
    simp only [balanceOf, Ledger.held_erase]
    split
    · rename_i here
      rw [here, Ledger.held_some found, none]
    · exact le_refl _

end

/-! ## Elections -/

/-- What the global state counts beside votes and blocks. -/
structure Holdings where
  maxRamSize : Nat
  totalRamBytesReserved : Nat
  totalRamStake : Int
  pervoteBucket : Int
  perblockBucket : Int

def GlobalState.holdings (g : GlobalState D) : Holdings :=
  ⟨g.maxRamSize, g.totalRamBytesReserved, g.totalRamStake, g.pervoteBucket, g.perblockBucket⟩

/-- Votes have changed, or producers, and nothing that is owed. Blocks are counted on if they are
`metered`. -/
structure Governs (metered : Prop) (e e' : Election D) : Prop where
  staked : ∀ u, stakedBy e' u = stakedBy e u
  holdings : e'.gstate.holdings = e.gstate.holdings
  size : e'.gstate.lastProducerScheduleSize = e.gstate.lastProducerScheduleSize
  counted : metered → Counted e → Counted e'
  revision : e.gstate2.revision ≤ e'.gstate2.revision

namespace Governs

variable {metered : Prop}

theorem refl (e : Election D) : Governs metered e e :=
  ⟨fun _ => rfl, rfl, rfl, fun _ => id, le_refl _⟩

theorem trans {e'' : Election D} (h : Governs metered e e') (g : Governs metered e' e'') :
    Governs metered e e'' :=
  ⟨fun u => (g.staked u).trans (h.staked u), g.holdings.trans h.holdings, g.size.trans h.size,
    fun meters counted => g.counted meters (h.counted meters counted), h.revision.trans g.revision⟩

/-- A voter's row is written with what it has staked. -/
theorem voter {k : Name} {v : VoterInfo D} (same : v.staked = stakedBy e k) :
    Governs metered e { e with voters := e.voters.insert k v } := by
  refine ⟨fun u => ?_, rfl, rfl, fun _ counted => ⟨counted.unpaid, counted.word⟩, le_refl _⟩
  rw [stakedBy, standing_insert, Function.update_apply]
  split
  · rename_i here
    rw [here, ← same]
    rfl
  · rfl

end Governs

variable {metered : Prop}

theorem stakedBy_some {k : Name} {v : VoterInfo D} (found : e.voters.lookup k = some v) :
    stakedBy e k = v.staked := by
  rw [stakedBy, Election.standing, found]
  rfl

theorem stakedBy_none {k : Name} (found : e.voters.lookup k = none) : stakedBy e k = 0 := by
  rw [stakedBy, Election.standing, found]
  rfl

theorem Counted.congr (counted : Counted e)
    (total : e'.gstate.totalUnpaidBlocks = e.gstate.totalUnpaidBlocks)
    (unpaid : ∀ k, (e'.producers.lookup k).map ProducerInfo.unpaidBlocks =
      (e.producers.lookup k).map ProducerInfo.unpaidBlocks) : Counted e' := by
  refine ⟨?_, total ▸ counted.word⟩
  rw [total, counted.unpaid, unpaidOf_congr unpaid]

theorem Reweighed.governs (metered : Prop) (h : Reweighed e e') : Governs metered e e' := by
  obtain ⟨_, _, _, gstate⟩ := h.gstate
  obtain ⟨_, gstate2⟩ := h.gstate2
  refine ⟨fun u => by rw [stakedBy, h.standing, stakedBy], ?_, ?_, fun _ counted => ?_, ?_⟩
  · simp only [gstate, GlobalState.holdings]
  · simp only [gstate]
  · exact counted.congr (by simp only [gstate]) h.unpaid
  · simp only [gstate2, le_refl]

theorem updateVotes_governs {voterName proxy : Name} {producers : List Name} {voting : Bool}
    (h : updateVotes c e voterName proxy producers voting = .ok e') : Governs metered e e' := by
  obtain ⟨_, settled, weight, -, reweighed, -, rfl⟩ := updateVotes_ok h
  refine (reweighed.governs metered).trans
    ⟨fun u => ?_, rfl, rfl, fun _ counted => ⟨counted.unpaid, counted.word⟩, le_refl _⟩
  simp only [stakedBy, Election.standing, Table.lookup_modify]
  split
  · cases settled.voters.lookup u with
    | none => rfl
    | some v => rfl
  · rfl

theorem regproxy_governs {proxy : Name} {isProxy : Bool}
    (h : regproxy c s proxy isProxy = .ok s') :
    ∃ e, s' = { s with toElection := e } ∧ Governs metered s.toElection e := by
  obtain ⟨e, rfl, ⟨found, rfl⟩ | ⟨voter, found, -, passed⟩⟩ := regproxy_ok h
  · exact ⟨_, rfl, .voter (stakedBy_none found).symm⟩
  · have written : Governs metered s.toElection
        { s.toElection with voters := s.voters.insert proxy { voter with isProxy } } :=
      .voter (stakedBy_some found).symm
    exact ⟨e, rfl, written.trans ((propagate_reweighed passed).governs metered)⟩

/-- Votes, producers and the revision. -/
def Action.governs : Action → Bool
  | .voteproducer .. | .regproxy .. | .regproducer .. | .unregprod .. | .rmvproducer ..
  | .updtrevision .. => true
  | _ => false

theorem apply_governs (metered : Prop) {a : Action} (governs : a.governs = true) (h : a.apply c s = .ok s') :
    ∃ e, s' = { s with toElection := e } ∧ Governs metered s.toElection e := by
  have deactivated {producer : Name} {p : ProducerInfo D}
      (found : s.producers.lookup producer = some p) (p' : ProducerInfo D)
      (same : p'.unpaidBlocks = p.unpaidBlocks) :
      Governs metered s.toElection
        { s.toElection with producers := s.producers.insert producer p' } :=
    ⟨fun _ => rfl, rfl, rfl, fun _ => (rewrite_unspent found p' same).counted, le_refl _⟩
  cases a <;> try cases governs
  case voteproducer voter proxy producers =>
    simp only [Action.apply, voteproducer, bind_eq_ok, pure_eq_ok] at h
    obtain ⟨-, -, e, voted, rfl⟩ := h
    exact ⟨e, rfl, updateVotes_governs voted⟩
  case regproxy proxy isProxy => exact regproxy_governs h
  case regproducer producer key url location =>
    have unspent := regproducer_unspent h
    obtain ⟨e, rfl, registers⟩ := regproducer_ok h
    cases registers with
    | new | again | late =>
      exact ⟨_, rfl, fun _ => rfl, rfl, rfl, fun _ => unspent.counted, le_refl _⟩
  case unregprod producer =>
    simp only [Action.apply, unregprod, bind_eq_ok, find_eq_ok, pure_eq_ok] at h
    obtain ⟨-, -, prod, found, rfl⟩ := h
    exact ⟨_, rfl, deactivated found _ rfl⟩
  case rmvproducer producer =>
    simp only [Action.apply, rmvproducer, bind_eq_ok, find_eq_ok, pure_eq_ok] at h
    obtain ⟨-, -, prod, found, rfl⟩ := h
    exact ⟨_, rfl, deactivated found _ rfl⟩
  case updtrevision revision =>
    simp only [Action.apply, updtrevision, bind_eq_ok, require_eq_ok, pure_eq_ok] at h
    obtain ⟨-, -, -, -, -, next, -, -, rfl⟩ := h
    exact ⟨_, rfl, fun _ => rfl, rfl, rfl, fun _ counted => ⟨counted.unpaid, counted.word⟩, by
      simp only [next]
      omega⟩

/-! ## Trade in RAM -/

/-- Trade in RAM and its supply write the market, the bytes of an account and what is counted of
RAM. -/
structure Trades (payers : List Name) (s s' : State D) : Prop where
  outgoing : Outgoing payers s.token s'.token
  market : s'.coreSymbol = s.coreSymbol
  usable : ∀ r, usableBy (·.netWeight) s'.userres r = usableBy (·.netWeight) s.userres r ∧
    usableBy (·.cpuWeight) s'.userres r = usableBy (·.cpuWeight) s.userres r
  rest : ∃ market userres gsize reserved stake rate last token, s' = { s with
    rammarket := market
    userres
    gstate := { s.gstate with
      maxRamSize := gsize, totalRamBytesReserved := reserved, totalRamStake := stake }
    gstate2 := { s.gstate2 with newRamPerBlock := rate, lastRamIncrease := last }
    token }

namespace Trades

variable {payers : List Name} {s'' : State D}

theorem refl : Trades payers s s :=
  ⟨.refl, rfl, fun _ => ⟨rfl, rfl⟩, _, _, _, _, _, _, _, _, rfl⟩

theorem trans (h : Trades payers s s') (g : Trades payers s' s'') : Trades payers s s'' := by
  refine ⟨h.outgoing.trans g.outgoing, g.market.trans h.market, fun r => ?_, ?_⟩
  · exact ⟨(g.usable r).1.trans (h.usable r).1, (g.usable r).2.trans (h.usable r).2⟩
  · obtain ⟨_, _, _, _, _, _, _, _, rfl⟩ := h.rest
    obtain ⟨_, _, _, _, _, _, _, _, rfl⟩ := g.rest
    exact ⟨_, _, _, _, _, _, _, _, rfl⟩

theorem pay {source target : Name} {quantity : Asset} {memo : String} (own : source ∈ payers)
    (h : s.pay source target quantity memo = .ok s') :
    Trades payers s s' := by
  obtain ⟨token, rfl, outgoing⟩ := pay_outgoing h
  refine ⟨outgoing.mono ?_, rfl, fun _ => ⟨rfl, rfl⟩, _, _, _, _, _, _, _, _, rfl⟩
  intro account mem
  exact List.mem_singleton.mp mem ▸ own

end Trades

theorem coreSymbol_market {m m' : ExchangeState D} (found : s.rammarket = some m)
    (same : m'.quote.balance.symbol = m.quote.balance.symbol) :
    State.coreSymbol { s with rammarket := some m' } = s.coreSymbol := by
  simp only [State.coreSymbol, found, same]

theorem updateRamSupply_trades {payers : List Name}
    (h : updateRamSupply c s = .ok s') : Trades payers s s' := by
  simp only [updateRamSupply, ite_eq_ok, bind_eq_ok, State.market_eq_ok, pure_eq_ok] at h
  obtain ⟨-, rfl⟩ | ⟨-, m, found, rfl⟩ := h
  · exact .refl
  · exact ⟨.refl, coreSymbol_market found rfl, fun _ => ⟨rfl, rfl⟩,
      _, _, _, _, _, _, _, _, rfl⟩

/-- A conversion keeps the symbol of the market's tokens. -/
theorem convert_quote {m m' : ExchangeState D} {input output : Asset} {target : Symbol}
    (h : convert c m input target = .ok (output, m')) :
    m'.quote.balance.symbol = m.quote.balance.symbol := by
  have rebalanced (m : ExchangeState D) (side : Side) (supply balance : Int) :
      (m.rebalance side supply balance).quote.balance.symbol = m.quote.balance.symbol := by
    cases side with
    | base => rfl
    | quote => rfl
  have once {m m' : ExchangeState D} {input output : Asset}
      (h : convertOnce c m input target = .ok (output, m')) :
      m'.quote.balance.symbol = m.quote.balance.symbol := by
    unfold convertOnce at h
    simp only [ite_eq_ok, reduceCtorEq, and_false, or_false] at h
    rcases h with ⟨-, ⟨-, h⟩ | ⟨-, -, h⟩⟩ | ⟨-, ⟨-, h⟩ | ⟨-, -, h⟩⟩
    · obtain ⟨-, rfl⟩ := convertToExchange_ok h
      exact rebalanced m _ _ _
    · obtain ⟨-, rfl⟩ := convertToExchange_ok h
      exact rebalanced m _ _ _
    · obtain ⟨-, -, rfl⟩ := convertFromExchange_ok h
      exact rebalanced m _ _ _
    · obtain ⟨-, -, rfl⟩ := convertFromExchange_ok h
      exact rebalanced m _ _ _
  simp only [convert, bind_eq_ok, ite_eq_ok, pure_eq_ok, Prod.exists, Prod.mk.injEq] at h
  obtain ⟨issued, n, first, ⟨-, second⟩ | ⟨-, -, rfl⟩⟩ := h
  · exact (once second).trans (once first)
  · exact once first

/-- A row with other bytes leaves what can be used. -/
theorem usableBy_bytes {userres : Table Name UserResources} {account : Name} {row : UserResources}
    (found : userres.lookup account = some row) (bytes : Int) (r : Name) :
    usableBy (·.netWeight) (userres.insert account { row with ramBytes := bytes }) r =
        usableBy (·.netWeight) userres r ∧
      usableBy (·.cpuWeight) (userres.insert account { row with ramBytes := bytes }) r =
        usableBy (·.cpuWeight) userres r := by
  simp only [usableBy, Ledger.held_insert]
  split
  · rename_i here
    rw [here, Ledger.held_some found, Ledger.held_some found]
    exact ⟨rfl, rfl⟩
  · exact ⟨rfl, rfl⟩

/-- A new row of nothing leaves what can be used. -/
theorem usableBy_nothing {userres : Table Name UserResources} {account : Name} {row : UserResources}
    (fresh : userres.lookup account = none) (net : row.netWeight.amount = 0)
    (cpu : row.cpuWeight.amount = 0) (r : Name) :
    usableBy (·.netWeight) (userres.insert account row) r = usableBy (·.netWeight) userres r ∧
      usableBy (·.cpuWeight) (userres.insert account row) r =
        usableBy (·.cpuWeight) userres r := by
  simp only [usableBy, Ledger.held_insert]
  split
  · rename_i here
    rw [here, Ledger.held_none fresh, Ledger.held_none fresh]
    exact ⟨net, cpu⟩
  · exact ⟨rfl, rfl⟩

theorem grantRam_usable {userres userres' : Table Name UserResources} {receiver : Name}
    {bytes : Int} (h : grantRam userres core receiver bytes = .ok userres') (r : Name) :
    usableBy (·.netWeight) userres' r = usableBy (·.netWeight) userres r ∧
      usableBy (·.cpuWeight) userres' r = usableBy (·.cpuWeight) userres r := by
  unfold grantRam at h
  cases found : userres.lookup receiver with
  | none =>
    simp only [found, bind_eq_ok, Asset.make_eq_ok, pure_eq_ok] at h
    obtain ⟨_, ⟨-, -, rfl⟩, rfl⟩ := h
    exact usableBy_nothing found rfl rfl r
  | some row =>
    simp only [found, pure_eq_ok] at h
    subst h
    exact usableBy_bytes found _ r

theorem buyram_trades {payer receiver : Name} {quant : Asset}
    (h : buyram c s payer receiver quant = .ok s') : Trades [payer] s s' := by
  simp only [buyram, bind_eq_ok, ite_eq_ok, State.market_eq_ok, pure_eq_ok, Prod.exists] at h
  obtain ⟨-, -, raised, supplied, symbol, -, -, -, -, -, paid, sent, charged, fee, m, found, output,
    m', converted, -, -, userres, granted, rfl⟩ := h
  have supply : Trades [payer] s raised := updateRamSupply_trades supplied
  have first : Trades [payer] raised paid :=
    .pay (List.mem_singleton_self _) sent
  have second : Trades [payer] paid charged := by
    rcases fee with ⟨-, fee⟩ | ⟨-, rfl⟩
    · exact .pay (List.mem_singleton_self _) fee
    · exact .refl
  refine ((supply.trans first).trans second).trans ⟨.refl,
    coreSymbol_market found (convert_quote converted), grantRam_usable granted,
    _, _, _, _, _, _, _, _, rfl⟩

theorem buyrambytes_trades {payer receiver : Name} {bytes : Nat}
    (h : buyrambytes c s payer receiver bytes = .ok s') :
    Trades [payer] s s' := by
  simp only [buyrambytes, bind_eq_ok, Prod.exists] at h
  obtain ⟨_, -, _, -, _, -, eosout, _, -, bought⟩ := h
  exact buyram_trades bought

theorem sellram_trades {account : Name} {bytes : Int}
    (h : sellram c s account bytes = .ok s') : Trades [RAM_ACCOUNT, account] s s' := by
  simp only [sellram, bind_eq_ok, ite_eq_ok, State.market_eq_ok, find_eq_ok, pure_eq_ok,
    Prod.exists] at h
  obtain ⟨-, -, raised, supplied, -, -, row, owned, -, -, m, found, symbol, -, input, -, output, m',
    converted, -, -, -, -, paid, sent, fee⟩ := h
  have supply : Trades [RAM_ACCOUNT, account] s raised := updateRamSupply_trades supplied
  have traded : Trades [RAM_ACCOUNT, account] raised { raised with
      rammarket := some m'
      userres := raised.userres.insert account { row with ramBytes := i64 (row.ramBytes - bytes) }
      gstate := { raised.gstate with
        totalRamBytesReserved := u64 ((raised.gstate.totalRamBytesReserved : Int) - bytes)
        totalRamStake := i64 (raised.gstate.totalRamStake - output.amount) } } :=
    ⟨.refl, coreSymbol_market found (convert_quote converted),
      usableBy_bytes owned _, _, _, _, _, _, _, _, _, rfl⟩
  have first := traded.trans (Trades.pay List.mem_cons_self sent)
  refine (supply.trans first).trans ?_
  rcases fee with ⟨-, _, -, fee⟩ | ⟨-, rfl⟩
  · exact .pay (List.mem_cons_of_mem _ List.mem_cons_self) fee
  · exact .refl

theorem setram_trades {size : Nat}
    (h : setram c s size = .ok s') : Trades [] s s' := by
  simp only [setram, bind_eq_ok, State.market_eq_ok, pure_eq_ok] at h
  obtain ⟨-, -, -, -, -, -, -, -, m, found, rfl⟩ := h
  exact ⟨.refl, coreSymbol_market found rfl, fun _ => ⟨rfl, rfl⟩, _, _, _, _, _, _, _, _, rfl⟩

theorem setramrate_trades {rate : Nat}
    (h : setramrate c s rate = .ok s') : Trades [] s s' := by
  simp only [setramrate, bind_eq_ok, pure_eq_ok] at h
  obtain ⟨-, -, raised, supplied, rfl⟩ := h
  have supply : Trades [] s raised := updateRamSupply_trades supplied
  exact supply.trans ⟨.refl, rfl, fun _ => ⟨rfl, rfl⟩,
    _, _, _, _, _, _, _, _, rfl⟩

/-! ## Stake -/

/-- A change of stake, or a refund, writes the tables of stake, the ledger and votes. -/
structure Stakes (payers : List Name) (s s' : State D) : Prop where
  outgoing : Outgoing payers s.token s'.token
  holdings : s'.gstate.holdings = s.gstate.holdings
  size : s'.gstate.lastProducerScheduleSize = s.gstate.lastProducerScheduleSize
  counted : Counted s.toElection → Counted s'.toElection
  revision : s.gstate2.revision ≤ s'.gstate2.revision
  rest : ∃ e delband userres refunds token, s' = { s with
    toElection := e, delband, userres, refunds, token }

theorem settleStake_moves {source owner : Name} {net cpu : Asset} {toSelf : Bool}
    (h : settleStake c s source owner net cpu toSelf = .ok s') :
    ∃ refunds token, s' = { s with refunds, token } ∧ Outgoing [source] s.token token := by
  obtain ⟨refunds, _, _, -, -, ⟨-, sent⟩ | ⟨-, rfl⟩⟩ := settleStake_ok h
  · obtain ⟨token, rfl, outgoing⟩ := pay_outgoing (s := { s with refunds }) sent
    exact ⟨refunds, token, rfl, outgoing⟩
  · exact ⟨refunds, s.token, rfl, .refl⟩

theorem changebw_stakes {source receiver : Name} {net cpu : Asset} {transfer : Bool}
    (h : changebw c s source receiver net cpu transfer = .ok s') :
    Stakes [source] s s' := by
  obtain ⟨delband, userres, paid, -, -, -, -, settled, voted⟩ := changebw_ok h
  obtain ⟨refunds, token, rfl, outgoing⟩ : ∃ refunds token,
      paid = { s with delband, userres, refunds, token } ∧ Outgoing [source] s.token token := by
    rcases settled with ⟨-, settled⟩ | ⟨-, rfl⟩
    · exact settleStake_moves (s := { s with delband, userres }) settled
    · exact ⟨s.refunds, s.token, rfl, .refl⟩
  obtain ⟨e, -, reweighed, rfl⟩ := updateVotingPower_ok voted
  have governs := reweighed.governs True
  refine ⟨outgoing, governs.holdings, governs.size, fun counted => governs.counted trivial ?_,
    governs.revision, _, _, _, _, _, rfl⟩
  exact ⟨counted.unpaid, counted.word⟩

theorem refund_stakes {owner : Name}
    (h : refund c s owner = .ok s') : Stakes [STAKE_ACCOUNT] s s' := by
  simp only [refund, bind_eq_ok, pure_eq_ok] at h
  obtain ⟨-, -, req, -, -, -, amount, -, paid, sent, rfl⟩ := h
  obtain ⟨token, rfl, outgoing⟩ := pay_outgoing sent
  exact ⟨outgoing, rfl, rfl, id, le_refl _, _, _, _, _, _, rfl⟩

/-! ## Claims -/

/-- A claim writes the ledger, the counters and vote pay. -/
structure Claims (payers : List Name) (s s' : State D) : Prop where
  outgoing : Outgoing payers s.token s'.token
  size : s'.gstate.lastProducerScheduleSize = s.gstate.lastProducerScheduleSize
  ram : s'.gstate.maxRamSize = s.gstate.maxRamSize ∧
    s'.gstate.totalRamBytesReserved = s.gstate.totalRamBytesReserved ∧
    s'.gstate.totalRamStake = s.gstate.totalRamStake
  rest : ∃ e token, s' = { s with toElection := e, token } ∧ e.voters = s.voters

theorem payCore_outgoing {source target : Name} {amount : Int} {memo : String}
    (h : s.payCore core source target amount memo = .ok s') :
    ∃ token, s' = { s with token } ∧ Outgoing [source] s.token token := by
  simp only [State.payCore, bind_eq_ok] at h
  obtain ⟨quantity, -, sent⟩ := h
  exact pay_outgoing sent

theorem payPositive_outgoing {source target : Name} {amount : Int} {memo : String}
    (h : (if 0 < amount then s.payCore core source target amount memo else pure s) = .ok s') :
    ∃ token, s' = { s with token } ∧ Outgoing [source] s.token token := by
  obtain ⟨-, sent⟩ | ⟨-, same⟩ := ite_eq_ok.mp h
  · exact payCore_outgoing sent
  · cases same
    exact ⟨s.token, rfl, .refl⟩

theorem fillBuckets_claims (h : fillBuckets c s = .ok s') : Claims [c.self] s s' := by
  simp only [fillBuckets, bind_eq_ok, ite_eq_ok, pure_eq_ok] at h
  obtain ⟨core, -, supply, -, ⟨-, issued, -, minted, issuing, saved, saving, blocks, blocked, votes,
    voted, rfl⟩ | ⟨-, rfl⟩⟩ := h
  · have first : Outgoing [c.self] s.token minted := issue_outgoing issuing
    obtain ⟨token₁, rfl, second⟩ := payCore_outgoing (s := { s with token := minted }) saving
    obtain ⟨token₂, rfl, third⟩ := payCore_outgoing blocked
    obtain ⟨token₃, rfl, fourth⟩ := payCore_outgoing voted
    refine ⟨((first.trans second).trans third).trans fourth, rfl, ⟨rfl, rfl, rfl⟩, _, _, rfl, rfl⟩
  · exact ⟨.refl, rfl, ⟨rfl, rfl, rfl⟩, _, _, rfl, rfl⟩

theorem settleClaim_voters (c : Ctx D) (e : Election D) (owner : Name) (prod : ProducerInfo D) :
    (settleClaim c e owner prod).2.2.voters = e.voters := by
  have paid (e : Election D) (share : D) (crossed : Bool) :
      (perVotePay c e prod share crossed).2.voters = e.voters := by
    unfold perVotePay
    simp only
    split
    · split
      · rfl
      · rfl
    · split
      · rfl
      · rfl
  unfold settleClaim
  cases e.producers2.lookup owner with
  | none => exact paid _ _ _
  | some prod2 => exact paid _ _ _

theorem claimrewards_claims {owner : Name}
    (h : claimrewards c s owner = .ok s') :
    Claims [c.self, BPAY_ACCOUNT, VPAY_ACCOUNT] s s' := by
  simp only [claimrewards, bind_eq_ok, find_eq_ok] at h
  obtain ⟨-, -, prod, -, -, -, -, -, -, -, filled, filling, core, -, blocked, blockPaid, votePaid⟩ :=
    h
  have funding := fillBuckets_claims filling
  obtain ⟨-, settled⟩ := settleClaim_ok c filled.toElection owner prod
  obtain ⟨token₁, rfl, first⟩ := payPositive_outgoing
    (s := { filled with toElection := (settleClaim c filled.toElection owner prod).2.2 })
    blockPaid
  obtain ⟨token₂, rfl, second⟩ := payPositive_outgoing votePaid
  have own : [c.self] ⊆ [c.self, BPAY_ACCOUNT, VPAY_ACCOUNT] := by simp
  have blocks : [BPAY_ACCOUNT] ⊆ [c.self, BPAY_ACCOUNT, VPAY_ACCOUNT] := by simp
  have votes : [VPAY_ACCOUNT] ⊆ [c.self, BPAY_ACCOUNT, VPAY_ACCOUNT] := by simp
  refine ⟨((funding.outgoing.mono own).trans (first.mono blocks)).trans (second.mono votes), ?_, ?_,
    ?_⟩
  · simp only [settled.gstate]
    exact funding.size
  · simp only [settled.gstate]
    exact funding.ram
  · obtain ⟨e, token, rfl, voters⟩ := funding.rest
    exact ⟨_, _, rfl, (settleClaim_voters _ _ _ _).trans voters⟩

/-! ## Accounts and blocks -/

theorem newaccount_ok {creator newact : Name} (h : newaccount c s creator newact = .ok s') :
    ∃ none namebids, s.userres.lookup newact = .none ∧ s.coreSymbol = .ok none.symbol ∧
      none.amount = 0 ∧ s' = { s with
      userres := s.userres.insert newact ⟨none, none, 0⟩
      accounts := newact :: s.accounts
      namebids } := by
  simp only [newaccount, claimName, bind_eq_ok, ite_eq_ok, require_eq_ok, Asset.make_eq_ok,
    Option.isNone_iff_eq_none, pure_eq_ok] at h
  obtain ⟨-, -, -, -, claimed, named, core, known, none, ⟨-, -, rfl⟩, -, fresh, rfl⟩ := h
  rcases named with ⟨-, ⟨-, current, -, -, -, -, -, rfl⟩ | ⟨-, -, -, rfl⟩⟩ | ⟨-, rfl⟩
  · have same : s.coreSymbol = .ok core := known
    exact ⟨_, _, fresh, same, rfl, rfl⟩
  · exact ⟨_, _, fresh, known, rfl, rfl⟩
  · exact ⟨_, _, fresh, known, rfl, rfl⟩

theorem onblock_governs {slot : Nat} {producer : Name}
    (fits : metered → (s.producers.lookup producer).isSome = true →
      (s.gstate.totalUnpaidBlocks : Int) + 1 < 2 ^ 32)
    (h : onblock c s slot producer = .ok s') :
    ∃ e namebids, s' = { s with toElection := e, namebids } ∧ Governs metered s.toElection e := by
  have counted : metered → Counted s.toElection → Counted s'.toElection :=
    fun meters => (onblock_unspent (fits meters) h).counted
  simp only [onblock, bind_eq_ok, ite_eq_ok, pure_eq_ok] at h
  obtain ⟨-, -, ⟨-, rfl⟩ | ⟨-, rfl⟩⟩ := h
  · exact ⟨_, _, rfl, fun _ => rfl, rfl, rfl, counted, le_refl _⟩
  · have minute (s : State D) : ∃ update close bids, everyMinute c s slot = { s with
        gstate := { s.gstate with
          lastProducerScheduleUpdate := update, lastNameClose := close }
        namebids := bids } := by
      obtain ⟨update, close, bids, -, same⟩ := everyMinute_ok (c := c) (s := s) slot
      exact ⟨update, close, bids, same⟩
    cases found : s.producers.lookup producer with
    | none =>
      simp only [countBlock, found] at counted ⊢
      obtain ⟨update, close, bids, same⟩ := minute _
      rw [same] at counted ⊢
      exact ⟨_, _, rfl, fun _ => rfl, rfl, rfl, counted, le_refl _⟩
    | some prod =>
      simp only [countBlock, found] at counted ⊢
      obtain ⟨update, close, bids, same⟩ := minute _
      rw [same] at counted ⊢
      exact ⟨_, _, rfl, fun _ => rfl, rfl, rfl, counted, le_refl _⟩

theorem bidname_moves {bidder newname : Name} {bid : Asset}
    (h : bidname c s bidder newname bid = .ok s') :
    ∃ token namebids bidrefunds, s' = { s with token, namebids, bidrefunds } ∧
      Outgoing [bidder] s.token token := by
  simp only [bidname, bind_eq_ok] at h
  obtain ⟨-, -, -, -, -, -, -, -, -, -, -, -, core, -, -, -, -, -, paid, sent, h⟩ := h
  obtain ⟨token, rfl, outgoing⟩ := pay_outgoing sent
  cases found : s.namebids.lookup newname with
  | none =>
    simp only [found, pure_eq_ok] at h
    exact ⟨_, _, _, h.symm, outgoing⟩
  | some current =>
    simp only [found, bind_eq_ok, pure_eq_ok] at h
    obtain ⟨-, -, -, -, -, -, -, -, refunds, -, rfl⟩ := h
    exact ⟨_, _, _, rfl, outgoing⟩

theorem bidrefund_moves {bidder newname : Name} (h : bidrefund s bidder newname = .ok s') :
    ∃ token bidrefunds, s' = { s with token, bidrefunds } ∧
      Outgoing [NAMES_ACCOUNT] s.token token := by
  simp only [bidrefund, bind_eq_ok, pure_eq_ok] at h
  obtain ⟨amount, -, paid, sent, rfl⟩ := h
  obtain ⟨token, rfl, outgoing⟩ := pay_outgoing sent
  exact ⟨_, _, rfl, outgoing⟩

/-- One account may be new. -/
theorem apply_accounts {a : Action} (h : a.apply c s = .ok s') :
    s'.accounts = s.accounts ∨
      ∃ creator newact, a = .newaccount creator newact ∧ s'.accounts = newact :: s.accounts := by
  have traded {payers : List Name} (trades : Trades payers s s') : s'.accounts = s.accounts := by
    obtain ⟨_, _, _, _, _, _, _, _, rfl⟩ := trades.rest
    rfl
  have staked {payers : List Name} (stakes : Stakes payers s s') : s'.accounts = s.accounts := by
    obtain ⟨_, _, _, _, _, rfl⟩ := stakes.rest
    rfl
  have governed (governs : a.governs = true) : s'.accounts = s.accounts := by
    obtain ⟨e, rfl, -⟩ := apply_governs True governs h
    rfl
  cases a with
  | newaccount creator newact =>
    obtain ⟨_, _, -, -, -, rfl⟩ := newaccount_ok h
    exact Or.inr ⟨creator, newact, rfl, rfl⟩
  | init version core =>
    simp only [Action.apply, System.init, bind_eq_ok, pure_eq_ok] at h
    obtain ⟨-, -, -, -, -, -, _, -, -, -, -, -, rfl⟩ := h
    exact Or.inl rfl
  | setram size => exact Or.inl (traded (setram_trades h))
  | setramrate rate => exact Or.inl (traded (setramrate_trades h))
  | buyrambytes payer receiver bytes => exact Or.inl (traded (buyrambytes_trades h))
  | buyram payer receiver quant => exact Or.inl (traded (buyram_trades h))
  | sellram account bytes => exact Or.inl (traded (sellram_trades h))
  | bidname bidder newname bid =>
    obtain ⟨_, _, _, rfl, -⟩ := bidname_moves h
    exact Or.inl rfl
  | bidrefund bidder newname =>
    obtain ⟨_, _, rfl, -⟩ := bidrefund_moves h
    exact Or.inl rfl
  | delegatebw source receiver net cpu transfer =>
    obtain ⟨-, -, -, -, -, -, changed⟩ := delegatebw_ok h
    exact Or.inl (staked (changebw_stakes changed))
  | undelegatebw source receiver net cpu =>
    obtain ⟨-, -, -, -, -, changed⟩ := undelegatebw_ok h
    exact Or.inl (staked (changebw_stakes changed))
  | refund owner => exact Or.inl (staked (refund_stakes h))
  | claimrewards owner =>
    obtain ⟨_, _, rfl, -⟩ := (claimrewards_claims h).rest
    exact Or.inl rfl
  | onblock slot producer =>
    obtain ⟨e, bids, -, -, rfl⟩ := onblock_ok h
    exact Or.inl rfl
  | rmvproducer | updtrevision | regproducer | unregprod | voteproducer | regproxy =>
    exact Or.inl (governed rfl)

/-- Accounts are not deleted. -/
theorem apply_grows {a : Action} (h : a.apply c s = .ok s') : s.accounts ⊆ s'.accounts := by
  rcases apply_accounts h with same | ⟨creator, newact, -, grown⟩
  · rw [same]
    exact List.Subset.refl _
  · rw [grown]
    exact List.subset_cons_self _ _

end DecentralBank.System
