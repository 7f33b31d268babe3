import DecentralBank.Maker.Escrow
import DecentralBank.Maker.Registry

/-!
# The pending decision of a proposal

A proposal in session waits for one deferred `referended`. A decision that
aborts is dropped by the chain, so the proposal keeps one exactly as long as
every deferred decision finds what it needs.
-/

namespace DecentralBank.Maker

open Runs

/-- Under `id`, the decision on `T` that `proposer` asked for is pending. -/
def Awaits (s : State) (proposer : Name) (T : SymbolCode) (id : Nat) : Prop :=
  ∃ due, s.deferred.lookup id = some ⟨proposer, T, due⟩

/-- Each proposal in session has exactly one pending decision. -/
def Pending (s : State) : Prop :=
  s.props.All fun T prop => ∃! id, Awaits s prop.proposer T id

/-- The contract does not call `referended` by itself: the chain runs it. -/
def Event.undirected : Event → Bool
  | .act _ (.referended ..) => false
  | _ => true

/-- `u` can be paid back `amount`: with no IQ row, or a genuine one with room. -/
def Refundable (accounts : Accounts) (u : Name) (amount : Int) : Prop :=
  Asset.isAmountWithinRange amount = true ∧ ∀ iq ∈ accounts.lookup (IQ_SYMBOL.code, u),
    iq.label = (IQ_SYMBOL, IQ_NAME) ∧ Asset.isAmountWithinRange (iq.amount + amount) = true

instance (accounts : Accounts) (u : Name) (amount : Int) :
    Decidable (Refundable accounts u amount) := by
  unfold Refundable
  infer_instance

/-- What a decision must find: it is late enough on the 32-bit clock, a tie has
no other decision that its proposer sent in this second, and without a tie every
voter can be paid back. -/
def Ready (c : Ctx) (s : State) : Action → Prop
  | .referended proposer T => ∀ prop ∈ s.props.lookup T,
    prop.deadline ≤ c.now ∧
    (prop.yay.amount = prop.nay.amount → s.deferred.lookup (txid c proposer) = none) ∧
    (prop.yay.amount ≠ prop.nay.amount → ∀ row ∈ s.accounts.entries, row.1.1 = T →
      Refundable s.accounts row.1.2 row.2.amount)
  | _ => True

instance (c : Ctx) (s : State) : (a : Action) → Decidable (Ready c s a)
  | .referended .. => by
    unfold Ready
    infer_instance
  | .openCdp .. | .close .. | .shut .. | .lock .. | .bail .. | .draw .. | .wipe .. | .settle ..
  | .vote .. | .propose .. | .liquify .. | .upfeed .. | .withdraw .. | .deposit .. => isTrue trivial

/-! ## When the refund loop gets through -/

section Refunds

variable {a b : Accounts} {row : (_ : SymbolCode × Name) × Account}
  {rows : List ((_ : SymbolCode × Name) × Account)}

theorem refund_succeeds : (∃ b, refund a row = .ok b) ↔ Refundable a row.1.2 row.2.amount := by
  have iq : IQ_SYMBOL.isValid = true := by decide
  have range (n : Int) : Asset.isAmountWithinRange n = true ↔
      -Asset.maxAmount ≤ n ∧ n ≤ Asset.maxAmount := decide_eq_true_iff
  simp only [refund, Checked.bind_eq_ok, Asset.make_eq_ok, Checked.pure_eq_ok,
    Refundable, range, iq, true_and]
  constructor
  · rintro ⟨b, value, ⟨fits, rfl⟩, paid, credited, -⟩
    refine ⟨fits, fun old found => ?_⟩
    simp only [addBalance, Option.mem_def.mp found, Checked.bind_eq_ok, Checked.require_eq_ok,
      Asset.add_eq_ok, exists_const] at credited
    obtain ⟨tagged, _, ⟨same, low, high, -⟩, -⟩ := credited
    exact ⟨by rw [Account.label, tagged, ← same], low, high⟩
  · rintro ⟨fits, room⟩
    have credited : ∃ paid, addBalance a row.1.2 ⟨row.2.amount, IQ_SYMBOL⟩ IQ_NAME = .ok paid := by
      unfold addBalance
      cases found : a.lookup (IQ_SYMBOL.code, row.1.2) with
      | none => exact ⟨_, rfl⟩
      | some old =>
        obtain ⟨label, low, high⟩ := room old (Option.mem_def.mpr found)
        simp only [Account.label, Prod.mk.injEq] at label
        simp only [Checked.bind_eq_ok, Checked.require_eq_ok, Asset.add_eq_ok, Checked.pure_eq_ok,
          exists_const]
        exact ⟨_, label.2, _, ⟨label.1.symm, low, high, rfl⟩, rfl⟩
    obtain ⟨paid, credited⟩ := credited
    exact ⟨_, _, ⟨fits, rfl⟩, paid, credited, rfl⟩

/-- A turn of the loop leaves what others can be paid. -/
theorem Refundable.after_refund (h : refund a row = .ok b) {u : Name} (other : row.1.2 ≠ u)
    (amount : Int) : Refundable b u amount ↔ Refundable a u amount := by
  have same : b.lookup (IQ_SYMBOL.code, u) = a.lookup (IQ_SYMBOL.code, u) := by
    rw [refund_lookup h fun e => other (congrArg Prod.snd e).symm,
      if_neg fun e => other (congrArg Prod.snd e).symm]
  rw [Refundable, Refundable, same]

theorem refunds_succeed (distinct : rows.Pairwise fun r r' => r.1.2 ≠ r'.1.2) :
    (∃ b, rows.foldlM refund a = .ok b) ↔ ∀ row ∈ rows, Refundable a row.1.2 row.2.amount := by
  induction rows generalizing a with
  | nil => exact ⟨fun _ => nofun, fun _ => ⟨a, rfl⟩⟩
  | cons row rows ih =>
    obtain ⟨apart, rest⟩ := List.pairwise_cons.mp distinct
    simp only [List.foldlM_cons, Checked.bind_eq_ok, List.forall_mem_cons, ← refund_succeeds]
    constructor
    · rintro ⟨b, a₁, first, later⟩
      refine ⟨⟨a₁, first⟩, fun r hr => ?_⟩
      exact refund_succeeds.mpr ((Refundable.after_refund first (apart r hr) _).mp
        ((ih rest).mp ⟨b, later⟩ r hr))
    · rintro ⟨⟨a₁, first⟩, payable⟩
      obtain ⟨b, later⟩ := (ih (a := a₁) rest).mpr fun r hr =>
        (Refundable.after_refund first (apart r hr) _).mpr (refund_succeeds.mp (payable r hr))
      exact ⟨b, a₁, first, later⟩

/-- The rows of one scope are of distinct owners. -/
theorem scope_owners (a : Accounts) (T : SymbolCode) :
    (a.entries.filter fun row => row.1.1 = T).Pairwise fun r r' => r.1.2 ≠ r'.1.2 := by
  have keys := (List.nodupKeys_iff_pairwise.mp a.nodupKeys).filter fun row => row.1.1 = T
  refine keys.imp_of_mem fun {r r'} hr hr' apart same => apart ?_
  exact Prod.ext ((mem_scope_code hr).trans (mem_scope_code hr').symm) same

theorem refundVotes_succeeds {T : SymbolCode} : (∃ b, refundVotes a T = .ok b) ↔
    ∀ row ∈ a.entries, row.1.1 = T → Refundable a row.1.2 row.2.amount := by
  rw [refundVotes, refunds_succeed (scope_owners a T)]
  simp only [List.mem_filter, decide_eq_true_eq, and_imp]

end Refunds

/-! ## Proposals and their decisions -/

/-- Each proposal in session can be decided and waits for one decision, but for
the one whose decision is `called`; no other decision is pending. -/
structure Docket (own : Name) (called : Option SymbolCode) (s : State) : Prop where
  valid : ∀ T prop, s.props.lookup T = some prop →
    T.isValid = true ∧ prop.yay.symbol = prop.nay.symbol
  filed : ∀ T prop, s.props.lookup T = some prop →
    (s.stats.lookup (prop.proposer, T)).isSome = true ∨ (s.stats.lookup (own, T)).isSome = true
  awaited : ∀ T prop, s.props.lookup T = some prop → called ≠ some T →
    ∃ id, Awaits s prop.proposer T id
  session : ∀ id tx, s.deferred.lookup id = some tx →
    ∃ prop, s.props.lookup tx.symbl = some prop ∧ prop.proposer = tx.proposer
  idle : ∀ id tx, s.deferred.lookup id = some tx → called ≠ some tx.symbl
  single : ∀ i j tx tx', s.deferred.lookup i = some tx → s.deferred.lookup j = some tx' →
    tx.symbl = tx'.symbl → i = j

theorem Docket.empty (own : Name) : Docket own none State.empty where
  valid T prop h := by cases h
  filed T prop h := by cases h
  awaited T prop h := by cases h
  session id tx h := by cases h
  idle id tx h := by cases h
  single i j tx tx' h := by cases h

variable {own : Name} {c : Ctx} {s s' : State} {a : Action} {T : SymbolCode}

theorem Docket.pending (hd : Docket own none s) : Pending s := by
  intro T prop session
  obtain ⟨id, due, found⟩ := hd.awaited T prop session nofun
  refine ⟨id, ⟨due, found⟩, ?_⟩
  rintro j ⟨due', found'⟩
  exact hd.single j id _ _ found' found rfl

theorem propose_valid {proposer : Name} {T : SymbolCode} {t : Terms}
    (h : propose c s proposer T t = .ok s') : T.isValid = true := by
  simp only [propose, Ctx.requireAuth_eq_ok, Checked.bind_eq_ok, Checked.require_eq_ok,
    exists_const] at h
  exact h.2.1

theorem countVote_proposer {prop counted : Proposal} {against : Bool} {quantity : Asset}
    (h : countVote prop against quantity = .ok counted) : counted.proposer = prop.proposer := by
  simp only [countVote, Checked.ite_eq_ok, Checked.bind_eq_ok, Checked.pure_eq_ok] at h
  obtain ⟨-, _, -, rfl⟩ | ⟨-, _, -, rfl⟩ := h
  · rfl
  · rfl

/-- Filing a proposal leaves a row to decide on: the draft or the type. -/
theorem propose_filed {proposer : Name} {T : SymbolCode} {t : Terms}
    (h : propose c s proposer T t = .ok s') :
    (s'.stats.lookup (proposer, T)).isSome = true ∨
      (s'.stats.lookup (c.self, T)).isSome = true := by
  obtain ⟨stats, -, -, -, -, -, filed, -, rfl⟩ := propose_ok h
  rcases fileTerms_ok filed with ⟨-, -, rfl, st, type, -⟩ | ⟨-, rfl⟩
  · exact Or.inr (by rw [type]; rfl)
  · exact Or.inl (by rw [AList.lookup_insert]; rfl)

theorem Docket.ungoverned (hd : Docket c.self none s) (h : Maker.apply c s a = .ok s')
    (governs : a.governs = false) : Docket c.self none s' := by
  obtain ⟨props, queue⟩ := (apply_frame h).2 governs
  have stays {k : Name × SymbolCode} (found : (s.stats.lookup k).isSome = true) :
      (s'.stats.lookup k).isSome = true := by
    rcases stat_stays h found with stands | ⟨_, rfl⟩
    · exact stands
    · cases governs
  constructor
  · rw [props]
    exact hd.valid
  · intro T prop session
    rw [props] at session
    exact (hd.filed T prop session).imp stays stays
  · simp only [Awaits, queue, props]
    exact hd.awaited
  · rw [props, queue]
    exact hd.session
  · rw [queue]
    exact hd.idle
  · rw [queue]
    exact hd.single

section Queue

variable {T : SymbolCode} {id : Nat}

/-- The chain takes a decision off the queue. -/
theorem Docket.call (hd : Docket own none s) {tx : Deferred}
    (found : s.deferred.lookup id = some tx) :
    Docket own (some tx.symbl) { s with deferred := s.deferred.erase id } := by
  constructor
  · exact hd.valid
  · exact hd.filed
  · intro k prop session other
    obtain ⟨j, due, found'⟩ := hd.awaited k prop session nofun
    refine ⟨j, due, ?_⟩
    rw [Table.lookup_erase, if_neg]
    · exact found'
    · rintro rfl
      cases found.symm.trans found'
      exact other rfl
  · intro j tx' h
    exact hd.session j tx' (Table.of_lookup_erase h).2
  · intro j tx' h same
    obtain ⟨other, found'⟩ := Table.of_lookup_erase h
    exact other (hd.single j id tx' tx found' found (Option.some.inj same).symm)
  · intro i j tx₁ tx₂ hi hj
    exact hd.single i j tx₁ tx₂ (Table.of_lookup_erase hi).2 (Table.of_lookup_erase hj).2

/-- A decision is sent for the proposal that waits for none. -/
theorem Docket.send (hd : Docket own (some T) s) {prop : Proposal}
    (session : s.props.lookup T = some prop) (unsent : s.deferred.lookup id = none) (due : Nat) :
    Docket own none { s with deferred := s.deferred.insert id ⟨prop.proposer, T, due⟩ } := by
  constructor
  · exact hd.valid
  · exact hd.filed
  · intro k prop' session' _
    by_cases same : k = T
    · rw [same, session] at session'
      cases session'
      exact ⟨id, due, by rw [same, AList.lookup_insert]⟩
    · obtain ⟨j, due', found⟩ := hd.awaited k prop' session' fun e => same (Option.some.inj e).symm
      refine ⟨j, due', ?_⟩
      rw [Table.lookup_insert, if_neg]
      · exact found
      · rintro rfl
        cases unsent.symm.trans found
  · intro j tx found
    obtain ⟨-, rfl⟩ | ⟨-, old⟩ := Table.of_lookup_insert found
    · exact ⟨prop, session, rfl⟩
    · exact hd.session j tx old
  · intro _ _ _
    exact nofun
  · intro i j tx tx' hi hj same
    obtain ⟨rfl, rfl⟩ | ⟨-, oldi⟩ := Table.of_lookup_insert hi
    · obtain ⟨rfl, -⟩ | ⟨-, oldj⟩ := Table.of_lookup_insert hj
      · rfl
      · exact absurd (congrArg some same) (hd.idle j tx' oldj)
    · obtain ⟨-, rfl⟩ | ⟨-, oldj⟩ := Table.of_lookup_insert hj
      · exact absurd (congrArg some same.symm) (hd.idle i tx oldi)
      · exact hd.single i j tx tx' oldi oldj same

/-- A proposal is closed. -/
theorem Docket.close (hd : Docket own (some T) s) {accounts : Accounts}
    {stats : Table (Name × SymbolCode) Stat}
    (stays : ∀ k : Name × SymbolCode, k.2 ≠ T → stats.lookup k = s.stats.lookup k) :
    Docket own none { s with accounts, stats, props := s.props.erase T } := by
  constructor
  · intro k prop h
    exact hd.valid k prop (Table.of_lookup_erase h).2
  · intro k prop h
    obtain ⟨other, session⟩ := Table.of_lookup_erase h
    simp only [stays (_, k) other]
    exact hd.filed k prop session
  · intro k prop h _
    obtain ⟨other, session⟩ := Table.of_lookup_erase h
    exact hd.awaited k prop session fun e => other (Option.some.inj e).symm
  · intro id tx found
    obtain ⟨prop, session, same⟩ := hd.session id tx found
    refine ⟨prop, ?_, same⟩
    rw [Table.lookup_erase, if_neg]
    · exact session
    · intro e
      exact hd.idle id tx found (congrArg some e.symm)
  · intro _ _ _
    exact nofun
  · exact hd.single

end Queue

theorem Docket.proposed (hd : Docket c.self none s) {proposer : Name} {T : SymbolCode} {t : Terms}
    (h : propose c s proposer T t = .ok s') : Docket c.self none s' := by
  have applied : Maker.apply c s (.propose proposer T t) = .ok s' := h
  have stays {k : Name × SymbolCode} (found : (s.stats.lookup k).isSome = true) :
      (s'.stats.lookup k).isSome = true := by
    rcases stat_stays applied found with stands | ⟨_, governs⟩
    · exact stands
    · cases governs
  have valid := propose_valid h
  have filed := propose_filed h
  obtain ⟨stats, -, free, -, -, -, -, unsent, rfl⟩ := propose_ok h
  have tabled : Docket c.self (some T) { s with
      stats
      props := s.props.insert T
        ⟨u32 (c.now + VOTE_PERIOD), proposer, ⟨0, IQ_SYMBOL⟩, ⟨0, IQ_SYMBOL⟩⟩ } := by
    constructor
    · exact Table.All.insert hd.valid ⟨valid, rfl⟩
    · refine Table.All.insert (fun k prop session => ?_) filed
      exact (hd.filed k prop session).imp stays stays
    · intro k prop session other
      rw [Table.lookup_insert, if_neg fun e => other (congrArg some e.symm)] at session
      exact hd.awaited k prop session nofun
    · intro id tx found
      obtain ⟨prop, session, same⟩ := hd.session id tx found
      refine ⟨prop, ?_, same⟩
      rw [Table.lookup_insert, if_neg]
      · exact session
      · intro e
        rw [e, free] at session
        cases session
    · rintro id tx found ⟨⟩
      obtain ⟨_, session, -⟩ := hd.session id tx found
      cases free.symm.trans session
    · exact hd.single
  exact tabled.send (AList.lookup_insert _) unsent _

theorem Docket.voted (hd : Docket own none s) {voter : Name} {T : SymbolCode} {against : Bool}
    {quantity : Asset} (h : vote c s voter T against quantity = .ok s') : Docket own none s' := by
  obtain ⟨prop, _, _, _, counted, -, -, -, session, -, -, count, rfl⟩ := vote_ok h
  have proposer := countVote_proposer count
  obtain ⟨-, yay, nay⟩ := countVote_ok count
  have earlier (k : SymbolCode) (p : Proposal)
      (found : (s.props.insert T counted).lookup k = some p) :
      ∃ q, s.props.lookup k = some q ∧ p.proposer = q.proposer ∧ p.yay.symbol = q.yay.symbol ∧
        p.nay.symbol = q.nay.symbol := by
    obtain ⟨rfl, rfl⟩ | ⟨-, old⟩ := Table.of_lookup_insert found
    · exact ⟨prop, session, proposer, yay, nay⟩
    · exact ⟨p, old, rfl, rfl, rfl⟩
  constructor
  · intro k p found
    obtain ⟨q, session', -, yay, nay⟩ := earlier k p found
    rw [yay, nay]
    exact hd.valid k q session'
  · intro k p found
    obtain ⟨q, session', proposer, -⟩ := earlier k p found
    rw [proposer]
    exact hd.filed k q session'
  · intro k p found
    obtain ⟨q, session', proposer, -⟩ := earlier k p found
    rw [proposer]
    exact hd.awaited k q session'
  · intro id tx found
    obtain ⟨q, session', same⟩ := hd.session id tx found
    simp only [Table.lookup_insert]
    split
    · rename_i e
      rw [e, session] at session'
      cases session'
      exact ⟨counted, rfl, proposer.trans same⟩
    · exact ⟨q, session', same⟩
  · exact hd.idle
  · exact hd.single

/-- A decision that succeeds sends the next one or closes the proposal. -/
theorem Docket.decided (hd : Docket c.self (some T) s) {prop : Proposal}
    (session : s.props.lookup T = some prop)
    (h : referended c s prop.proposer T = .ok s') : Docket c.self none s' := by
  obtain ⟨-, _, -, -, ⟨-, unsent, rfl⟩ | ⟨stats, _, -, result, -, rfl⟩⟩ := referended_ok h
  · exact hd.send session unsent _
  · exact hd.close fun k other => decided_elsewhere result rfl other

/-- A pending decision succeeds exactly when it finds what it needs. -/
theorem Docket.ready_iff {called : Option SymbolCode} (hd : Docket c.self called s)
    (auth : c.self ∈ c.auth) {prop : Proposal} (session : s.props.lookup T = some prop) :
    (∃ s', referended c s prop.proposer T = .ok s') ↔
      Ready c s (.referended prop.proposer T) := by
  constructor
  · rintro ⟨s', h⟩ prop' session'
    cases session.symm.trans (Option.mem_def.mp session')
    obtain ⟨-, prop', session', late, next⟩ := referended_ok h
    cases session.symm.trans session'
    obtain ⟨tie, unsent, -⟩ | ⟨_, _, split, -, refunded, -⟩ := next
    · exact ⟨late, fun _ => unsent, fun split => absurd tie split⟩
    · exact ⟨late, fun tie => absurd tie split,
        fun _ => refundVotes_succeeds.mp ⟨_, refunded⟩⟩
  · intro ready
    obtain ⟨late, unsent, refundable⟩ := ready prop (Option.mem_def.mpr session)
    obtain ⟨valid, same⟩ := hd.valid T prop session
    have enacted : ∃ stats, enact c s.stats T (s.stats.lookup (prop.proposer, T)) = .ok stats := by
      unfold enact
      cases draft : s.stats.lookup (prop.proposer, T) with
      | some p => cases s.stats.lookup (c.self, T) <;> exact ⟨_, rfl⟩
      | none =>
        cases type : s.stats.lookup (c.self, T) with
        | some st => exact ⟨_, rfl⟩
        | none =>
          rcases hd.filed T prop session with filed | filed
          · rw [draft] at filed
            cases filed
          · rw [type] at filed
            cases filed
    simp only [referended, Ctx.requireAuth_eq_ok, Checked.bind_eq_ok, Checked.require_eq_ok,
      Checked.find_eq_ok, Asset.eq_eq_ok, Asset.gt_eq_ok, Checked.ite_eq_ok, outcome, schedule,
      Checked.pure_eq_ok, exists_const]
    by_cases tie : prop.yay.amount = prop.nay.amount
    · exact ⟨_, auth, valid, prop, session, late, true, ⟨same, decide_eq_true tie⟩,
        Or.inl ⟨rfl, by rw [unsent tie]; rfl, rfl⟩⟩
    · obtain ⟨accounts, refunded⟩ := refundVotes_succeeds.mpr (refundable tie)
      obtain ⟨stats, enacted⟩ := enacted
      by_cases passed : prop.nay.amount < prop.yay.amount
      · exact ⟨_, auth, valid, prop, session, late, false, ⟨same, decide_eq_false tie⟩,
          Or.inr ⟨Bool.false_ne_true, true, ⟨same, decide_eq_true passed⟩, stats,
            Or.inl ⟨rfl, enacted⟩, accounts, refunded, rfl⟩⟩
      · exact ⟨_, auth, valid, prop, session, late, false, ⟨same, decide_eq_false tie⟩,
          Or.inr ⟨Bool.false_ne_true, false, ⟨same, decide_eq_false passed⟩, s.stats,
            Or.inr ⟨Bool.false_ne_true, rfl⟩,
            accounts, refunded, rfl⟩⟩

theorem Docket.undirected (hd : Docket c.self none s)
    (other : ∀ proposer symbl, a ≠ .referended proposer symbl) (h : Maker.apply c s a = .ok s') :
    Docket c.self none s' := by
  by_cases governs : a.governs = false
  · exact hd.ungoverned h governs
  · cases a with
    | propose proposer symbl terms => exact hd.proposed h
    | vote voter symbl against quantity => exact hd.voted h
    | referended proposer symbl => exact absurd rfl (other proposer symbl)
    | _ => exact absurd rfl governs

/-- A decision off the queue that fails leaves its proposal without one. -/
theorem Docket.dropped (hd : Docket own (some T) s) {prop : Proposal}
    (session : s.props.lookup T = some prop) : ¬ Pending s := by
  intro pending
  obtain ⟨id, ⟨due, found⟩, -⟩ := pending T prop session
  exact hd.idle id _ found rfl

/-- One event: the proposals keep their decisions if the decision it runs, if
any, is ready, and lose one if it is not. -/
theorem Docket.step {w : World} {e : Event} (hd : Docket own none w.state)
    (chain : e.undirected = true) :
    (Meets own Ready w e ∧ Pending (Maker.step own w e).state ∧
        Docket own none (Maker.step own w e).state) ∨
      (¬ Meets own Ready w e ∧ ¬ Pending (Maker.step own w e).state) := by
  suffices kept : (Meets own Ready w e ∧ Docket own none (Maker.step own w e).state) ∨
      (¬ Meets own Ready w e ∧ ¬ Pending (Maker.step own w e).state) from
    kept.imp_left fun h => ⟨h.1, h.2.pending, h.2⟩
  unfold Maker.step
  cases e with
  | elapse seconds =>
    refine Or.inl ⟨fun call called => ?_, hd⟩
    cases called
  | act auth action =>
    have other (proposer : Name) (symbl : SymbolCode) : action ≠ .referended proposer symbl := by
      rintro rfl
      cases chain
    have ready : Meets own Ready w (.act auth action) := by
      intro call called
      cases Option.mem_def.mp called
      cases action with
      | referended proposer symbl => exact absurd rfl (other proposer symbl)
      | _ => trivial
    refine Or.inl ⟨ready, ?_⟩
    simp only [World.call]
    cases applied : Maker.apply (w.ctx own auth) w.state action with
    | ok s' => exact hd.undirected other applied
    | error _ => exact hd
  | fire id =>
    cases found : w.state.deferred.lookup id with
    | none => simp [World.call, found, hd, Meets]
    | some tx =>
      by_cases due : tx.due ≤ w.clock
      · obtain ⟨prop, session, asked⟩ := hd.session id tx found
        have called : w.call own (.fire id) = some _ := call_fire found due
        have tabled := hd.call found
        have iff := tabled.ready_iff (c := w.ctx own [own]) List.mem_cons_self session
        rw [asked] at iff
        have ready : Meets own Ready w (.fire id) ↔ Ready (w.ctx own [own])
            { w.state with deferred := w.state.deferred.erase id }
            (.referended tx.proposer tx.symbl) := by
          simp [Meets, called]
        simp only [called, ready, ← iff, Maker.apply]
        cases applied : referended (w.ctx own [own])
            { w.state with deferred := w.state.deferred.erase id } tx.proposer tx.symbl with
        | ok s' =>
          rw [← asked] at applied
          exact Or.inl ⟨⟨s', rfl⟩, tabled.decided (c := w.ctx own [own]) session applied⟩
        | error _ =>
          refine Or.inr ⟨?_, tabled.dropped session⟩
          rintro ⟨s', ⟨⟩⟩
      · simp [World.call, found, due, hd, Meets]

/-- As long as only the chain runs `referended`, every proposal in session has
exactly one pending decision throughout a run, if and only if each decision that
the chain runs finds what it needs. -/
theorem decision_pending (self : Name) (clock : Nat) (es : List Event)
    (chain : ∀ e ∈ es, e.undirected = true) :
    Along (step self) (fun w e => Pending (step self w e).state) (World.genesis clock) es ↔
      Along (step self) (Meets self Ready) (World.genesis clock) es :=
  along_iff_along (I := fun w => Docket self none w.state) (fun _ _ hd chain => hd.step chain)
    (Docket.empty self) (along_of_forall chain _)

section

open Sample

theorem decision_pending_rick :
    Along (step daiqcontract) (fun w e => Pending (step daiqcontract w e).state)
      (World.genesis 1000) (enacted EOS 200 150) :=
  (decision_pending daiqcontract 1000 (enacted EOS 200 150) (by decide +kernel)).mpr
    (by decide +kernel)

/-- `rick` votes for and against `FUD` alike, and proposes `GUD` in the second
in which the tie is decided anew. -/
def collided : List Event :=
  priced EOS 200 ++
  [ .act [rick] (.propose rick FUD (terms EOS 150)),
    .act [rick] (.vote rick FUD false ⟨500, IQ_SYMBOL⟩),
    .act [rick] (.vote rick FUD true ⟨500, IQ_SYMBOL⟩),
    .elapse VOTE_PERIOD,
    .act [rick] (.propose rick GUD (terms EOS 150)),
    .fire (rick.value * 2 ^ 64 + 1000) ]

/-- `FUD` stays in session with the votes on it, and no decision is pending. -/
theorem decision_lost :
    (∀ e ∈ collided, e.undirected = true) ∧
    (after daiqcontract 1000 collided).state.props.lookup FUD =
      some ⟨1005, rick, ⟨500, IQ_SYMBOL⟩, ⟨500, IQ_SYMBOL⟩⟩ ∧
    escrowed FUD (after daiqcontract 1000 collided).state.accounts = 1000 ∧
    ∀ id, ¬ Awaits (after daiqcontract 1000 collided).state rick FUD id := by
  refine ⟨by decide +kernel, by decide +kernel, by decide +kernel, ?_⟩
  rintro id ⟨due, found⟩
  have others : ∀ row ∈ (after daiqcontract 1000 collided).state.deferred.entries,
      row.2.symbl ≠ FUD := by decide +kernel
  exact others _ ((Table.lookup_iff_mem _ _ _).mp found) rfl

end

end DecentralBank.Maker
