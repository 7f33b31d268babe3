import DecentralBank.Maker.Escrow

/-!
# What a session pays back

From `propose` to the `referended` that decides it, a proposal takes votes, and
the decision credits each voter in IQ with what the voter paid.
-/

namespace DecentralBank.Maker

open Runs

/-- What `voter` pays in votes on `T`. -/
def ballot (T : SymbolCode) (voter : Name) (_ : Ctx) (_ : State) : Action → Int
  | .vote u symbl _ quantity => if u = voter ∧ symbl = T then quantity.amount else 0
  | _ => 0

/-- `proposal` puts `T` in session, and it stays there through `votes`. -/
structure Session (own : Name) (T : SymbolCode) (w : World) (proposal : Event)
    (votes : List Event) : Prop where
  proposed : ∃ c s proposer terms, Succeeds own w proposal c s (.propose proposer T terms)
  pending : Along (step own) (fun w e => ((step own w e).state.props.lookup T).isSome = true)
    (step own w proposal) votes

/-- The accounts `b` come from `a` by paying `u` what `u` has paid in votes on
`T`. Who has paid none keeps every row. -/
structure Refunded (T : SymbolCode) (u : Name) (paid : Int) (a b : Accounts) : Prop where
  credited : Ledger.held Account.amount b (IQ_SYMBOL.code, u) =
    Ledger.held Account.amount a (IQ_SYMBOL.code, u) + paid
  elsewhere : ∀ symbl, symbl ≠ IQ_SYMBOL.code → symbl ≠ T →
    b.lookup (symbl, u) = a.lookup (symbl, u)
  bystander : paid = 0 → ∀ symbl, b.lookup (symbl, u) = a.lookup (symbl, u)

variable {c : Ctx} {s s' : State} {a : Action} {T : SymbolCode} {u : Name}

/-- While `T` is in session, what lies there under `u` grows by the votes of `u`. -/
theorem voted_step (hs : Sound s) (ha : Apart s) (h : apply c s a = .ok s')
    (session : (s.props.lookup T).isSome = true) (still : (s'.props.lookup T).isSome = true) :
    Ledger.held Account.amount s'.accounts (T, u) =
      Ledger.held Account.amount s.accounts (T, u) + ballot T u c s a := by
  have unfed : ¬ Fed s.feeds T := ha.unfed T session
  have same (rows : s'.accounts.lookup (T, u) = s.accounts.lookup (T, u))
      (none : ballot T u c s a = 0) : Ledger.held Account.amount s'.accounts (T, u) =
        Ledger.held Account.amount s.accounts (T, u) + ballot T u c s a := by
    rw [none, add_zero, Ledger.held, Ledger.held, Table.weightAt, rows, Table.weightAt]
  by_cases governs : a.governs = false
  · refine same (ha.untouched hs h governs unfed) ?_
    cases a with
    | vote => cases governs
    | _ => rfl
  · cases a with
    | propose proposer symbl terms =>
      obtain ⟨_, -, -, -, -, -, -, -, rfl⟩ := propose_ok h
      exact same rfl rfl
    | vote voter symbl against quantity =>
      obtain ⟨-, fed, _, _, tag, -, -, -, -, moved, -, -⟩ := ha.voting h
      have notIQ : T ≠ IQ_SYMBOL.code := fun e => unfed (e ▸ fed)
      rw [moved.held_eq]
      simp only [List.map_cons, List.map_nil, List.sum_cons, List.sum_nil, Prod.mk.injEq, notIQ,
        false_and, if_false, zero_add, add_zero, ballot, and_comm, eq_comm]
    | referended proposer symbl =>
      obtain ⟨-, prop, open', -, ⟨-, -, rfl⟩ | ⟨_, _, -, -, refunded, rfl⟩⟩ := referended_ok h
      · exact same rfl rfl
      · have other : T ≠ symbl := by
          rintro rfl
          simp only [Table.lookup_erase, if_true, Option.isSome_none, Bool.false_eq_true] at still
        refine same ?_ rfl
        have unfed' : ¬ Fed s.feeds symbl := ha.unfed symbl (by rw [open']; rfl)
        rw [ha.refunded_lookup unfed' refunded unfed, if_neg other]
    | _ => exact absurd rfl governs

/-- A proposal starts without votes. -/
theorem proposed_start (ha : Apart s) {proposer : Name} {terms : Terms}
    (h : propose c s proposer T terms = .ok s') (u : Name) :
    Ledger.held Account.amount s'.accounts (T, u) = 0 ∧ (s'.props.lookup T).isSome = true := by
  obtain ⟨_, -, free, -, noFeed, -, -, -, rfl⟩ := propose_ok h
  refine ⟨Ledger.held_none ?_, by simp⟩
  cases found : s.accounts.lookup (T, u) with
  | none => rfl
  | some row =>
    have := (ha.votes _ row found (by simp [Fed, noFeed])).2.2.2
    rw [free] at this
    cases this

/-- Over a session, what lies under `T` for `u` is what `u` has paid in votes. -/
theorem session_paid {own : Name} {w : World} {proposal : Event} {votes : List Event}
    (hs : Sound w.state) (ha : Apart w.state)
    (unfed : Along (step own) (Meets own fun _ s a => SessionsUnfed s a) w (proposal :: votes))
    (session : Session own T w proposal votes) (u : Name) :
    Ledger.held Account.amount (run (step own) w (proposal :: votes)).state.accounts (T, u) =
      tally (step own) (counted own (ballot T u)) (step own w proposal) votes := by
  obtain ⟨⟨c, s, proposer, terms, called⟩, pending⟩ := session
  obtain ⟨rfl, hs, ha⟩ := call_meets (Sound.queueless.and Apart.queueless) ⟨hs, ha⟩ called.called
  have hs' := hs.apply called.done
  have ha' := ha.apply hs (unfed.1 _ called.called) called.done
  obtain ⟨zero, opened⟩ := proposed_start ha called.done u
  have calls : Along (step c.self) (Meets c.self fun c s a => SessionsUnfed s a ∧
      ∀ s', apply c s a = .ok s' → (s'.props.lookup T).isSome = true)
      (step c.self w proposal) votes := by
    refine along_mono (fun w e h => ?_) (along_and unfed.2 pending)
    intro call called
    exact ⟨h.1 call called,
      meets_after (Q := fun s => (s.props.lookup T).isSome = true) h.2 call called⟩
  have grown := raised_eq
    (P := fun s => Sound s ∧ Apart s ∧ (s.props.lookup T).isSome = true)
    (f := fun s => Ledger.held Account.amount s.accounts (T, u)) (g := ballot T u)
    (Sound.queueless.and (Apart.queueless.and fun _ _ h => h))
    (fun _ _ _ _ _ kept ok h => ⟨kept.1.apply h, kept.2.1.apply kept.1 ok.1 h, ok.2 _ h⟩)
    (fun _ _ => rfl)
    (fun _ _ _ _ _ kept ok h => voted_step kept.1 kept.2.1 h kept.2.2 (ok.2 _ h))
    ⟨hs', ha', opened⟩ calls
  simp only [zero, zero_add] at grown
  exact grown

/-- The decision pays `u` what lies under `T` for `u`. -/
theorem Apart.refunds (ha : Apart s) (session : (s.props.lookup T).isSome = true) {b : Accounts}
    (h : refundVotes s.accounts T = .ok b) (u : Name) :
    Refunded T u (Ledger.held Account.amount s.accounts (T, u)) s.accounts b := by
  have unfed : ¬ Fed s.feeds T := ha.unfed T session
  constructor
  · exact ha.refunded_held unfed h u
  · intro symbl other notT
    rw [refundVotes_lookup h other, if_neg notT]
  · intro none
    refine refundVotes_bystander h ?_
    cases found : s.accounts.lookup (T, u) with
    | none => rfl
    | some row =>
      have positive := (ha.votes _ row found unfed).2.2.1
      rw [Ledger.held_some found] at none
      omega

theorem apart_after (self : Name) (clock : Nat) (es : List Event)
    (unfed : Along (step self) (Meets self fun _ s a => SessionsUnfed s a)
      (World.genesis clock) es) :
    Sound (after self clock es).state ∧ Apart (after self clock es).state :=
  invariant (Sound.queueless.and Apart.queueless)
    (fun _ _ _ _ _ kept ok h => ⟨kept.1.apply h, kept.2.apply kept.1 ok h⟩)
    ⟨Sound.empty, Apart.empty⟩ unfed

/-- As long as no feed is made for a symbol in session, the votes on a proposal
add up to what lies under its symbol, a tie leaves the accounts, and a decision
pays each account what it has paid in votes since the proposal. -/
theorem votes_escrowed (self : Name) (clock : Nat) (es : List Event) (T : SymbolCode)
    (unfed : Along (step self) (Meets self fun _ s a => SessionsUnfed s a)
      (World.genesis clock) es) :
    (∀ prop, (after self clock es).state.props.lookup T = some prop →
      prop.yay.amount + prop.nay.amount = escrowed T (after self clock es).state.accounts) ∧
    ∀ first proposal votes, es = first ++ proposal :: votes →
      Session self T (after self clock first) proposal votes →
      ∀ e c s proposer prop, Succeeds self (after self clock es) e c s (.referended proposer T) →
        (after self clock es).state.props.lookup T = some prop →
        (prop.yay.amount = prop.nay.amount →
          (step self (after self clock es) e).state.accounts =
            (after self clock es).state.accounts) ∧
        (prop.yay.amount ≠ prop.nay.amount → ∀ u, Refunded T u
          (tally (step self) (counted self (ballot T u))
            (step self (after self clock first) proposal) votes)
          (after self clock es).state.accounts
          (step self (after self clock es) e).state.accounts) := by
  obtain ⟨sound, apart⟩ := apart_after self clock es unfed
  refine ⟨fun prop session => apart.counted T prop session, ?_⟩
  intro first proposal votes split session e c s proposer prop called standing
  obtain ⟨own, d, same⟩ := call_state called.called
  have accounts : s.accounts = (after self clock es).state.accounts := by rw [same]
  have props : s.props = (after self clock es).state.props := by rw [same]
  obtain ⟨-, prop', standing', -, ⟨tie, -, still⟩ | ⟨_, _, split', -, refunded, moved⟩⟩ :=
    referended_ok called.done
  · rw [props, standing] at standing'
    cases standing'
    refine ⟨fun _ => ?_, fun split => absurd tie split⟩
    rw [still, accounts]
  · rw [props, standing] at standing'
    cases standing'
    refine ⟨fun tie => absurd tie split', fun _ u => ?_⟩
    have parts := along_append.mp (split ▸ unfed)
    obtain ⟨sound₀, apart₀⟩ := apart_after self clock first parts.1
    have paid := session_paid sound₀ apart₀ parts.2 session u
    rw [← after_append, ← split] at paid
    rw [← paid, moved]
    rw [accounts] at refunded
    exact apart.refunds (by rw [standing]; rfl) refunded u

section

open Sample

def proposeFud : Event := .act [rick] (.propose rick FUD (terms EOS 150))

def decideFud : Event := .fire (rick.value * 2 ^ 64 + 1000)

def unmixed : List Event :=
  [ .act [rick] (.vote rick FUD false ⟨1000, IQ_SYMBOL⟩), .elapse VOTE_PERIOD ]

theorem votes_escrowed_rick :
    Refunded FUD rick 1000
      (after daiqcontract 1000 (priced EOS 200 ++ proposeFud :: unmixed)).state.accounts
      (step daiqcontract (after daiqcontract 1000 (priced EOS 200 ++ proposeFud :: unmixed))
        decideFud).state.accounts := by
  have session : Session daiqcontract FUD (after daiqcontract 1000 (priced EOS 200)) proposeFud
      unmixed :=
    ⟨⟨_, _, rick, terms EOS 150, .of_isOk rfl (by decide +kernel)⟩, by decide +kernel⟩
  have queued :
      (after daiqcontract 1000 (priced EOS 200 ++ proposeFud :: unmixed)).state.deferred.lookup
      (rick.value * 2 ^ 64 + 1000) = some ⟨rick, FUD, 1005⟩ := by decide +kernel
  have paid := ((votes_escrowed daiqcontract 1000 _ FUD (by decide +kernel)).2 _ _ _ rfl session
    decideFud _ _ rick ⟨1005, rick, ⟨1000, IQ_SYMBOL⟩, ⟨0, IQ_SYMBOL⟩⟩
    (.of_isOk (call_fire queued (by decide +kernel)) (by decide +kernel)) (by decide +kernel)).2
    (by decide) rick
  have total : tally (step daiqcontract) (counted daiqcontract (ballot FUD rick))
      (step daiqcontract (after daiqcontract 1000 (priced EOS 200)) proposeFud) unmixed = 1000 := by
    decide +kernel
  rwa [total] at paid

/-- While `FUD` is in session it gets a feed, and `sick` sends a token of that
symbol: it counts as a vote of `sick`, and is paid back in IQ. -/
def mixed : List Event :=
  [ .act [rick] (.vote rick FUD false ⟨1000, IQ_SYMBOL⟩),
    .act [daiqcontract] (.upfeed daiqcontract ⟨100, USD⟩ FUD ⟨FUD, 4⟩),
    .act [sick] (.deposit fakeos sick daiqcontract ⟨7, ⟨FUD, 4⟩⟩ []),
    .elapse VOTE_PERIOD ]

theorem tokens_paid_as_votes :
    Session daiqcontract FUD (after daiqcontract 1000 (priced EOS 200)) proposeFud mixed ∧
    (∃ prop,
      (after daiqcontract 1000 (priced EOS 200 ++ proposeFud :: mixed)).state.props.lookup FUD =
        some prop ∧
      prop.yay.amount + prop.nay.amount ≠ escrowed FUD
        (after daiqcontract 1000 (priced EOS 200 ++ proposeFud :: mixed)).state.accounts) ∧
    ¬ Refunded FUD sick
      (tally (step daiqcontract) (counted daiqcontract (ballot FUD sick))
        (step daiqcontract (after daiqcontract 1000 (priced EOS 200)) proposeFud) mixed)
      (after daiqcontract 1000 (priced EOS 200 ++ proposeFud :: mixed)).state.accounts
      (step daiqcontract (after daiqcontract 1000 (priced EOS 200 ++ proposeFud :: mixed))
        decideFud).state.accounts := by
  refine ⟨⟨⟨_, _, _, _, .of_isOk rfl (by decide +kernel)⟩, by decide +kernel⟩,
    ⟨⟨1005, rick, ⟨1000, IQ_SYMBOL⟩, ⟨0, IQ_SYMBOL⟩⟩, by decide +kernel, by decide +kernel⟩, ?_⟩
  intro refunded
  exact absurd refunded.credited (by decide +kernel)

end

end DecentralBank.Maker
