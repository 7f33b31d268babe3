import DecentralBank.Maker.Votes

/-!
# Accounts that did not authorise a call

A call takes from no account but those that authorised it. A decision pays
votes back, and a bid touches the CDP it is on.
-/

namespace DecentralBank.Maker

open Runs

/-- A row that `vote` writes: under a symbol in session, tagged with no contract. -/
def IsBallot (s : State) (symbl : SymbolCode) (row : Account) : Prop :=
  (s.props.lookup symbl).isSome = true ∧ row.label = (⟨symbl, 3⟩, NO_NAME)

instance (s : State) (symbl : SymbolCode) (row : Account) : Decidable (IsBallot s symbl row) :=
  inferInstanceAs (Decidable (_ ∧ _))

/-- The token row has grown, if it has changed. -/
def Grown (old : Account) (new : Option Account) : Prop :=
  ∃ row, new = some row ∧ row.label = old.label ∧ old.amount ≤ row.amount

theorem Grown.refl (row : Account) : Grown row (some row) := ⟨row, rfl, rfl, le_refl _⟩

/-- From `s` to `s'` the call `a` takes nothing from `u`. -/
structure Untaken (u : Name) (a : Action) (s s' : State) : Prop where
  tokens : ∀ symbl row, s.accounts.lookup (symbl, u) = some row → ¬ IsBallot s symbl row →
    Grown row (s'.accounts.lookup (symbl, u))
  ballots : ∀ symbl row, s.accounts.lookup (symbl, u) = some row → IsBallot s symbl row →
    s'.accounts.lookup (symbl, u) = some row ∨
      (∃ proposer, a = .referended proposer symbl) ∧ s'.accounts.lookup (symbl, u) = none ∧
        Refunded symbl u row.amount s.accounts s'.accounts
  cdps : ∀ T it, s.cdps.lookup (T, u) = some it →
    (∀ bidder bidamt, a ≠ .liquify bidder u T bidamt) → s'.cdps.lookup (T, u) = some it

variable {c : Ctx} {s s' : State} {a : Action} {T : SymbolCode} {u : Name}

/-- Postings of a call leave at least what an account that did not authorise it had. -/
theorem Ledgered.grown {b : Accounts} (h : Ledgered c s a b) (unauthorised : u ∉ c.auth)
    {symbl : SymbolCode} {row : Account} (found : s.accounts.lookup (symbl, u) = some row) :
    Grown row (b.lookup (symbl, u)) := by
  obtain ⟨moves, moved, sane⟩ := h
  obtain ⟨new, kept, label⟩ := moved.keeps found
  refine ⟨new, kept, label, ?_⟩
  have held := moved.held_eq (symbl, u)
  rw [Ledger.held_some found, Ledger.held_some kept] at held
  rw [held]
  refine le_add_of_nonneg_right (List.sum_nonneg fun x hx => ?_)
  obtain ⟨m, mem, rfl⟩ := List.mem_map.mp hx
  split
  · rename_i key
    by_contra taken
    have auth := (sane m mem).paid (by omega)
    rw [← key] at auth
    exact unauthorised auth
  · exact le_refl 0

/-- The refund loop leaves tokens under fed symbols, and IQ grows. -/
theorem Apart.refunded_grown (ha : Apart s) (session : (s.props.lookup T).isSome = true)
    {b : Accounts} (h : refundVotes s.accounts T = .ok b) {symbl : SymbolCode} {row : Account}
    (found : s.accounts.lookup (symbl, u) = some row) (fed : Fed s.feeds symbl) :
    Grown row (b.lookup (symbl, u)) := by
  have unfed : ¬ Fed s.feeds T := ha.unfed T session
  have other : symbl ≠ T := fun e => unfed (e ▸ fed)
  by_cases iq : symbl = IQ_SYMBOL.code
  · subst iq
    obtain ⟨new, kept, label⟩ := refundVotes_keeps h other.symm found
    refine ⟨new, kept, label, ?_⟩
    have held := ha.refunded_held unfed h u
    rw [Ledger.held_some found, Ledger.held_some kept] at held
    have votes : 0 ≤ Ledger.held Account.amount s.accounts (T, u) := by
      cases stood : s.accounts.lookup (T, u) with
      | none => rw [Ledger.held_none stood]
      | some vote =>
        rw [Ledger.held_some stood]
        exact (ha.votes _ vote stood unfed).2.2.1.le
    omega
  · rw [refundVotes_lookup h iq, if_neg other, found]
    exact .refl row

/-- A row under a symbol with a feed is no ballot, one under another symbol is. -/
theorem Apart.fed_iff (ha : Apart s) {symbl : SymbolCode} {row : Account}
    (found : s.accounts.lookup (symbl, u) = some row) :
    ¬ IsBallot s symbl row ↔ Fed s.feeds symbl := by
  constructor
  · intro token
    by_contra unfed
    obtain ⟨-, label, -, session⟩ := ha.votes _ row found unfed
    exact token ⟨session, label⟩
  · intro fed ballot
    exact ha.unfed symbl ballot.1 fed

/-- Who votes authorises the call. -/
theorem Apart.ballot_kept (hs : Sound s) (ha : Apart s) (h : Maker.apply c s a = .ok s')
    (unauthorised : u ∉ c.auth) {symbl : SymbolCode} {row : Account}
    (found : s.accounts.lookup (symbl, u) = some row) (ballot : IsBallot s symbl row) :
    s'.accounts.lookup (symbl, u) = some row ∨
      (∃ proposer, a = .referended proposer symbl) ∧ s'.accounts.lookup (symbl, u) = none ∧
        Refunded symbl u row.amount s.accounts s'.accounts := by
  have unfed : ¬ Fed s.feeds symbl := ha.unfed symbl ballot.1
  by_cases governs : a.governs = false
  · left
    rw [ha.untouched hs h governs unfed, found]
  · cases a with
    | propose proposer symbl' terms =>
      obtain ⟨_, -, -, -, -, -, -, -, rfl⟩ := propose_ok h
      exact Or.inl found
    | vote voter symbl' against quantity =>
      left
      obtain ⟨_, _, _, _, _, auth, -⟩ := vote_ok h
      obtain ⟨-, -, _, _, _, -, -, -, -, moved, -, -⟩ := ha.voting h
      rw [moved.elsewhere, found]
      intro m mem e
      have voting : voter = u := by
        simp only [List.mem_cons, List.not_mem_nil, or_false] at mem
        rcases mem with rfl | rfl
        · exact congrArg Prod.snd e
        · exact congrArg Prod.snd e
      exact unauthorised (voting ▸ auth)
    | referended proposer symbl' =>
      obtain ⟨-, prop, session, -, ⟨-, -, rfl⟩ | ⟨_, _, -, -, refunded, rfl⟩⟩ := referended_ok h
      · exact Or.inl found
      · have open' : (s.props.lookup symbl').isSome = true := by rw [session]; rfl
        have gone := ha.refunded_lookup (ha.unfed symbl' open') refunded (k := (symbl, u)) unfed
        by_cases here : symbl = symbl'
        · subst here
          refine Or.inr ⟨⟨proposer, rfl⟩, by rw [gone, if_pos rfl], ?_⟩
          have paid := ha.refunds open' refunded u
          rwa [Ledger.held_some found] at paid
        · left
          rw [gone, if_neg here, found]
    | _ => exact absurd rfl governs

/-- Tokens of an account that did not authorise the call do not shrink. -/
theorem Apart.tokens_grown (hs : Sound s) (ha : Apart s) (h : Maker.apply c s a = .ok s')
    (unauthorised : u ∉ c.auth) {symbl : SymbolCode} {row : Account}
    (found : s.accounts.lookup (symbl, u) = some row) (token : ¬ IsBallot s symbl row) :
    Grown row (s'.accounts.lookup (symbl, u)) := by
  cases apply_accounts hs h with
  | moved ledgered => exact ledgered.grown unauthorised found
  | @closed owner symbl' row' auth _ _ erased =>
    rw [erased, Table.lookup_erase, if_neg, found]
    · exact .refl row
    · intro e
      have own : u = owner := congrArg Prod.snd e
      exact unauthorised (own ▸ auth)
  | @refunded proposer symbl' prop _ session _ refunded _ =>
    exact ha.refunded_grown (by rw [session]; rfl) refunded found ((ha.fed_iff found).mp token)

/-- Only its owner works on a CDP, but for bids. -/
theorem cdp_kept (h : apply c s a = .ok s') (unauthorised : u ∉ c.auth) {it : Cdp}
    (found : s.cdps.lookup (T, u) = some it)
    (unbid : ∀ bidder bidamt, a ≠ .liquify bidder u T bidamt) :
    s'.cdps.lookup (T, u) = some it := by
  rcases apply_cdp h (T, u) with ⟨-, same⟩ | ⟨-, moved⟩
  · rw [same, found]
  · rw [found] at moved
    generalize s'.cdps.lookup (T, u) = new at moved ⊢
    cases moved with
    | freed auth | drawn auth | wiped auth | locked auth | shut auth =>
      exact absurd auth unauthorised
    | bid => exact absurd rfl (unbid _ _)

/-- As long as no feed is made for a symbol in session, no call takes from an
account that did not authorise it. -/
theorem unauthorised_untaken (self : Name) (clock : Nat) (es : List Event)
    (unfed : Along (step self) (Meets self fun _ s a => SessionsUnfed s a) (World.genesis clock) es)
    (e : Event) (called : Succeeds self (after self clock es) e c s a) (u : Name)
    (unauthorised : u ∉ c.auth) : Untaken u a s (step self (after self clock es) e).state := by
  obtain ⟨-, sound, apart⟩ := call_meets (Sound.queueless.and Apart.queueless)
    (apart_after self clock es unfed) called.called
  constructor
  · intro symbl row found token
    exact apart.tokens_grown sound called.done unauthorised found token
  · intro symbl row found ballot
    exact apart.ballot_kept sound called.done unauthorised found ballot
  · intro T it found unbid
    exact cdp_kept called.done unauthorised found unbid

section

open Sample

/-- `rick` has voted and does not authorise the decision. -/
theorem unauthorised_untaken_rick : ∃ c s,
    Succeeds daiqcontract (after daiqcontract 1000 (priced EOS 200 ++ proposeFud :: unmixed))
      decideFud c s (.referended rick FUD) ∧
    Untaken rick (.referended rick FUD) s
      (step daiqcontract (after daiqcontract 1000 (priced EOS 200 ++ proposeFud :: unmixed))
        decideFud).state := by
  have queued :
      (after daiqcontract 1000 (priced EOS 200 ++ proposeFud :: unmixed)).state.deferred.lookup
      (rick.value * 2 ^ 64 + 1000) = some ⟨rick, FUD, 1005⟩ := by decide +kernel
  have called : Succeeds daiqcontract
      (after daiqcontract 1000 (priced EOS 200 ++ proposeFud :: unmixed)) decideFud _ _ _ :=
    .of_isOk (call_fire queued (by decide +kernel)) (by decide +kernel)
  exact ⟨_, _, called, unauthorised_untaken daiqcontract 1000 _ (by decide +kernel) _ called rick
    (by decide)⟩

/-- The decision takes the token that `sick` has sent, which is no vote. -/
theorem decision_takes_tokens : ∃ c s,
    Succeeds daiqcontract (after daiqcontract 1000 (priced EOS 200 ++ proposeFud :: mixed))
      decideFud c s (.referended rick FUD) ∧ sick ∉ c.auth ∧
    ¬ Untaken sick (.referended rick FUD) s
      (step daiqcontract (after daiqcontract 1000 (priced EOS 200 ++ proposeFud :: mixed))
        decideFud).state := by
  have queued :
      (after daiqcontract 1000 (priced EOS 200 ++ proposeFud :: mixed)).state.deferred.lookup
      (rick.value * 2 ^ 64 + 1000) = some ⟨rick, FUD, 1005⟩ := by decide +kernel
  refine ⟨_, _, .of_isOk (call_fire queued (by decide +kernel)) (by decide +kernel), by decide, ?_⟩
  intro untaken
  obtain ⟨row, found, -⟩ := untaken.tokens FUD ⟨⟨7, ⟨FUD, 4⟩⟩, fakeos⟩ (by decide +kernel)
    (by decide +kernel)
  have gone : (step daiqcontract (after daiqcontract 1000 (priced EOS 200 ++ proposeFud :: mixed))
      decideFud).state.accounts.lookup (FUD, sick) = none := by decide +kernel
  rw [gone] at found
  cases found

end

end DecentralBank.Maker
