import DecentralBank.Maker.Votes
import DecentralBank.Maker.Registry

/-!
# What a decision does to its type

A settlement proposal that passes flips the type as the decision finds it. A
proposal of parameters that passes enacts the terms it was made with.
-/

namespace DecentralBank.Maker

open Runs

variable {c : Ctx} {s s' : State} {a : Action} {own : Name} {T : SymbolCode} {st : Stat}

/-! ## Through a session -/

/-- The event settles `T`. -/
def Settles (own : Name) (T : SymbolCode) (w : World) (e : Event) : Prop :=
  ∃ c s feeder, Succeeds own w e c s (.settle feeder T)

/-- `T` is in session when the event is over. -/
def Open (own : Name) (T : SymbolCode) (w : World) (e : Event) : Prop :=
  ((step own w e).state.props.lookup T).isSome = true

theorem Settles.stopped {w : World} {e : Event} (h : Settles own T w e)
    (type : w.state.stats.lookup (own, T) = some st) :
    st.live = true ∧
      (step own w e).state.stats.lookup (own, T) = some { st with live := false } := by
  obtain ⟨c, s, feeder, called⟩ := h
  obtain ⟨rfl, d, rfl⟩ := call_state called.called
  obtain ⟨st', type', after⟩ := settle_ok called.done
  obtain ⟨st'', type'', live⟩ := settle_live called.done
  cases type.symm.trans type'
  cases type.symm.trans type''
  exact ⟨live, by rw [after, AList.lookup_insert]⟩

/-- An event of a session that does not settle the type leaves whether it is live. -/
theorem unsettled_live {w : World} {e : Event} (still : Open own T w e) (h : ¬ Settles own T w e)
    (type : w.state.stats.lookup (own, T) = some st) :
    ∃ new, (step own w e).state.stats.lookup (own, T) = some new ∧ new.live = st.live := by
  rcases step_cases own w e with ⟨d, same, -⟩ | ⟨c, d, a, called, rfl, applied, -⟩
  · rw [same]
    exact ⟨st, type, rfl⟩
  · rcases session_type applied type still with ⟨new, found, rebooked⟩ | ⟨feeder, rfl, -⟩
    · refine ⟨new, found, ?_⟩
      rw [rebooked]
    · exact absurd ⟨c, _, feeder, called, applied⟩ h

/-- Through a session the type stays as live as it was, unless it is settled: it
was live then and no longer is. -/
theorem session_live {w : World} {votes : List Event}
    (type : w.state.stats.lookup (own, T) = some st)
    (session : Along (step own) (Open own T) w votes) :
    ∃ new, (run (step own) w votes).state.stats.lookup (own, T) = some new ∧
      ((Along (step own) (fun w e => ¬ Settles own T w e) w votes ∧ new.live = st.live) ∨
        (¬ Along (step own) (fun w e => ¬ Settles own T w e) w votes ∧
          st.live = true ∧ new.live = false)) := by
  induction votes generalizing w st with
  | nil => exact ⟨st, type, Or.inl ⟨trivial, rfl⟩⟩
  | cons e votes ih =>
    simp only [Along, run_cons]
    by_cases settles : Settles own T w e
    · obtain ⟨live, stopped⟩ := settles.stopped type
      obtain ⟨new, found, ⟨-, same⟩ | ⟨-, again, -⟩⟩ := ih stopped session.2
      · exact ⟨new, found, Or.inr ⟨fun h => h.1 settles, live, same⟩⟩
      · cases again
    · obtain ⟨mid, found, same⟩ := unsettled_live session.1 settles type
      obtain ⟨new, found', ⟨calm, same'⟩ | ⟨settled, was, is⟩⟩ := ih found session.2
      · exact ⟨new, found', Or.inl ⟨⟨settles, calm⟩, same'.trans same⟩⟩
      · exact ⟨new, found', Or.inr ⟨fun h => settled h.2, same ▸ was, is⟩⟩

/-- Through a session, what is filed on the type in another scope stands. -/
theorem session_draft {w : World} {votes : List Event} {proposer : Name} (other : proposer ≠ own)
    (here : (w.state.props.lookup T).isSome = true)
    (session : Along (step own) (Open own T) w votes) :
    (run (step own) w votes).state.stats.lookup (proposer, T) =
      w.state.stats.lookup (proposer, T) := by
  induction votes generalizing w with
  | nil => rfl
  | cons e votes ih =>
    rw [run_cons, ih session.1 session.2]
    rcases step_cases own w e with ⟨d, same, -⟩ | ⟨c, d, a, -, rfl, applied, -⟩
    · rw [same]
    · exact session_filed applied here session.1 other

theorem propose_opens {proposer : Name} {t : Terms} (h : propose c s proposer T t = .ok s') :
    (s'.props.lookup T).isSome = true := by
  obtain ⟨_, -, -, -, -, -, -, -, rfl⟩ := propose_ok h
  rw [AList.lookup_insert]
  rfl

/-- What the decision leaves, given that the counts differ. -/
theorem referended_decided {proposer : Name} {prop : Proposal}
    (h : referended c s proposer T = .ok s') (standing : s.props.lookup T = some prop)
    (split : prop.yay.amount ≠ prop.nay.amount) : ∃ stats,
      ((prop.nay.amount < prop.yay.amount ∧
          enact c s.stats T (s.stats.lookup (proposer, T)) = .ok stats) ∨
        (prop.yay.amount < prop.nay.amount ∧ stats = s.stats)) ∧
      refundVotes s.accounts T = .ok s'.accounts ∧ s'.props = s.props.erase T ∧
      s'.stats =
        if (s.stats.lookup (proposer, T)).isSome then stats.erase (proposer, T) else stats := by
  obtain ⟨-, prop', standing', -, ⟨tie, -⟩ | ⟨stats, _, -, result, refunded, rfl⟩⟩ :=
    referended_ok h
  · cases standing.symm.trans standing'
    exact absurd tie split
  · cases standing.symm.trans standing'
    exact ⟨stats, result, refunded, rfl, rfl⟩

/-! ## Settlement -/

/-- With nothing filed under the proposer, a passed proposal flips the type. -/
theorem referended_flips {proposer : Name} {prop : Proposal}
    (h : referended c s proposer T = .ok s') (standing : s.props.lookup T = some prop)
    (passed : prop.nay.amount < prop.yay.amount) (undrafted : s.stats.lookup (proposer, T) = none)
    (type : s.stats.lookup (c.self, T) = some st) :
    s'.stats.lookup (c.self, T) = some { st with live := !st.live } := by
  obtain ⟨stats, ⟨-, enacted⟩ | ⟨lost, -⟩, -, -, written⟩ :=
    referended_decided h standing passed.ne'
  · simp only [enact, undrafted, type, Checked.pure_eq_ok] at enacted
    rw [written, undrafted, ← enacted]
    exact AList.lookup_insert _
  · exact absurd lost passed.not_gt

/-- A settlement proposal that passes flips the type as it stands then. That is
the flip voted on if and only if no `settle` of the type came in between. -/
theorem settlement_flips (self : Name) (clock : Nat) (first votes : List Event)
    (proposal e : Event) (T : SymbolCode) (proposer : Name) (t : Terms) (prop : Proposal)
    (opened : Succeeds self (after self clock first) proposal c s (.propose proposer T t))
    (settlement : t.tau = 0 ∧ t.ttl = 0)
    (session : Session self T (after self clock first) proposal votes)
    {c' : Ctx} {s' : State}
    (called : Succeeds self (after self clock (first ++ proposal :: votes)) e
      c' s' (.referended proposer T))
    (standing : s'.props.lookup T = some prop) (passed : prop.nay.amount < prop.yay.amount) :
    ∃ proposed found enacted, s.stats.lookup (self, T) = some proposed ∧
      s'.stats.lookup (self, T) = some found ∧
      (step self (after self clock (first ++ proposal :: votes)) e).state.stats.lookup (self, T) =
        some enacted ∧
      enacted.live = !found.live ∧
      (enacted.live = !proposed.live ↔ Along (step self) (fun w e => ¬ Settles self T w e)
        (step self (after self clock first) proposal) votes) := by
  obtain ⟨own, d, rfl⟩ := call_state opened.called
  obtain ⟨own', d', rfl⟩ := call_state called.called
  obtain ⟨same, free, st, type⟩ := propose_settlement opened.done settlement
  rw [own] at type
  have other : proposer ≠ self := by
    rintro rfl
    cases free.symm.trans type
  obtain ⟨new, found, through⟩ := session_live (same ▸ type) session.pending
  have undrafted := session_draft other (propose_opens opened.done) session.pending
  rw [same, free] at undrafted
  rw [← run_cons, ← after_append] at found undrafted
  have flipped := referended_flips called.done standing passed undrafted (by rw [own']; exact found)
  rw [own'] at flipped
  refine ⟨st, new, _, type, found, flipped, rfl, ?_⟩
  obtain ⟨calm, kept⟩ | ⟨settled, was, is⟩ := through
  · simp [calm, kept]
  · simp [settled, was, is]

section

open Sample

/-- `nick` owes 100 USD at the liquidation ratio. -/
def liable : List Event :=
  enacted EOS 200 200 ++
  [ .act [nick] (.deposit eosioToken nick daiqcontract ⟨1000000, EOS⟩ []),
    .act [nick] (.openCdp nick FUD nick),
    .act [nick] (.lock nick FUD ⟨1000000, EOS⟩),
    borrow 10000 ]

def liableFud (live : Bool) : Stat :=
  { (terms EOS 200).draft with
    live
    lastVote := 1005
    totalStablecoin := ⟨10000, USD⟩
    totalCollateral := ⟨⟨1000000, EOS⟩, eosioToken⟩ }

/-- `dick` feeds the prices of `FUD`. -/
def proposeSettlement : Event :=
  .act [dick] (.propose dick FUD { terms EOS 200 with tau := 0, ttl := 0 })

def passSettlement : Event := .fire (dick.value * 2 ^ 64 + 1005)

theorem settlement_flips_dick : ∃ proposed found enacted,
    (after daiqcontract 1000 liable).state.stats.lookup (daiqcontract, FUD) = some proposed ∧
    (after daiqcontract 1000 (liable ++ proposeSettlement :: unmixed)).state.stats.lookup
      (daiqcontract, FUD) = some found ∧
    (step daiqcontract (after daiqcontract 1000 (liable ++ proposeSettlement :: unmixed))
      passSettlement).state.stats.lookup (daiqcontract, FUD) = some enacted ∧
    enacted.live = !found.live ∧
    (enacted.live = !proposed.live ↔ Along (step daiqcontract)
      (fun w e => ¬ Settles daiqcontract FUD w e)
      (step daiqcontract (after daiqcontract 1000 liable) proposeSettlement) unmixed) := by
  have opened : Succeeds daiqcontract (after daiqcontract 1000 liable) proposeSettlement _ _
      (.propose dick FUD { terms EOS 200 with tau := 0, ttl := 0 }) :=
    .of_isOk rfl (by decide +kernel)
  have queued :
      (after daiqcontract 1000 (liable ++ proposeSettlement :: unmixed)).state.deferred.lookup
      (dick.value * 2 ^ 64 + 1005) = some ⟨dick, FUD, 1010⟩ := by decide +kernel
  have called : Succeeds daiqcontract
      (after daiqcontract 1000 (liable ++ proposeSettlement :: unmixed)) passSettlement _ _
      (.referended dick FUD) := .of_isOk (call_fire queued (by decide +kernel)) (by decide +kernel)
  have flips := settlement_flips daiqcontract 1000 liable unmixed proposeSettlement passSettlement
    FUD dick _ ⟨1010, dick, ⟨1000, IQ_SYMBOL⟩, ⟨0, IQ_SYMBOL⟩⟩ opened (by decide)
    ⟨⟨_, _, _, _, opened⟩, by decide +kernel⟩ called (by decide +kernel) (by decide)
  exact flips

/-- `dick` settles the type while the vote to settle it is on. -/
def overtaken : List Event :=
  [ .act [rick] (.vote rick FUD false ⟨1000, IQ_SYMBOL⟩),
    .act [dick] (.settle dick FUD),
    .elapse VOTE_PERIOD ]

/-- The vote that passes takes the type out of settlement again. -/
theorem settlement_undone : ∃ c s c' s' proposed found enacted,
    Succeeds daiqcontract (after daiqcontract 1000 liable) proposeSettlement c s
      (.propose dick FUD { terms EOS 200 with tau := 0, ttl := 0 }) ∧
    Session daiqcontract FUD (after daiqcontract 1000 liable) proposeSettlement overtaken ∧
    Succeeds daiqcontract (after daiqcontract 1000 (liable ++ proposeSettlement :: overtaken))
      passSettlement c' s' (.referended dick FUD) ∧
    s'.props.lookup FUD = some ⟨1010, dick, ⟨1000, IQ_SYMBOL⟩, ⟨0, IQ_SYMBOL⟩⟩ ∧
    s.stats.lookup (daiqcontract, FUD) = some proposed ∧ proposed.live = true ∧
    s'.stats.lookup (daiqcontract, FUD) = some found ∧ found.live = false ∧
    (step daiqcontract (after daiqcontract 1000 (liable ++ proposeSettlement :: overtaken))
      passSettlement).state.stats.lookup (daiqcontract, FUD) = some enacted ∧
    enacted.live = true := by
  have opened : Succeeds daiqcontract (after daiqcontract 1000 liable) proposeSettlement _ _
      (.propose dick FUD { terms EOS 200 with tau := 0, ttl := 0 }) :=
    .of_isOk rfl (by decide +kernel)
  have queued :
      (after daiqcontract 1000 (liable ++ proposeSettlement :: overtaken)).state.deferred.lookup
      (dick.value * 2 ^ 64 + 1005) = some ⟨dick, FUD, 1010⟩ := by decide +kernel
  exact ⟨_, _, _, _, liableFud true, liableFud false, liableFud true, opened,
    ⟨⟨_, _, _, _, opened⟩, by decide +kernel⟩,
    .of_isOk (call_fire queued (by decide +kernel)) (by decide +kernel), by decide +kernel,
    by decide +kernel, rfl, by decide +kernel, rfl, by decide +kernel, rfl⟩

end

/-! ## Parameters -/

/-- The type as enacted on the terms; the rest of the row, its totals, stays. -/
def Terms.enacted (t : Terms) (now : Nat) (row : Stat) : Stat :=
  { row with
    live := true
    lastVote := now
    tau := t.tau
    ttl := t.ttl
    beg := t.beg
    feeder := t.feeder
    globalCeil := t.gmax
    debtCeiling := t.max
    stabilityFee := t.fee
    penaltyRatio := t.pen
    liquid8Ratio := t.liq }

/-- The decision on the proposal of `t` enacts exactly that: a type that exists
keeps its totals, another starts from the draft, whose totals are zero. -/
structure Enacts (own proposer : Name) (T : SymbolCode) (t : Terms) (now : Nat) (prop : Proposal)
    (s s' : State) : Prop where
  passed : prop.nay.amount < prop.yay.amount → s'.stats.lookup (own, T) =
    some (t.enacted now ((s.stats.lookup (own, T)).getD t.draft))
  rejected : prop.yay.amount < prop.nay.amount →
    s'.stats.lookup (own, T) = s.stats.lookup (own, T)
  closed : s'.props.lookup T = none
  withdrawn : s'.stats.lookup (proposer, T) = none
  refunded : ∀ u, s'.accounts.lookup (T, u) = none
  others : ∀ k, k.2 ≠ T → s'.stats.lookup k = s.stats.lookup k

variable {t : Terms} {prop : Proposal} {proposer : Name}

theorem enact_draft {stats stats' : Table (Name × SymbolCode) Stat}
    (h : enact c stats T (some t.draft) = .ok stats') :
    stats' = stats.insert (c.self, T)
      (t.enacted c.now ((stats.lookup (c.self, T)).getD t.draft)) := by
  unfold enact at h
  cases found : stats.lookup (c.self, T) with
  | none =>
    simp only [found, Checked.pure_eq_ok] at h
    exact h.symm
  | some st =>
    simp only [found, Checked.pure_eq_ok] at h
    exact h.symm

/-- A decision on terms filed by another account enacts them. -/
theorem referended_enacts (h : referended c s proposer T = .ok s')
    (standing : s.props.lookup T = some prop) (split : prop.yay.amount ≠ prop.nay.amount)
    (drafted : s.stats.lookup (proposer, T) = some t.draft) (other : proposer ≠ c.self) :
    Enacts c.self proposer T t c.now prop s s' := by
  obtain ⟨stats, result, refunded, closed, written⟩ := referended_decided h standing split
  have apart : (c.self, T) ≠ (proposer, T) := fun e => other (congrArg Prod.fst e).symm
  have erased : s'.stats = stats.erase (proposer, T) := by
    rw [written, drafted]
    rfl
  constructor
  · intro passed
    obtain ⟨-, enacted⟩ | ⟨lost, -⟩ := result
    · rw [drafted] at enacted
      rw [erased, Table.lookup_erase, if_neg apart, enact_draft enacted, AList.lookup_insert]
    · exact absurd lost passed.not_gt
  · intro lost
    obtain ⟨passed, -⟩ | ⟨-, rfl⟩ := result
    · exact absurd passed lost.not_gt
    · rw [erased, Table.lookup_erase, if_neg apart]
  · rw [closed, AList.lookup_erase]
  · rw [erased, AList.lookup_erase]
  · exact refundVotes_scope refunded
  · intro k elsewhere
    exact decided_elsewhere result written elsewhere

/-- A decision erases no row but the one of the proposer it names. -/
theorem referended_keeps (h : referended c s proposer T = .ok s')
    (standing : s.props.lookup T = some prop) (split : prop.yay.amount ≠ prop.nay.amount)
    {k : Name × SymbolCode} (other : k ≠ (proposer, T)) (found : s.stats.lookup k = some st) :
    ∃ new, s'.stats.lookup k = some new := by
  obtain ⟨stats, result, -, -, written⟩ := referended_decided h standing split
  have enacted : ∃ new, stats.lookup k = some new := by
    rcases result with ⟨-, enacted⟩ | ⟨-, rfl⟩
    · obtain ⟨new, rfl, -⟩ := enact_ok enacted
      rw [Table.lookup_insert]
      split
      · exact ⟨new, rfl⟩
      · exact ⟨st, found⟩
    · exact ⟨st, found⟩
  rw [written]
  split
  · rw [Table.lookup_erase, if_neg other]
    exact enacted
  · exact enacted

/-- The decision on a proposal of parameters enacts it, whatever comes in
between, if and only if it names the proposer, and this is not the contract. -/
theorem referendum_enacts (self : Name) (clock : Nat) (first votes : List Event)
    (proposal e : Event) (T : SymbolCode) (proposer named : Name) (t : Terms) (prop : Proposal)
    (opened : Succeeds self (after self clock first) proposal c s (.propose proposer T t))
    (parameters : ¬ (t.tau = 0 ∧ t.ttl = 0))
    (session : Session self T (after self clock first) proposal votes)
    {c' : Ctx} {s' : State}
    (called : Succeeds self (after self clock (first ++ proposal :: votes)) e
      c' s' (.referended named T))
    (standing : s'.props.lookup T = some prop) (split : prop.yay.amount ≠ prop.nay.amount) :
    Enacts self proposer T t c'.now prop s'
        (step self (after self clock (first ++ proposal :: votes)) e).state ↔
      named = proposer ∧ proposer ≠ self := by
  obtain ⟨own, d, rfl⟩ := call_state called.called
  have filed := propose_terms opened.done parameters
  have drafted (other : proposer ≠ self) :
      (after self clock (first ++ proposal :: votes)).state.stats.lookup (proposer, T) =
        some t.draft := by
    rw [after_append, run_cons, session_draft other (propose_opens opened.done) session.pending]
    exact filed
  have stands : ∃ row,
      (after self clock (first ++ proposal :: votes)).state.stats.lookup (proposer, T) =
        some row := by
    by_cases own : proposer = self
    · subst own
      obtain ⟨row, found, -⟩ := session_live filed session.pending
      exact ⟨row, by rw [after_append]; exact found⟩
    · exact ⟨t.draft, drafted own⟩
  obtain ⟨row, found⟩ := stands
  constructor
  · intro enacts
    constructor
    · by_contra other
      obtain ⟨new, kept⟩ := referended_keeps called.done standing split
        (fun e => other (congrArg Prod.fst e).symm) found
      cases enacts.withdrawn.symm.trans kept
    · rintro rfl
      rcases split.lt_or_gt with lost | passed
      · have stays := enacts.rejected lost
        rw [enacts.withdrawn] at stays
        cases stays.trans found
      · cases enacts.withdrawn.symm.trans (enacts.passed passed)
  · rintro ⟨rfl, other⟩
    have enacts := referended_enacts called.done standing split (drafted other) (own ▸ other)
    rwa [own] at enacts

section

open Sample

theorem referendum_enacts_rick :
    Enacts daiqcontract rick FUD (terms EOS 150) 1005
      ⟨1005, rick, ⟨1000, IQ_SYMBOL⟩, ⟨0, IQ_SYMBOL⟩⟩
      (after daiqcontract 1000 (priced EOS 200 ++ proposeFud :: unmixed)).state
      (step daiqcontract (after daiqcontract 1000 (priced EOS 200 ++ proposeFud :: unmixed))
        decideFud).state := by
  have opened : Succeeds daiqcontract (after daiqcontract 1000 (priced EOS 200)) proposeFud _ _
      (.propose rick FUD (terms EOS 150)) := .of_isOk rfl (by decide +kernel)
  have queued :
      (after daiqcontract 1000 (priced EOS 200 ++ proposeFud :: unmixed)).state.deferred.lookup
      (rick.value * 2 ^ 64 + 1000) = some ⟨rick, FUD, 1005⟩ := by decide +kernel
  have called :
      Succeeds daiqcontract (after daiqcontract 1000 (priced EOS 200 ++ proposeFud :: unmixed))
      decideFud _ _ (.referended rick FUD) :=
    .of_isOk (call_fire queued (by decide +kernel)) (by decide +kernel)
  have enacts := (referendum_enacts daiqcontract 1000 (priced EOS 200) unmixed proposeFud decideFud
    FUD rick rick _ ⟨1005, rick, ⟨1000, IQ_SYMBOL⟩, ⟨0, IQ_SYMBOL⟩⟩ opened (by decide)
    ⟨⟨_, _, _, _, opened⟩, by decide +kernel⟩ called (by decide +kernel) (by decide)).mpr
    ⟨rfl, by decide⟩
  have now : ((after daiqcontract 1000 (priced EOS 200 ++ proposeFud :: unmixed)).ctx daiqcontract
      [daiqcontract]).now = 1005 := by decide +kernel
  rw [now] at enacts
  exact ⟨enacts.1, enacts.2, enacts.3, enacts.4, enacts.5, enacts.6⟩

/-- The contract proposes `FUD` itself. -/
def proposeOwn : Event := .act [daiqcontract] (.propose daiqcontract FUD (terms EOS 150))

/-- The proposal passes, and no type is enacted. -/
theorem own_proposal_lost : ∃ c s c' s',
    Succeeds daiqcontract (after daiqcontract 1000 (priced EOS 200)) proposeOwn c s
      (.propose daiqcontract FUD (terms EOS 150)) ∧
    Session daiqcontract FUD (after daiqcontract 1000 (priced EOS 200)) proposeOwn unmixed ∧
    Succeeds daiqcontract (after daiqcontract 1000 (priced EOS 200 ++ proposeOwn :: unmixed))
      (.fire (daiqcontract.value * 2 ^ 64 + 1000)) c' s' (.referended daiqcontract FUD) ∧
    s'.props.lookup FUD = some ⟨1005, daiqcontract, ⟨1000, IQ_SYMBOL⟩, ⟨0, IQ_SYMBOL⟩⟩ ∧
    (step daiqcontract (after daiqcontract 1000 (priced EOS 200 ++ proposeOwn :: unmixed))
      (.fire (daiqcontract.value * 2 ^ 64 + 1000))).state.stats.lookup (daiqcontract, FUD) =
        none := by
  have opened : Succeeds daiqcontract (after daiqcontract 1000 (priced EOS 200)) proposeOwn _ _
      (.propose daiqcontract FUD (terms EOS 150)) := .of_isOk rfl (by decide +kernel)
  have queued :
      (after daiqcontract 1000 (priced EOS 200 ++ proposeOwn :: unmixed)).state.deferred.lookup
      (daiqcontract.value * 2 ^ 64 + 1000) = some ⟨daiqcontract, FUD, 1005⟩ := by decide +kernel
  exact ⟨_, _, _, _, opened, ⟨⟨_, _, _, _, opened⟩, by decide +kernel⟩,
    .of_isOk (call_fire queued (by decide +kernel)) (by decide +kernel), by decide +kernel,
    by decide +kernel⟩

end

end DecentralBank.Maker
