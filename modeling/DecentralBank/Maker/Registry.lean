import DecentralBank.Maker.Effects

/-!
# What a call can do to the stat rows

The contract's own rows are written by the actions that book on a type, by
`settle` and by a decision. A row in another scope is filed by `propose` and
erased by the decision; nothing else touches it.
-/

namespace DecentralBank.Maker

/-- `new` differs from `st` in the amounts that actions book on a type. -/
def Stat.Rebooked (st new : Stat) : Prop :=
  new = { st with
    feeBalance := new.feeBalance
    totalStablecoin := new.totalStablecoin
    totalCollateral := new.totalCollateral }

/-- How a call changes the stat rows. -/
inductive StatStep (c : Ctx) (s s' : State) : Action → Prop
  | kept {a} (same : s'.stats = s.stats) : StatStep c s s' a
  | booked {a T st new} (routine : a.governs = false)
      (type : s.stats.lookup (c.self, T) = some st)
      (written : s'.stats = s.stats.insert (c.self, T) new)
      (rebooked : st.Rebooked new) : StatStep c s s' a
  | settled {feeder T st} (type : s.stats.lookup (c.self, T) = some st) (live : st.live = true)
      (written : s'.stats = s.stats.insert (c.self, T) { st with live := false }) :
      StatStep c s s' (.settle feeder T)
  | filed {proposer T t} (free : s.stats.lookup (proposer, T) = none)
      (unproposed : s.props.lookup T = none)
      (written : s'.stats = s.stats.insert (proposer, T) t.draft) :
      StatStep c s s' (.propose proposer T t)
  | decided {proposer T prop stats} (session : s.props.lookup T = some prop)
      (result : (prop.nay.amount < prop.yay.amount ∧
          enact c s.stats T (s.stats.lookup (proposer, T)) = .ok stats) ∨
        (prop.yay.amount < prop.nay.amount ∧ stats = s.stats))
      (written : s'.stats =
        if (s.stats.lookup (proposer, T)).isSome then stats.erase (proposer, T) else stats)
      (closed : s'.props = s.props.erase T) : StatStep c s s' (.referended proposer T)

variable {c : Ctx} {s s' : State} {a : Action}

theorem settle_live {feeder : Name} {symbl : SymbolCode} (h : settle c s feeder symbl = .ok s') :
    ∃ st, s.stats.lookup (c.self, symbl) = some st ∧ st.live = true := by
  simp only [settle, Ctx.requireAuth_eq_ok, Checked.bind_eq_ok, Checked.require_eq_ok,
    Checked.find_eq_ok, Checked.pure_eq_ok, exists_const] at h
  obtain ⟨-, -, st, found, ⟨-, live⟩, -⟩ := h
  exact ⟨st, found, live⟩

theorem apply_stats (h : apply c s a = .ok s') : StatStep c s s' a := by
  cases a with
  | upfeed feeder price cdpType symbol =>
    obtain ⟨-, rfl⟩ := upfeed_ok h
    exact .kept rfl
  | openCdp owner symbl ramPayer =>
    obtain ⟨_, _, -, -, -, -, rfl⟩ := openCdp_ok h
    exact .kept rfl
  | close owner symbl =>
    obtain ⟨_, -, -, -, rfl⟩ := close_ok h
    exact .kept rfl
  | shut owner symbl =>
    obtain ⟨_, _, _, _, _, _, -, type, -, -, -, -, rfl⟩ := shut_ok h
    exact .booked rfl type rfl rfl
  | lock owner symbl quantity =>
    obtain ⟨_, _, _, _, -, -, type, -, -, -, -, -, -, -, rfl⟩ := lock_ok h
    exact .booked rfl type rfl rfl
  | bail owner symbl quantity =>
    obtain ⟨_, _, _, _, _, -, -, type, -, -, -, -, -, -, -, -, -, rfl⟩ := bail_ok h
    exact .booked rfl type rfl rfl
  | draw owner symbl quantity =>
    obtain ⟨_, _, _, _, _, _, -, -, type, -, -, -, -, -, -, -, -, -, -, rfl⟩ := draw_ok h
    exact .booked rfl type rfl rfl
  | wipe owner symbl quantity =>
    obtain ⟨_, _, _, _, _, _, _, _, _, -, -, type, -, -, -, -, -, -, -, -, -, -, rfl⟩ := wipe_ok h
    exact .booked rfl type rfl rfl
  | settle feeder symbl =>
    obtain ⟨st, type, rfl⟩ := settle_ok h
    obtain ⟨st', type', live⟩ := settle_live h
    cases type.symm.trans type'
    exact .settled type live rfl
  | vote voter symbl against quantity =>
    obtain ⟨_, _, _, _, _, -, -, -, -, -, -, -, rfl⟩ := vote_ok h
    exact .kept rfl
  | propose proposer symbl terms =>
    obtain ⟨_, -, unproposed, free, -, -, filed, -, rfl⟩ := propose_ok h
    rcases fileTerms_ok filed with ⟨-, -, rfl, -⟩ | ⟨-, rfl⟩
    · exact .kept rfl
    · exact .filed free unproposed rfl
  | referended proposer symbl =>
    obtain ⟨-, prop, session, -, ⟨-, -, rfl⟩ | ⟨_, _, -, result, -, rfl⟩⟩ := referended_ok h
    · exact .kept rfl
    · exact .decided session result rfl rfl
  | liquify bidder owner symbl bidamt =>
    obtain ⟨st, _, _, _, -, -, type, -, -, bidding, done⟩ := liquify_ok h
    rcases finish_ok done with ⟨-, rfl⟩ | ⟨_, _, -, -, rfl⟩
    · exact .booked rfl type rfl (by rw [bidding.stat_eq]; rfl)
    · exact .booked rfl type rfl (by rw [bidding.stat_eq]; rfl)
  | withdraw owner quantity memo =>
    obtain ⟨_, _, _, _, -, -, -, -, -, rfl⟩ := withdraw_ok h
    exact .kept rfl
  | deposit code source target quantity memo =>
    obtain ⟨-, -, ⟨-, rfl⟩ | ⟨_, _, -, -, -, -, rfl⟩⟩ := deposit_ok (apply_deposit_ok h).2
    · exact .kept rfl
    · exact .kept rfl

section Proposals

variable {proposer : Name} {T : SymbolCode} {t : Terms}

/-- A settlement proposal is about a type that exists and files nothing. -/
theorem propose_settlement (h : propose c s proposer T t = .ok s')
    (settlement : t.tau = 0 ∧ t.ttl = 0) :
    s'.stats = s.stats ∧ s.stats.lookup (proposer, T) = none ∧
      ∃ st, s.stats.lookup (c.self, T) = some st := by
  obtain ⟨stats, -, -, free, -, -, filed, -, rfl⟩ := propose_ok h
  simp only [fileTerms, if_pos settlement, Checked.bind_eq_ok, Checked.find_eq_ok,
    Checked.require_eq_ok, Checked.pure_eq_ok, exists_const] at filed
  obtain ⟨st, type, -, rfl⟩ := filed
  exact ⟨rfl, free, st, type⟩

/-- A proposal of parameters files them in the proposer's scope. -/
theorem propose_terms (h : propose c s proposer T t = .ok s')
    (parameters : ¬ (t.tau = 0 ∧ t.ttl = 0)) : s'.stats.lookup (proposer, T) = some t.draft := by
  obtain ⟨stats, -, -, -, -, -, filed, -, rfl⟩ := propose_ok h
  rcases fileTerms_ok filed with ⟨tau, ttl, -⟩ | ⟨-, rfl⟩
  · exact absurd ⟨tau, ttl⟩ parameters
  · exact AList.lookup_insert _

end Proposals

section Decisions

variable {proposer : Name} {T : SymbolCode} {prop : Proposal}
  {stats stats' : Table (Name × SymbolCode) Stat}

/-- A decision leaves the rows of other types. -/
theorem decided_elsewhere
    (result : (prop.nay.amount < prop.yay.amount ∧
        enact c s.stats T (s.stats.lookup (proposer, T)) = .ok stats) ∨
      (prop.yay.amount < prop.nay.amount ∧ stats = s.stats))
    (written : stats' =
      if (s.stats.lookup (proposer, T)).isSome then stats.erase (proposer, T) else stats)
    {k : Name × SymbolCode} (other : k.2 ≠ T) : stats'.lookup k = s.stats.lookup k := by
  have apart (q : Name) : k ≠ (q, T) := fun e => other (congrArg Prod.snd e)
  have enacted : stats.lookup k = s.stats.lookup k := by
    rcases result with ⟨-, enacted⟩ | ⟨-, rfl⟩
    · obtain ⟨new, rfl, -⟩ := enact_ok enacted
      rw [Table.lookup_insert, if_neg (apart _)]
    · rfl
  rw [written]
  split
  · rw [Table.lookup_erase, if_neg (apart _), enacted]
  · exact enacted

/-- A row goes by the decision on its type alone. -/
theorem stat_stays (h : apply c s a = .ok s') {k : Name × SymbolCode}
    (found : (s.stats.lookup k).isSome = true) :
    (s'.stats.lookup k).isSome = true ∨ ∃ proposer, a = .referended proposer k.2 := by
  have inserted (j : Name × SymbolCode) (st : Stat) :
      ((s.stats.insert j st).lookup k).isSome = true := by
    rw [Table.lookup_insert]
    split
    · rfl
    · exact found
  cases apply_stats h with
  | kept same => exact Or.inl (same ▸ found)
  | booked _ _ written => exact Or.inl (written ▸ inserted _ _)
  | settled _ _ written => exact Or.inl (written ▸ inserted _ _)
  | filed _ _ written => exact Or.inl (written ▸ inserted _ _)
  | @decided proposer T _ _ _ result written =>
    by_cases decides : k.2 = T
    · exact Or.inr ⟨proposer, by rw [decides]⟩
    · rw [decided_elsewhere result written decides]
      exact Or.inl found

end Decisions

section Sessions

variable {T : SymbolCode}

/-- Through a session, what is filed on the type in another scope stands. -/
theorem session_filed (h : apply c s a = .ok s') (session : (s.props.lookup T).isSome = true)
    (still : (s'.props.lookup T).isSome = true) {q : Name} (other : q ≠ c.self) :
    s'.stats.lookup (q, T) = s.stats.lookup (q, T) := by
  have apart (T' : SymbolCode) : (q, T) ≠ (c.self, T') := fun e => other (congrArg Prod.fst e)
  cases apply_stats h with
  | kept same => rw [same]
  | booked _ _ written => rw [written, Table.lookup_insert, if_neg (apart _)]
  | settled _ _ written => rw [written, Table.lookup_insert, if_neg (apart _)]
  | filed _ unproposed written =>
    rw [written, Table.lookup_insert, if_neg]
    rintro ⟨⟩
    rw [unproposed] at session
    cases session
  | decided _ result written closed =>
    refine decided_elsewhere result written ?_
    rintro rfl
    rw [closed, AList.lookup_erase] at still
    cases still

/-- Through a session, the type keeps its terms, and only `settle` changes whether
it is live. -/
theorem session_type (h : apply c s a = .ok s') {st : Stat}
    (type : s.stats.lookup (c.self, T) = some st)
    (still : (s'.props.lookup T).isSome = true) :
    (∃ new, s'.stats.lookup (c.self, T) = some new ∧ st.Rebooked new) ∨
      ∃ feeder, a = .settle feeder T ∧ st.live = true ∧
        s'.stats.lookup (c.self, T) = some { st with live := false } := by
  cases apply_stats h with
  | kept same => exact Or.inl ⟨st, same ▸ type, rfl⟩
  | @booked _ T' old new _ type' written rebooked =>
    refine Or.inl ?_
    rw [written, Table.lookup_insert]
    split
    · rename_i here
      rw [here, type'] at type
      cases type
      exact ⟨new, rfl, rebooked⟩
    · exact ⟨st, type, rfl⟩
  | @settled feeder T' old type' live written =>
    rw [written, Table.lookup_insert]
    split
    · rename_i here
      cases here
      cases type.symm.trans type'
      exact Or.inr ⟨feeder, rfl, live, rfl⟩
    · exact Or.inl ⟨st, type, rfl⟩
  | filed free _ written =>
    refine Or.inl ⟨st, ?_, rfl⟩
    rw [written, Table.lookup_insert, if_neg]
    · exact type
    · rintro ⟨⟩
      cases type.symm.trans free
  | decided _ result written closed =>
    refine Or.inl ⟨st, ?_, rfl⟩
    rw [decided_elsewhere result written]
    · exact type
    · rintro rfl
      rw [closed, AList.lookup_erase] at still
      cases still

end Sessions

end DecentralBank.Maker
