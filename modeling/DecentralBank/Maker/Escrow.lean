import DecentralBank.Maker.Accounts

/-!
# Vote escrow

Votes lie in the accounts table under the proposed type's symbol. As long as no
feed is made for a symbol in session, no token can be under it: the rows there
are the votes, they add up to the count, and `referended` pays them back.
-/

namespace DecentralBank.Maker

open Runs

/-! ## The refund loop -/

section Refunds

variable {a b : Accounts} {symbl : SymbolCode} {row : (_ : SymbolCode × Name) × Account}
  {rows : List ((_ : SymbolCode × Name) × Account)}

theorem refund_ok (h : refund a row = .ok b) : ∃ paid,
    Moved a [credit row.1.2 ⟨row.2.amount, IQ_SYMBOL⟩ IQ_NAME] paid ∧ b = paid.erase row.1 := by
  simp only [refund, Checked.bind_eq_ok, Asset.make_eq_ok, Checked.pure_eq_ok] at h
  obtain ⟨_, ⟨-, -, rfl⟩, paid, credited, rfl⟩ := h
  exact ⟨paid, addBalance_moved credited, rfl⟩

/-- A turn of the loop touches the row and the IQ of its owner. -/
theorem refund_lookup (h : refund a row = .ok b) {k : SymbolCode × Name}
    (hk : k ≠ (IQ_SYMBOL.code, row.1.2)) :
    b.lookup k = if k = row.1 then none else a.lookup k := by
  obtain ⟨paid, moved, rfl⟩ := refund_ok h
  rw [Table.lookup_erase]
  split
  · rfl
  · refine moved.elsewhere fun m hm => ?_
    cases List.mem_singleton.mp hm
    exact fun e => hk e.symm

theorem refund_held (h : refund a row = .ok b) (other : row.1.1 ≠ IQ_SYMBOL.code) (u : Name) :
    Ledger.held Account.amount b (IQ_SYMBOL.code, u) =
      Ledger.held Account.amount a (IQ_SYMBOL.code, u) +
        if row.1.2 = u then row.2.amount else 0 := by
  obtain ⟨paid, moved, rfl⟩ := refund_ok h
  rw [Ledger.held_erase, if_neg fun e => other (congrArg Prod.fst e).symm, moved.held_eq]
  simp only [credit, List.map_cons, List.map_nil, List.sum_cons, List.sum_nil, Prod.mk.injEq,
    true_and, add_zero]
  by_cases hu : row.1.2 = u
  · rw [if_pos hu, if_pos hu.symm]
  · rw [if_neg hu, if_neg fun e => hu e.symm]

theorem refund_keeps (h : refund a row = .ok b) (other : row.1.1 ≠ IQ_SYMBOL.code) {u : Name}
    {old : Account} (found : a.lookup (IQ_SYMBOL.code, u) = some old) :
    ∃ new, b.lookup (IQ_SYMBOL.code, u) = some new ∧ new.label = old.label := by
  obtain ⟨paid, moved, rfl⟩ := refund_ok h
  obtain ⟨new, kept, label⟩ := moved.keeps found
  refine ⟨new, ?_, label⟩
  rw [Table.lookup_erase, if_neg fun e => other (congrArg Prod.fst e).symm]
  exact kept

theorem refund_origin (h : refund a row = .ok b) {k : SymbolCode × Name} {new : Account}
    (found : b.lookup k = some new) :
    (∃ old, a.lookup k = some old ∧ old.label = new.label) ∨ new.label = (IQ_SYMBOL, IQ_NAME) := by
  obtain ⟨paid, moved, rfl⟩ := refund_ok h
  obtain ⟨-, kept⟩ := Table.of_lookup_erase found
  rcases moved.origin kept with old | ⟨m, hm, -, label⟩
  · exact Or.inl old
  · cases List.mem_singleton.mp hm
    exact Or.inr label.symm

/-- The refunds in `rows` to `u`. -/
def due (rows : List ((_ : SymbolCode × Name) × Account)) (u : Name) : Int :=
  (rows.map fun row => if row.1.2 = u then row.2.amount else 0).sum

/-- If each turn erases its row and leaves the one at `k`, the loop erases its rows and leaves
that one. -/
theorem refunds_erase (h : rows.foldlM refund a = .ok b) {k : SymbolCode × Name}
    (turn : ∀ row ∈ rows, ∀ {a b}, refund a row = .ok b →
        b.lookup k = if k = row.1 then none else a.lookup k) :
    b.lookup k = if k ∈ rows.map Sigma.fst then none else a.lookup k := by
  induction rows generalizing a with
  | nil =>
    cases h
    rfl
  | cons row rows ih =>
    simp only [List.foldlM_cons, Checked.bind_eq_ok] at h
    obtain ⟨a₁, first, rest⟩ := h
    obtain ⟨here, later⟩ := List.forall_mem_cons.mp turn
    rw [ih rest later, here first]
    simp only [List.map_cons, List.mem_cons]
    by_cases same : k = row.1
    · rw [if_pos same, if_pos (Or.inl same), ite_self]
    · simp only [same, if_false, false_or]

/-- The loop erases its rows and, outside the IQ scope, nothing else. -/
theorem refunds_lookup (h : rows.foldlM refund a = .ok b) {k : SymbolCode × Name}
    (hk : k.1 ≠ IQ_SYMBOL.code) :
    b.lookup k = if k ∈ rows.map Sigma.fst then none else a.lookup k := by
  refine refunds_erase h ?_
  intro row _ a b turned
  exact refund_lookup turned fun e => hk (congrArg Prod.fst e)

/-- The loop pays each owner in IQ what it erases. -/
theorem refunds_held (apart : ∀ row ∈ rows, row.1.1 ≠ IQ_SYMBOL.code)
    (h : rows.foldlM refund a = .ok b) (u : Name) :
    Ledger.held Account.amount b (IQ_SYMBOL.code, u) =
      Ledger.held Account.amount a (IQ_SYMBOL.code, u) + due rows u := by
  rw [due]
  refine Checked.foldlM_sum (g := fun a => Ledger.held Account.amount a (IQ_SYMBOL.code, u)) ?_ h
  intro row mem a b turned
  exact refund_held turned (apart row mem) u

theorem refunds_keeps (apart : ∀ row ∈ rows, row.1.1 ≠ IQ_SYMBOL.code)
    (h : rows.foldlM refund a = .ok b) {u : Name} {old : Account}
    (found : a.lookup (IQ_SYMBOL.code, u) = some old) :
    ∃ new, b.lookup (IQ_SYMBOL.code, u) = some new ∧ new.label = old.label := by
  refine Checked.foldlM_keeps (I := fun b => ∃ new, b.lookup (IQ_SYMBOL.code, u) = some new ∧
    new.label = old.label) ?_ h ⟨old, found, rfl⟩
  rintro row mem a b turned ⟨mid, kept, label⟩
  obtain ⟨new, found', label'⟩ := refund_keeps turned (apart row mem) kept
  exact ⟨new, found', label'.trans label⟩

theorem refunds_origin (h : rows.foldlM refund a = .ok b) {k : SymbolCode × Name} {new : Account}
    (found : b.lookup k = some new) :
    (∃ old, a.lookup k = some old ∧ old.label = new.label) ∨ new.label = (IQ_SYMBOL, IQ_NAME) := by
  refine Checked.foldlM_keeps (I := fun b => ∀ new, b.lookup k = some new →
    (∃ old, a.lookup k = some old ∧ old.label = new.label) ∨
      new.label = (IQ_SYMBOL, IQ_NAME)) ?_ h ?_ new found
  · intro row _ a₁ b turned before new found
    obtain ⟨mid, kept, label⟩ | iq := refund_origin turned found
    · rw [← label]
      exact before mid kept
    · exact Or.inr iq
  · intro new found
    exact Or.inl ⟨new, found, rfl⟩

/-- Who has no row in the loop is left alone. -/
theorem refunds_bystander (h : rows.foldlM refund a = .ok b) {u : Name}
    (none : ∀ row ∈ rows, row.1.2 ≠ u) (symbl : SymbolCode) :
    b.lookup (symbl, u) = a.lookup (symbl, u) := by
  refine Checked.foldlM_keeps (I := fun b => b.lookup (symbl, u) = a.lookup (symbl, u)) ?_ h rfl
  intro row mem a₁ b turned before
  have other := none row mem
  rw [refund_lookup turned fun e => other (congrArg Prod.snd e).symm,
    if_neg fun e => other (congrArg Prod.snd e).symm, before]

variable {T : SymbolCode}

theorem refundVotes_bystander (h : refundVotes a T = .ok b) {u : Name}
    (none : a.lookup (T, u) = none) (symbl : SymbolCode) :
    b.lookup (symbl, u) = a.lookup (symbl, u) := by
  refine refunds_bystander h (fun row hr => ?_) symbl
  simp only [List.mem_filter, decide_eq_true_eq] at hr
  rintro rfl
  have found := (Table.lookup_iff_mem a row.1 row.2).mpr hr.1
  rw [show row.1 = (T, row.1.2) from Prod.ext hr.2 rfl, none] at found
  cases found

theorem mem_scope {k : SymbolCode × Name} : k ∈
    (a.entries.filter fun row => row.1.1 = T).map Sigma.fst ↔ k.1 = T ∧ k ∈ a := by
  simp only [List.mem_map, List.mem_filter, decide_eq_true_eq]
  constructor
  · rintro ⟨row, ⟨mem, scope⟩, rfl⟩
    exact ⟨scope, List.mem_keys_of_mem mem⟩
  · rintro ⟨scope, mem⟩
    obtain ⟨v, hv⟩ := List.exists_of_mem_keys mem
    exact ⟨_, ⟨hv, scope⟩, rfl⟩

/-- Erasing every row of the scope erases the scope. -/
theorem lookup_scope (k : SymbolCode × Name) :
    (if k ∈ (a.entries.filter fun row => row.1.1 = T).map Sigma.fst then none else a.lookup k) =
      if k.1 = T then none else a.lookup k := by
  simp only [mem_scope]
  by_cases scope : k.1 = T
  · by_cases mem : k ∈ a
    · simp [scope, mem]
    · simp [scope, mem, AList.lookup_eq_none.mpr mem]
  · simp [scope]

theorem mem_scope_code {row : (_ : SymbolCode × Name) × Account}
    (mem : row ∈ a.entries.filter fun row => row.1.1 = T) : row.1.1 = T := by
  simp only [List.mem_filter, decide_eq_true_eq] at mem
  exact mem.2

theorem refundVotes_lookup (h : refundVotes a T = .ok b) {k : SymbolCode × Name}
    (hk : k.1 ≠ IQ_SYMBOL.code) : b.lookup k = if k.1 = T then none else a.lookup k := by
  rw [refunds_lookup h hk, lookup_scope]

/-- A turn of the loop over the IQ scope pays into the row that it erases. -/
theorem refund_iq (h : refund a row = .ok b) (iq : row.1.1 = IQ_SYMBOL.code)
    (k : SymbolCode × Name) :
    b.lookup k = if k = row.1 then none else a.lookup k := by
  obtain ⟨paid, moved, rfl⟩ := refund_ok h
  rw [Table.lookup_erase]
  split
  · rfl
  · rename_i other
    refine moved.elsewhere ?_
    intro m mem key
    cases List.mem_singleton.mp mem
    exact other (by rw [← key, credit, ← iq])

theorem refunds_iq (h : rows.foldlM refund a = .ok b) (iq : ∀ row ∈ rows, row.1.1 = IQ_SYMBOL.code)
    (k : SymbolCode × Name) :
    b.lookup k = if k ∈ rows.map Sigma.fst then none else a.lookup k := by
  refine refunds_erase h ?_
  intro row mem a b turned
  exact refund_iq turned (iq row mem) k

theorem refundVotes_iq (h : refundVotes a T = .ok b) (iq : T = IQ_SYMBOL.code)
    (k : SymbolCode × Name) : b.lookup k = if k.1 = T then none else a.lookup k := by
  rw [refunds_iq h (fun row mem => (mem_scope_code mem).trans iq) k, lookup_scope]

/-- The refund loop leaves no row in the scope. -/
theorem refundVotes_scope (h : refundVotes a T = .ok b) (u : Name) : b.lookup (T, u) = none := by
  by_cases iq : T = IQ_SYMBOL.code
  · rw [refundVotes_iq h iq, if_pos rfl]
  · rw [refundVotes_lookup h iq, if_pos rfl]

/-- The refund loop turns what lies under the symbol into IQ of the same owner. -/
theorem refundVotes_held (h : refundVotes a T = .ok b) (other : T ≠ IQ_SYMBOL.code) (u : Name) :
    Ledger.held Account.amount b (IQ_SYMBOL.code, u) =
      Ledger.held Account.amount a (IQ_SYMBOL.code, u) + Ledger.held Account.amount a (T, u) := by
  have paid : due (a.entries.filter fun row => row.1.1 = T) u =
      Ledger.held Account.amount a (T, u) := by
    have rows := Table.total_filter (fun k v => if k.2 = u then Account.amount v else 0)
      (fun k : SymbolCode × Name => k.1 = T) a
    have here := Table.total_single (fun _ v => Account.amount v) a (T, u)
    rw [due, ← rows, Ledger.held, ← here]
    refine Table.total_congr fun k v _ => ?_
    simp only [decide_eq_true_eq, Prod.ext_iff]
    by_cases hT : k.1 = T <;> by_cases hu : k.2 = u <;> simp [hT, hu]
  rw [refunds_held (fun row hr => ?_) h u, paid]
  rw [mem_scope_code hr]
  exact other

theorem refundVotes_keeps (h : refundVotes a T = .ok b) (other : T ≠ IQ_SYMBOL.code) {u : Name}
    {old : Account} (found : a.lookup (IQ_SYMBOL.code, u) = some old) :
    ∃ new, b.lookup (IQ_SYMBOL.code, u) = some new ∧ new.label = old.label := by
  refine refunds_keeps (fun row hr => ?_) h found
  rw [mem_scope_code hr]
  exact other

end Refunds

/-! ## Votes apart from tokens -/

/-- What lies in the accounts under a symbol. -/
def escrowed (T : SymbolCode) (accounts : Accounts) : Int :=
  accounts.total fun k row => if k.1 = T then row.amount else 0

/-- No feed is made for a symbol in session. -/
def SessionsUnfed (s : State) : Action → Prop
  | .upfeed _ _ _ symbl => s.props.lookup symbl.code = none
  | _ => True

instance (s : State) : (a : Action) → Decidable (SessionsUnfed s a)
  | .upfeed .. => inferInstanceAs (Decidable (_ = none))
  | .openCdp .. | .close .. | .shut .. | .lock .. | .bail .. | .draw .. | .wipe .. | .settle ..
  | .vote .. | .propose .. | .referended .. | .liquify .. | .withdraw .. | .deposit .. =>
    isTrue trivial

/-- A row under a symbol without a feed is a vote on a proposal in session, and
the votes are counted. Who votes has IQ, so by then IQ has a feed. -/
structure Apart (s : State) : Prop where
  unfed : ∀ T, (s.props.lookup T).isSome = true → ¬ Fed s.feeds T
  votes : ∀ k row, s.accounts.lookup k = some row → ¬ Fed s.feeds k.1 →
    Fed s.feeds IQ_SYMBOL.code ∧ row.label = (⟨k.1, 3⟩, NO_NAME) ∧ 0 < row.amount ∧
      (s.props.lookup k.1).isSome = true
  counted : ∀ T prop, s.props.lookup T = some prop →
    prop.yay.amount + prop.nay.amount = escrowed T s.accounts

variable {c : Ctx} {s s' : State} {a : Action} {T : SymbolCode}

theorem Apart.empty : Apart State.empty where
  unfed T h := by cases h
  votes k row h := by cases h
  counted T prop h := by cases h

theorem Apart.queueless : Queueless Apart := fun _ _ h => ⟨h.1, h.2, h.3⟩

section Sums

variable {b : Accounts} {moves : List Move}

theorem escrowed_moved {a : Accounts} (h : Moved a moves b) :
    escrowed T b = escrowed T a +
      (moves.map fun m => (if m.key.1 = T then 1 else 0) * m.amount).sum := by
  refine h.total_eq (fun k _ => if k.1 = T then 1 else 0) fun k row => ?_
  by_cases hk : k.1 = T <;> simp [hk]

theorem escrowed_same {a : Accounts} (h : ∀ u, b.lookup (T, u) = a.lookup (T, u)) :
    escrowed T b = escrowed T a := by
  refine Table.total_agree (fun _ row => Account.amount row)
    (fun k : SymbolCode × Name => k.1 = T) fun k scope => ?_
  subst scope
  exact h k.2

end Sums

/-- A symbol without a feed before has none after, unless a feed is made for it. -/
theorem SessionsUnfed.unfed (calm : SessionsUnfed s a) (h : apply c s a = .ok s')
    (session : (s.props.lookup T).isSome = true) (hT : ¬ Fed s.feeds T) : ¬ Fed s'.feeds T := by
  intro fed
  rcases Fed.of_apply h fed with before | ⟨_, _, _, symbol, rfl, rfl⟩
  · exact hT before
  · have none : s.props.lookup symbol.code = .none := calm
    rw [none] at session
    cases session

/-- Actions that are not about a proposal leave the rows under unfed symbols. -/
theorem Apart.untouched (hs : Sound s) (ha : Apart s) (h : Maker.apply c s a = .ok s')
    (governs : a.governs = false) {k : SymbolCode × Name} (hk : ¬ Fed s.feeds k.1) :
    s'.accounts.lookup k = s.accounts.lookup k := by
  cases apply_accounts hs h with
  | moved ledgered =>
    obtain ⟨moves, moved, sane⟩ := ledgered
    refine moved.elsewhere fun m hm e => hk ?_
    rw [← congrArg Prod.fst e]
    exact (sane m hm).fed governs
  | @closed owner symbl row auth found zero erased =>
    rw [erased, Table.lookup_erase, if_neg]
    rintro rfl
    have := (ha.votes _ _ found hk).2.2.1
    simp only [Account.amount] at this
    omega
  | refunded => cases governs

theorem Apart.ungoverned (hs : Sound s) (ha : Apart s) (calm : SessionsUnfed s a)
    (h : Maker.apply c s a = .ok s') (governs : a.governs = false) : Apart s' := by
  obtain ⟨props, -⟩ := (apply_frame h).2 governs
  constructor
  · intro T session
    rw [props] at session
    exact calm.unfed h session (ha.unfed T session)
  · intro k row found unfed
    have unfed' : ¬ Fed s.feeds k.1 := fun fed => unfed (fed.apply h)
    rw [ha.untouched hs h governs unfed'] at found
    rw [props]
    obtain ⟨fed, rest⟩ := ha.votes k row found unfed'
    exact ⟨fed.apply h, rest⟩
  · intro T prop session
    rw [props] at session
    have unfed : ¬ Fed s.feeds T := ha.unfed T (by rw [session]; rfl)
    rw [escrowed_same fun u => ha.untouched hs h governs unfed]
    exact ha.counted T prop session

theorem Apart.proposed (ha : Apart s) {proposer : Name} {terms : Terms}
    (h : propose c s proposer T terms = .ok s') : Apart s' := by
  obtain ⟨_, -, free, -, unfed, -, -, -, rfl⟩ := propose_ok h
  have unfed : ¬ Fed s.feeds T := by simp [Fed, unfed]
  constructor
  · intro k session
    simp only [Table.lookup_insert] at session
    split at session
    · rename_i e
      exact e ▸ unfed
    · exact ha.unfed k session
  · intro k row found hk
    obtain ⟨fed, label, positive, session⟩ := ha.votes k row found hk
    refine ⟨fed, label, positive, ?_⟩
    simp only [Table.lookup_insert]
    split
    · rfl
    · exact session
  · intro k prop session
    obtain ⟨rfl, rfl⟩ | ⟨-, old⟩ := Table.of_lookup_insert session
    · refine (Table.total_zero fun j row found => ?_).symm
      split
      · rename_i scope
        have := (ha.votes j row found (by rw [scope]; exact unfed)).2.2.2
        rw [scope, free] at this
        cases this
      · rfl
    · exact ha.counted k prop old

/-- A vote moves IQ of the voter under the symbol. -/
theorem Apart.voting (ha : Apart s) {voter : Name} {against : Bool} {quantity : Asset}
    (h : vote c s voter T against quantity = .ok s') :
    ¬ Fed s.feeds T ∧ Fed s.feeds IQ_SYMBOL.code ∧ ∃ prop counted tag,
      s.props.lookup T = some prop ∧ 0 < quantity.amount ∧
      (∃ row, s.accounts.lookup (IQ_SYMBOL.code, voter) = some row ∧
        row.label = (IQ_SYMBOL, tag)) ∧
      counted.yay.amount + counted.nay.amount =
        prop.yay.amount + prop.nay.amount + quantity.amount ∧
      Moved s.accounts [⟨(IQ_SYMBOL.code, voter), (IQ_SYMBOL, tag), -quantity.amount⟩,
        ⟨(T, voter), (⟨T, 3⟩, NO_NAME), quantity.amount⟩] s'.accounts ∧
      s'.props = s.props.insert T counted ∧ s'.feeds = s.feeds := by
  obtain ⟨prop, paid, tag, accounts, counted, -, positive, iq, session, debited, escrow, count,
    rfl⟩ := vote_ok h
  obtain ⟨debit, row, found, owned, symbol, -⟩ := subBalance_ok debited
  obtain ⟨code, moved, label⟩ := escrow_ok escrow
  have unfed : ¬ Fed s.feeds T := ha.unfed T (by rw [session]; rfl)
  have fed : Fed s.feeds IQ_SYMBOL.code := by
    by_contra none
    rw [iq] at found
    exact none (ha.votes _ _ found none).1
  have apart : T ≠ IQ_SYMBOL.code := fun e => unfed (e ▸ fed)
  have tagged : code = NO_NAME := by
    rcases label with ⟨-, rfl⟩ | ⟨old, stood, label⟩
    · rfl
    · rcases debit.origin stood with ⟨row, found, same⟩ | ⟨m, hm, key, -⟩
      · have := (ha.votes _ _ found unfed).2.1
        rw [same, label] at this
        exact congrArg Prod.snd this
      · cases List.mem_singleton.mp hm
        rw [Maker.debit, iq] at key
        exact absurd (congrArg Prod.fst key).symm apart
  subst tagged
  rw [Maker.debit, iq] at debit
  rw [iq] at found symbol
  exact ⟨unfed, fed, prop, counted, tag, session, positive,
    ⟨row, found, by rw [Account.label, symbol, owned]⟩, (countVote_ok count).1,
    debit.append moved, rfl, rfl⟩

/-- The ballot of the voter grows by what is voted. -/
theorem Apart.ballot_voted (ha : Apart s) {a : Accounts} {voter tag : Name} {quantity : Asset}
    {row : Account} (unfed : ¬ Fed s.feeds T) (apart : T ≠ IQ_SYMBOL.code)
    (positive : 0 < quantity.amount)
    (moved : Moved s.accounts [⟨(IQ_SYMBOL.code, voter), (IQ_SYMBOL, tag), -quantity.amount⟩,
      ⟨(T, voter), (⟨T, 3⟩, NO_NAME), quantity.amount⟩] a)
    (found : a.lookup (T, voter) = some row) : row.label = (⟨T, 3⟩, NO_NAME) ∧ 0 < row.amount := by
  constructor
  · rcases moved.origin found with ⟨old, stood, same⟩ | ⟨m, hm, key, same⟩
    · rw [← same]
      exact (ha.votes _ old stood unfed).2.1
    · simp only [List.mem_cons, List.not_mem_nil, or_false] at hm
      rcases hm with rfl | rfl
      · exact absurd (congrArg Prod.fst key).symm apart
      · exact same.symm
  · have stood := moved.held_eq (T, voter)
    rw [Ledger.held_some found] at stood
    have credited : row.amount = Ledger.held Account.amount s.accounts (T, voter) +
        quantity.amount := by
      simpa [apart] using stood
    have before : 0 ≤ Ledger.held Account.amount s.accounts (T, voter) := by
      cases old : s.accounts.lookup (T, voter) with
      | none => rw [Ledger.held_none old]
      | some row =>
        rw [Ledger.held_some old]
        exact (ha.votes _ row old unfed).2.2.1.le
    omega

theorem Apart.voted (ha : Apart s) {voter : Name} {against : Bool} {quantity : Asset}
    (h : vote c s voter T against quantity = .ok s') : Apart s' := by
  obtain ⟨unfed, fed, prop, count, tag, session, positive, -, sum, moved, props, feeds⟩ :=
    ha.voting h
  have apart : T ≠ IQ_SYMBOL.code := fun e => unfed (e ▸ fed)
  have inSession : ∀ k, (s'.props.lookup k).isSome = (s.props.lookup k).isSome := by
    intro k
    rw [props, Table.lookup_insert]
    split
    · rename_i e
      rw [e, session]
      rfl
    · rfl
  constructor
  · intro k hk
    rw [inSession] at hk
    rw [feeds]
    exact ha.unfed k hk
  · intro k row found hk
    rw [feeds] at hk
    have notIQ : k.1 ≠ IQ_SYMBOL.code := fun e => hk (e ▸ fed)
    rw [inSession]
    by_cases here : k = (T, voter)
    · subst here
      obtain ⟨label, more⟩ := ha.ballot_voted hk apart positive moved found
      refine ⟨feeds ▸ fed, label, more, ?_⟩
      rw [session]
      rfl
    · have same : s'.accounts.lookup k = s.accounts.lookup k := by
        refine moved.elsewhere fun m hm => ?_
        simp only [List.mem_cons, List.not_mem_nil, or_false] at hm
        rcases hm with rfl | rfl
        · exact fun e => notIQ (congrArg Prod.fst e).symm
        · exact fun e => here e.symm
      rw [feeds]
      exact ha.votes k row (same ▸ found) hk
  · intro k prop' hk
    have unfed' : ¬ Fed s.feeds k := by
      refine ha.unfed k ?_
      rw [← inSession, hk]
      rfl
    have notIQ : IQ_SYMBOL.code ≠ k := fun e => unfed' (e ▸ fed)
    have total := escrowed_moved (T := k) moved
    simp only [List.map_cons, List.map_nil, List.sum_cons, List.sum_nil, if_neg notIQ] at total
    rw [props] at hk
    obtain ⟨rfl, rfl⟩ | ⟨other, old⟩ := Table.of_lookup_insert hk
    · have counted := ha.counted k prop session
      simp only [if_true] at total
      omega
    · have counted := ha.counted k prop' old
      rw [if_neg other.symm] at total
      omega

/-- Without a feed for IQ there are no votes, and the loop has nothing to do. -/
theorem Apart.idle (ha : Apart s) (unfed : ¬ Fed s.feeds T) (none : ¬ Fed s.feeds IQ_SYMBOL.code)
    {b : Accounts} (h : refundVotes s.accounts T = .ok b) :
    b = s.accounts ∧ ∀ k : SymbolCode × Name, k.1 = T → s.accounts.lookup k = .none := by
  have empty : ∀ k : SymbolCode × Name, k.1 = T → s.accounts.lookup k = .none := by
    rintro k rfl
    cases found : s.accounts.lookup k with
    | none => rfl
    | some row => exact absurd (ha.votes k row found unfed).1 none
  refine ⟨?_, empty⟩
  have rows : (s.accounts.entries.filter fun row => row.1.1 = T) = [] := by
    refine List.filter_eq_nil_iff.mpr fun row mem scope => ?_
    have found := (Table.lookup_iff_mem s.accounts row.1 row.2).mpr mem
    rw [empty row.1 (of_decide_eq_true scope)] at found
    cases found
  rw [refundVotes, rows] at h
  cases h
  rfl

/-- The loop takes the votes and no other row under an unfed symbol. -/
theorem Apart.refunded_lookup (ha : Apart s) (unfed : ¬ Fed s.feeds T) {b : Accounts}
    (h : refundVotes s.accounts T = .ok b) {k : SymbolCode × Name} (hk : ¬ Fed s.feeds k.1) :
    b.lookup k = if k.1 = T then none else s.accounts.lookup k := by
  by_cases fed : Fed s.feeds IQ_SYMBOL.code
  · exact refundVotes_lookup h fun e => hk (e ▸ fed)
  · obtain ⟨rfl, empty⟩ := ha.idle unfed fed h
    split
    · rename_i scope
      exact empty k scope
    · rfl

theorem Apart.refunded_held (ha : Apart s) (unfed : ¬ Fed s.feeds T) {b : Accounts}
    (h : refundVotes s.accounts T = .ok b) (u : Name) :
    Ledger.held Account.amount b (IQ_SYMBOL.code, u) =
      Ledger.held Account.amount s.accounts (IQ_SYMBOL.code, u) +
        Ledger.held Account.amount s.accounts (T, u) := by
  by_cases fed : Fed s.feeds IQ_SYMBOL.code
  · exact refundVotes_held h (fun e => unfed (e ▸ fed)) u
  · obtain ⟨rfl, empty⟩ := ha.idle unfed fed h
    rw [Ledger.held_none (empty (T, u) rfl), add_zero]

theorem Apart.decided (ha : Apart s) {prop : Proposal} (session : s.props.lookup T = some prop)
    (refunded : refundVotes s.accounts T = .ok s'.accounts) (feeds : s'.feeds = s.feeds)
    (props : s'.props = s.props.erase T) : Apart s' := by
  have unfed : ¬ Fed s.feeds T := ha.unfed T (by rw [session]; rfl)
  have erased (k) : s'.props.lookup k = if k = T then none else s.props.lookup k := by
    rw [props, Table.lookup_erase]
  constructor
  · intro k hk
    rw [erased] at hk
    rw [feeds]
    split at hk
    · cases hk
    · exact ha.unfed k hk
  · intro k row found hk
    rw [feeds] at hk ⊢
    rw [ha.refunded_lookup unfed refunded hk] at found
    split at found
    · cases found
    · rename_i other
      rw [erased, if_neg other]
      exact ha.votes k row found hk
  · intro k prop' hk
    rw [erased] at hk
    split at hk
    · cases hk
    · rename_i other
      have unfed' : ¬ Fed s.feeds k := ha.unfed k (by rw [hk]; rfl)
      rw [ha.counted k prop' hk]
      refine (escrowed_same fun u => ?_).symm
      rw [ha.refunded_lookup unfed refunded unfed', if_neg other]

/-- With sessions unfed, votes and tokens stay apart. -/
theorem Apart.apply (hs : Sound s) (ha : Apart s) (calm : SessionsUnfed s a)
    (h : Maker.apply c s a = .ok s') : Apart s' := by
  by_cases governs : a.governs = false
  · exact ha.ungoverned hs calm h governs
  · cases a with
    | propose proposer symbl terms => exact ha.proposed h
    | vote voter symbl against quantity => exact ha.voted h
    | referended proposer symbl =>
      obtain ⟨-, prop, session, -, ⟨-, -, rfl⟩ | ⟨_, _, -, -, refunded, rfl⟩⟩ := referended_ok h
      · exact Apart.queueless _ _ ha
      · exact ha.decided session refunded rfl rfl
    | _ => exact absurd rfl governs

end DecentralBank.Maker
