import DecentralBank.System.GlobalsSteps

/-!
# What a run of actions keeps of the global records

An action works on the records its constructor has read, and its destructor
stores them for the next. All members carry over from action to action but the
average prices, which carry over exactly when memory happens to hold them.
-/

namespace DecentralBank.System

open Checked Runs

variable {D : Type}

def State.withGlobals (s : State D) (g : Globals D) : State D :=
  { s with gstate := g.gstate, gstate2 := g.gstate2, gstate3 := g.gstate3 }

/-- The chain between two actions. The records in `state` are those the last action held at its
end; the next one reads `stored`. -/
structure Chain (D : Type) where
  state : State D
  stored : GlobalTables

/-- An action: the parameters of the chain and the memory its constructor finds, and what it
does. -/
structure Invocation (D : Type) where
  parameters : BlockchainParameters
  memory : Memory
  body : State D → Checked (State D)
  typed : ∀ {s s'}, s.globals.Typed → body s = .ok s' → s'.globals.Typed

/-- The chain when an action ends in `s`. -/
def Chain.ended (e : DoubleBits D) (s : State D) : Chain D := ⟨s, destruct e s.globals⟩

def Chain.invoke (e : DoubleBits D) (chain : Chain D) (i : Invocation D) : Checked (Chain D) := do
  let globals ← construct e i.parameters i.memory chain.stored
  let state ← i.body (chain.state.withGlobals globals)
  pure (.ended e state)

def Chain.step (e : DoubleBits D) (chain : Chain D) (i : Invocation D) : Chain D :=
  match chain.invoke e i with
  | .ok chain' => chain'
  | .error _ => chain

/-- The constructor reads back what the last action held. -/
def ReadBack (e : DoubleBits D) (chain : Chain D) (i : Invocation D) : Prop :=
  construct e i.parameters i.memory chain.stored = .ok chain.state.globals

/-- Memory holds the averages that the last action held. -/
def Remembered (chain : Chain D) (i : Invocation D) : Prop :=
  i.memory.averages = chain.state.gstate.averages

instance (chain : Chain D) (i : Invocation D) : Decidable (Remembered chain i) :=
  inferInstanceAs (Decidable (i.memory.averages = _))

/-- The action does not assign `field`. -/
def Invocation.Leaves {α : Type} (i : Invocation D) (field : Globals D → α) : Prop :=
  ∀ {s s'}, i.body s = .ok s' → field s'.globals = field s.globals

/-- An action has ended. -/
structure Chain.Saved (e : DoubleBits D) (chain : Chain D) : Prop where
  stored : chain.stored = destruct e chain.state.globals
  typed : chain.state.globals.Typed

section

variable {e : DoubleBits D} {chain : Chain D} {i : Invocation D}

theorem Chain.saved_ended {s : State D} (typed : s.globals.Typed) :
    (Chain.ended e s).Saved e := ⟨rfl, typed⟩

theorem Chain.Saved.construct (h : chain.Saved e) (parameters : BlockchainParameters) (m : Memory) :
    construct e parameters m chain.stored = .ok (chain.state.globals.withAverages m.averages) := by
  rw [h.stored]
  exact construct_destruct h.typed e parameters m

theorem Chain.Saved.invoke (h : chain.Saved e) {chain' : Chain D}
    (done : chain.invoke e i = .ok chain') :
    ∃ s', i.body (chain.state.withGlobals (chain.state.globals.withAverages i.memory.averages)) =
      .ok s' ∧
      chain' = .ended e s' := by
  simp only [Chain.invoke, h.construct, bind_eq_ok, pure_eq_ok, Except.ok.injEq,
    exists_eq_left'] at done
  obtain ⟨s', body, rfl⟩ := done
  exact ⟨s', body, rfl⟩

theorem Chain.Saved.step (h : chain.Saved e) (i : Invocation D) : (chain.step e i).Saved e := by
  unfold Chain.step
  split
  · rename_i chain' done
    obtain ⟨s', body, rfl⟩ := h.invoke done
    have read : (chain.state.withGlobals
        (chain.state.globals.withAverages i.memory.averages)).globals.Typed :=
      h.typed.withAverages _
    exact saved_ended (i.typed read body)
  · exact h

theorem Chain.Saved.readBack_iff (h : chain.Saved e) : ReadBack e chain i ↔ Remembered chain i := by
  rw [ReadBack, h.construct, Except.ok.injEq]
  exact Globals.withAverages_eq_iff

/-- A field that the action does not assign, and that survives the reading, stays. -/
theorem Chain.Saved.keeps (h : chain.Saved e) {α : Type} {field : Globals D → α}
    (leaves : i.Leaves field)
    (reads : field (chain.state.globals.withAverages i.memory.averages) =
        field chain.state.globals) :
    field (chain.step e i).state.globals = field chain.state.globals := by
  unfold Chain.step
  split
  · rename_i chain' done
    obtain ⟨s', body, rfl⟩ := h.invoke done
    exact (leaves body).trans reads
  · rfl

/-- What every reading of a run leaves of a field that no action of it assigns. -/
theorem Chain.Saved.carries (h : chain.Saved e) {α : Type} {field : Globals D → α}
    {is : List (Invocation D)} (leaves : ∀ i ∈ is, i.Leaves field)
    (reads : Along (Chain.step e) (fun chain i =>
        field (chain.state.globals.withAverages i.memory.averages) =
      field chain.state.globals) chain is) :
    field (run (Chain.step e) chain is).state.globals = field chain.state.globals := by
  induction is generalizing chain with
  | nil => rfl
  | cons i is ih =>
    obtain ⟨first, others⟩ := List.forall_mem_cons.mp leaves
    rw [run_cons, ih (h.step i) others reads.2, h.keeps first reads.1]

end

/-! ## The machine that keeps the records -/

/-- A call, with what its constructor finds. -/
structure Sent (D : Type) where
  call : Call D
  typed : call.Typed
  parameters : BlockchainParameters
  memory : Memory

def Sent.invocation (self : Name) (sent : Sent D) : Invocation D where
  parameters := sent.parameters
  memory := sent.memory
  body s := perform self s sent.call
  typed hs h := perform_typed sent.typed h hs

theorem Chain.Saved.step_state {e : DoubleBits D} {chain : Chain D}
    (h : chain.Saved e) (self : Name)
    (sent : Sent D) (remembered : Remembered chain (sent.invocation self)) :
    (chain.step e (sent.invocation self)).state = System.step self chain.state sent.call := by
  have read : ReadBack e chain (sent.invocation self) := h.readBack_iff.mpr remembered
  have invoked : chain.invoke e (sent.invocation self) =
      Chain.ended e <$> perform self chain.state sent.call := by
    rw [Chain.invoke, read]
    rfl
  unfold Chain.step System.step
  rw [invoked]
  cases perform self chain.state sent.call with
  | ok s' => rfl
  | error message => rfl

/-- While memory holds the averages, the contract runs as if the records were kept. -/
theorem run_state (e : DoubleBits D) (self : Name) {chain : Chain D} (h : chain.Saved e)
    (sent : List (Sent D))
    (remembered : Along (Chain.step e) Remembered chain (sent.map (Sent.invocation self))) :
    (run (Chain.step e) chain (sent.map (Sent.invocation self))).state =
      run (System.step self) chain.state (sent.map Sent.call) := by
  induction sent generalizing chain with
  | nil => rfl
  | cons first rest ih =>
    simp only [List.map_cons, run_cons]
    rw [ih (h.step _) remembered.2, h.step_state self first remembered.1]

/-! ## Global state survives, but for the averages -/

/-- Along a run the constructors read back all that was held exactly when memory holds the averages.
A field that no action assigns then carries over, and one that is no average does in any case. -/
theorem globals_survive (e : DoubleBits D) (s : State D) (typed : s.globals.Typed)
    (is : List (Invocation D)) :
    (Along (Chain.step e) (ReadBack e) (.ended e s) is ↔
      Along (Chain.step e) Remembered (.ended e s) is) ∧
    ∀ {α : Type} (field : Globals D → α), (∀ i ∈ is, i.Leaves field) →
      (Along (Chain.step e) Remembered (.ended e s) is ∨
        ∀ g a, field (g.withAverages a) = field g) →
      field (run (Chain.step e) (.ended e s) is).state.globals = field s.globals := by
  have saved : (Chain.ended e s).Saved e := Chain.saved_ended typed
  constructor
  · apply along_iff_along (P := fun _ _ => True) (I := Chain.Saved e) _ saved (along_true _ _)
    intro chain i h _
    have same : ReadBack e chain i ↔ Remembered chain i := h.readBack_iff
    by_cases remembered : Remembered chain i
    · exact .inl ⟨remembered, same.mpr remembered, h.step i⟩
    · exact .inr ⟨remembered, fun back => remembered (same.mp back)⟩
  · intro α field leaves condition
    have reads : Along (Chain.step e) (fun chain i =>
        field (chain.state.globals.withAverages i.memory.averages) = field chain.state.globals)
        (.ended e s) is := by
      cases condition with
      | inl remembered =>
        apply along_mono _ remembered
        intro chain i same
        have read : chain.state.globals.withAverages i.memory.averages = chain.state.globals :=
          Globals.withAverages_eq_iff.mpr same
        rw [read]
      | inr stored => exact along_mono (fun _ _ _ => stored _ _) (along_true _ _)
    exact saved.carries leaves reads

section

open Sample

/-- Words for doubles. -/
def words : DoubleBits UInt64 :=
  ⟨UInt64.toNat, UInt64.ofNat, UInt64.toNat_lt, fun _ => UInt64.ofNat_toNat⟩

def blank (averages : Averages) : State UInt64 where
  voters := ∅
  producers := ∅
  producers2 := ∅
  gstate := (getDefaultParameters words parameters ⟨parameters, averages⟩)
  gstate2 := .fresh words
  gstate3 := .fresh words
  rammarket := none
  userres := ∅
  delband := ∅
  refunds := ∅
  namebids := ∅
  bidrefunds := ∅
  accounts := users
  token := ledger

/-- An action that does nothing, where memory holds `averages`. -/
def idle (averages : Averages) : Invocation UInt64 where
  parameters := parameters
  memory := ⟨parameters, averages⟩
  body := pure
  typed hs h := by
    cases h
    exact hs

def priced : Averages := ⟨7, 5, 3⟩

theorem blank_typed (averages : Averages) : (blank averages).globals.Typed := by
  have base : ∀ m ∈ BlockchainParameters.members, m.Valid parameters := by
    simp only [BlockchainParameters.members, List.forall_mem_cons, List.not_mem_nil,
      false_imp_iff, implies_true, and_true, Codec.member, Codec.uint64, Codec.uint32, Codec.uint16,
      Codec.unsigned]
    decide
  obtain ⟨_, constructed, typed⟩ := construct_first base words ⟨parameters, averages⟩
  cases constructed
  exact typed

/-- The prices are kept while memory holds them, and the size of the RAM in any case. -/
theorem idling_survives :
    Along (Chain.step words) (ReadBack words) (.ended words (blank priced))
        [idle priced, idle priced] ∧
      (run (Chain.step words) (.ended words (blank priced))
        [idle ⟨0, 0, 0⟩, idle priced]).state.globals.gstate.maxRamSize =
        (blank priced).globals.gstate.maxRamSize := by
  have leaves (averages : Averages) : (idle averages).Leaves fun g => g.gstate.maxRamSize := by
    intro s s' h
    cases h
    rfl
  constructor
  · exact (globals_survive words (blank priced) (blank_typed priced) _).1.mpr (by decide +kernel)
  · refine (globals_survive words (blank priced) (blank_typed priced) _).2
      (fun g => g.gstate.maxRamSize) ?_ (.inr fun _ _ => rfl)
    simp only [List.forall_mem_cons, List.not_mem_nil, false_imp_iff, implies_true, and_true]
    exact ⟨leaves _, leaves _⟩

/-- A price held at the end of one action is not what the next one reads. -/
theorem prices_lost :
    (blank priced).gstate.currencyPriceEma = 7 ∧
      ¬ ReadBack words (.ended words (blank priced)) (idle ⟨0, 0, 0⟩) ∧
      (Chain.step words (.ended words (blank priced))
        (idle ⟨0, 0, 0⟩)).state.gstate.currencyPriceEma = 0 := by
  refine ⟨rfl, ?_, by decide +kernel⟩
  rw [(Chain.saved_ended (blank_typed priced)).readBack_iff]
  decide +kernel

end

end DecentralBank.System
