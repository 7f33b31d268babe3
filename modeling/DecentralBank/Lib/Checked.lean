import DecentralBank.Lib.Table

/-!
# Programs that check

Fallible code is `Except String`: a failed check stops it with the text of the
failure. The lemmas read a successful run back, one bind at a time.
-/

namespace DecentralBank

abbrev Checked (α : Type) := Except String α

namespace Checked

variable {α β K V : Type}

/-- Go on if `p` holds, else stop with `message`. -/
def require (p : Prop) [Decidable p] (message : String) : Checked Unit :=
  if p then .ok () else .error message

/-- The row at `k`, or stop with `message`. -/
def find [DecidableEq K] (t : Table K V) (k : K) (message : String) : Checked V :=
  match t.lookup k with
  | some v => .ok v
  | none => .error message

@[simp] theorem bind_eq_ok {x : Checked α} {f : α → Checked β} {b : β} :
    (x >>= f) = .ok b ↔ ∃ a, x = .ok a ∧ f a = .ok b := by
  cases x <;> simp [bind, Except.bind]

@[simp] theorem pure_eq_ok {a b : α} : (pure a : Checked α) = .ok b ↔ a = b := by
  simp [pure, Except.pure]

@[simp] theorem map_eq_ok {x : Checked α} {f : α → β} {b : β} :
    (f <$> x) = .ok b ↔ ∃ a, x = .ok a ∧ f a = b := by
  cases x <;> simp [Functor.map, Except.map]

@[simp] theorem require_eq_ok {p : Prop} [Decidable p] {message : String} {u : Unit} :
    require p message = .ok u ↔ p := by
  unfold require
  split <;> simp_all

@[simp] theorem find_eq_ok [DecidableEq K] {t : Table K V} {k : K} {message : String} {v : V} :
    find t k message = .ok v ↔ t.lookup k = some v := by
  unfold find
  split <;> simp_all

@[simp] theorem ite_eq_ok {p : Prop} [Decidable p] {x y : Checked α} {a : α} :
    (if p then x else y) = .ok a ↔ (p ∧ x = .ok a) ∨ (¬ p ∧ y = .ok a) := by
  split <;> simp_all

/-! ## Loops -/

section Loops

variable {f : β → α → Checked β} {l : List α} {b b' : β}

/-- What each turn of a loop keeps, the loop keeps. -/
theorem foldlM_keeps {I : β → Prop} (turn : ∀ a ∈ l, ∀ {b b'}, f b a = .ok b' → I b → I b')
    (h : l.foldlM f b = .ok b') (start : I b) : I b' := by
  induction l generalizing b with
  | nil =>
    cases h
    exact start
  | cons a l ih =>
    simp only [List.foldlM_cons, bind_eq_ok] at h
    obtain ⟨next, first, rest⟩ := h
    obtain ⟨here, later⟩ := List.forall_mem_cons.mp turn
    exact ih later rest (here first start)

/-- Every turn of a loop that is over was taken, where what the turns keep held. -/
theorem foldlM_turn {I : β → Prop} (turn : ∀ a ∈ l, ∀ {b b'}, f b a = .ok b' → I b → I b')
    (h : l.foldlM f b = .ok b') (start : I b) : ∀ a ∈ l, ∃ x y, I x ∧ f x a = .ok y := by
  induction l generalizing b with
  | nil => exact nofun
  | cons a l ih =>
    simp only [List.foldlM_cons, bind_eq_ok] at h
    obtain ⟨next, first, rest⟩ := h
    obtain ⟨here, later⟩ := List.forall_mem_cons.mp turn
    exact List.forall_mem_cons.mpr ⟨⟨b, next, start, first⟩, ih later rest (here first start)⟩

/-- What each turn of a loop adds up, the loop adds up. -/
theorem foldlM_sum {g : β → Int} {w : α → Int}
    (turn : ∀ a ∈ l, ∀ {b b'}, f b a = .ok b' → g b' = g b + w a)
    (h : l.foldlM f b = .ok b') : g b' = g b + (l.map w).sum := by
  induction l generalizing b with
  | nil =>
    cases h
    simp
  | cons a l ih =>
    simp only [List.foldlM_cons, bind_eq_ok] at h
    obtain ⟨next, first, rest⟩ := h
    obtain ⟨here, later⟩ := List.forall_mem_cons.mp turn
    rw [ih later rest, here first, List.map_cons, List.sum_cons]
    omega

end Loops

theorem isOk_iff {x : Checked α} : x.isOk = true ↔ ∃ a, x = .ok a := by
  cases x <;> simp [Except.isOk, Except.toBool]

/-! ## What a program fails with -/

/-- If `x` fails, it fails with a message in `P`. -/
def FailsOnly (P : String → Prop) (x : Checked α) : Prop := ∀ e, x = .error e → P e

/-- The message of a failed program. -/
def failure : Checked α → Option String
  | .ok _ => none
  | .error message => some message

theorem failure_eq_some {x : Checked α} {message : String} :
    failure x = some message ↔ x = .error message := by
  cases x <;> simp [failure]

section Failures

variable {P : String → Prop}

@[simp] theorem failsOnly_ok (a : α) : FailsOnly P (.ok a : Checked α) := nofun

@[simp] theorem failsOnly_pure (a : α) : FailsOnly P (pure a : Checked α) := nofun

@[simp] theorem failsOnly_error {message : String} :
    FailsOnly P (.error message : Checked α) ↔ P message := by
  constructor
  · intro h
    exact h message rfl
  · rintro h e same
    cases same
    exact h

@[simp] theorem failsOnly_bind {x : Checked α} {f : α → Checked β} :
    FailsOnly P (x >>= f) ↔ FailsOnly P x ∧ ∀ a, x = .ok a → FailsOnly P (f a) := by
  cases x with
  | error e => simp [bind, Except.bind]
  | ok a => simp [bind, Except.bind]

@[simp] theorem failsOnly_map {x : Checked α} {f : α → β} :
    FailsOnly P (f <$> x) ↔ FailsOnly P x := by
  cases x with
  | error e => simp [Functor.map, Except.map]
  | ok a => simp [Functor.map, Except.map]

@[simp] theorem failsOnly_require {p : Prop} [Decidable p] {message : String} :
    FailsOnly P (require p message) ↔ p ∨ P message := by
  unfold require
  split <;> simp_all

@[simp] theorem failsOnly_find [DecidableEq K] {t : Table K V} {k : K} {message : String} :
    FailsOnly P (find t k message) ↔ (∃ v, t.lookup k = some v) ∨ P message := by
  unfold find
  split <;> simp_all

@[simp] theorem failsOnly_ite {p : Prop} [Decidable p] {x y : Checked α} :
    FailsOnly P (if p then x else y) ↔ (p → FailsOnly P x) ∧ (¬ p → FailsOnly P y) := by
  split <;> simp_all

theorem FailsOnly.bind {x : Checked α} {f : α → Checked β} (first : FailsOnly P x)
    (rest : ∀ a, x = .ok a → FailsOnly P (f a)) : FailsOnly P (x >>= f) :=
  failsOnly_bind.mpr ⟨first, rest⟩

/-- Past a check that holds. -/
theorem FailsOnly.check {p : Prop} [Decidable p] {message : String} {f : Unit → Checked β} (h : p)
    (rest : FailsOnly P (f ())) : FailsOnly P (require p message >>= f) :=
  .bind (failsOnly_require.mpr (Or.inl h)) fun _ _ => rest

/-- Past a row that is there. -/
theorem FailsOnly.row [DecidableEq K] {t : Table K V} {k : K} {message : String} {v : V}
    {f : V → Checked β} (found : t.lookup k = some v) (rest : FailsOnly P (f v)) :
    FailsOnly P (find t k message >>= f) := by
  refine .bind (failsOnly_find.mpr (Or.inl ⟨v, found⟩)) fun u stood => ?_
  cases found.symm.trans (find_eq_ok.mp stood)
  exact rest

/-- A loop fails with what its turns fail with. -/
theorem failsOnly_foldlM {f : β → α → Checked β} (turn : ∀ b a, FailsOnly P (f b a)) (l : List α)
    (b : β) : FailsOnly P (l.foldlM f b) := by
  induction l generalizing b with
  | nil => simp
  | cons a l ih =>
    rw [List.foldlM_cons, failsOnly_bind]
    exact ⟨turn b a, fun b' _ => ih b'⟩

/-- A loop whose turns keep `I` fails with what they fail with while it holds. -/
theorem failsOnly_foldlM_of {f : β → α → Checked β} {I : β → Prop} {l : List α}
    (turn : ∀ b, I b → ∀ a ∈ l, FailsOnly P (f b a) ∧ ∀ b', f b a = .ok b' → I b') {b : β}
    (start : I b) : FailsOnly P (l.foldlM f b) := by
  induction l generalizing b with
  | nil => simp
  | cons a l ih =>
    rw [List.foldlM_cons]
    obtain ⟨first, kept⟩ := turn b start a List.mem_cons_self
    exact .bind first fun b' done =>
      ih (fun b before a later => turn b before a (List.mem_cons_of_mem _ later)) (kept b' done)

/-- A program that is not refused for a reason in `P`, and fails with no other, succeeds. -/
theorem FailsOnly.succeeds {x : Checked α} (h : FailsOnly P x)
    (admitted : ∀ e, x = .error e → ¬ P e) : ∃ a, x = .ok a := by
  cases x with
  | error e => exact absurd (h e rfl) (admitted e rfl)
  | ok a => exact ⟨a, rfl⟩

end Failures

end Checked

end DecentralBank
