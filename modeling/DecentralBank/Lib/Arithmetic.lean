import DecentralBank.Lib.Words

/-!
# Arithmetic of 64-bit words

An expression as C++ evaluates it: every operation has a word and wraps its
result into it. Its exact value is taken in the integers, with division toward
zero. The two agree on all subexpressions exactly when no exact value leaves
its word (`Expr.faithful_iff_fits`).
-/

namespace DecentralBank

inductive Word
  | signed
  | unsigned
  deriving DecidableEq

namespace Word

/-- The value in the word that is congruent to `x`. -/
def wrap : Word → Int → Int
  | .signed, x => i64 x
  | .unsigned, x => u64 x

def Holds : Word → Int → Prop
  | .signed, x => -2 ^ 63 ≤ x ∧ x < 2 ^ 63
  | .unsigned, x => 0 ≤ x ∧ x < 2 ^ 64

theorem wrap_holds (w : Word) (x : Int) : w.Holds (w.wrap x) := by
  cases w with
  | signed =>
    have lo : -((2 ^ 64 : Nat) / 2 : Int) ≤ Int.bmod x (2 ^ 64) := Int.le_bmod (by norm_num)
    have hi : Int.bmod x (2 ^ 64) < (((2 ^ 64 : Nat) : Int) + 1) / 2 := Int.bmod_lt (by norm_num)
    simp only [Holds, wrap, i64]
    norm_num at lo hi ⊢
    omega
  | unsigned =>
    have below := u64_lt x
    simp only [Holds, wrap]
    omega

/-- A value is its own wrap exactly when it fits. -/
theorem wrap_eq_iff (w : Word) (x : Int) : w.wrap x = x ↔ w.Holds x := by
  constructor
  · intro same
    have held := wrap_holds w x
    rwa [same] at held
  · intro held
    cases w with
    | signed => exact i64_of_lt held.1 held.2
    | unsigned => exact u64_of_lt held.1 held.2

end Word

inductive Op
  | add
  | sub
  | mul
  | div
  deriving DecidableEq

namespace Op

def exact : Op → Int → Int → Int
  | .add, x, y => x + y
  | .sub, x, y => x - y
  | .mul, x, y => x * y
  | .div, x, y => x.tdiv y

/-- The operation on two values of the word. -/
def compute : Op → Word → Int → Int → Checked Int
  | .div, .signed, x, y => divI64 x y
  | .div, .unsigned, x, y => do
    Checked.require (y ≠ 0) "integer divide by zero"
    pure (x.tdiv y)
  | o, w, x, y => pure (w.wrap (o.exact x y))

/-- The result fits its word; the only quotient that does not is that of the
least signed word by `-1`. -/
def Fits : Op → Word → Int → Int → Prop
  | .div, .signed, x, y => y ≠ 0 ∧ ¬ (x = -2 ^ 63 ∧ y = -1)
  | .div, .unsigned, _, y => y ≠ 0
  | o, w, x, y => w.Holds (o.exact x y)

theorem compute_eq_exact_iff (o : Op) (w : Word) (x y : Int) :
    o.compute w x y = .ok (o.exact x y) ↔ o.Fits w x y := by
  cases o with
  | div => cases w <;> simp [compute, Fits, exact, divI64]
  | add | sub | mul => simp only [compute, Fits, Checked.pure_eq_ok, Word.wrap_eq_iff]

end Op

inductive Expr
  | value (x : Int)
  | cast (w : Word) (a : Expr)
  | op (o : Op) (w : Word) (a b : Expr)

namespace Expr

/-- What the code computes. -/
def eval : Expr → Checked Int
  | value x => pure x
  | cast w a => do
    let x ← a.eval
    pure (w.wrap x)
  | op o w a b => do
    let x ← a.eval
    let y ← b.eval
    o.compute w x y

/-- What the expression says. -/
def exact : Expr → Int
  | value x => x
  | cast _ a => a.exact
  | op o _ a b => o.exact a.exact b.exact

/-- Every subexpression is computed exactly. -/
def Faithful : Expr → Prop
  | value _ => True
  | cast w a => a.Faithful ∧ (cast w a).eval = .ok (cast w a).exact
  | op o w a b => a.Faithful ∧ b.Faithful ∧ (op o w a b).eval = .ok (op o w a b).exact

/-- No exact value leaves its word, and nothing is divided by zero. -/
def Fits : Expr → Prop
  | value _ => True
  | cast w a => a.Fits ∧ w.Holds a.exact
  | op o w a b => a.Fits ∧ b.Fits ∧ o.Fits w a.exact b.exact

theorem Faithful.eval {e : Expr} (h : e.Faithful) : e.eval = .ok e.exact := by
  cases e with
  | value x => rfl
  | cast w a => exact h.2
  | op o w a b => exact h.2.2

theorem faithful_iff_fits (e : Expr) : e.Faithful ↔ e.Fits := by
  induction e with
  | value x => exact Iff.rfl
  | cast w a ih =>
    rw [Faithful, Fits, ← ih]
    refine and_congr_right fun inner => ?_
    simp only [Expr.eval, Expr.exact, inner.eval, Checked.bind_eq_ok, Checked.pure_eq_ok,
      Except.ok.injEq, exists_eq_left', Word.wrap_eq_iff]
  | op o w a b iha ihb =>
    rw [Faithful, Fits, ← iha, ← ihb]
    refine and_congr_right fun left => and_congr_right fun right => ?_
    simp only [Expr.eval, Expr.exact, left.eval, right.eval, Checked.bind_eq_ok, Except.ok.injEq,
      exists_eq_left', Op.compute_eq_exact_iff]

end Expr

end DecentralBank
