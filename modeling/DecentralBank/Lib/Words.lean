import DecentralBank.Lib.Checked
import Mathlib.Tactic.Linarith

/-!
# Machine words

Fixed-width integers read as integers: a value is wrapped into its word after
each operation of the code, and an integer division traps on a zero divisor.
-/

namespace DecentralBank

/-- The signed 64-bit word congruent to `x`. -/
@[irreducible] def i64 (x : Int) : Int := Int.bmod x (2 ^ 64)

/-- The unsigned 64-bit word congruent to `x`. -/
@[irreducible] def u64 (x : Int) : Nat := (x % 2 ^ 64).toNat

/-- The unsigned 32-bit word congruent to `x`. -/
@[irreducible] def u32 (x : Int) : Nat := (x % 2 ^ 32).toNat

/-- Signed 64-bit division, truncating toward zero. -/
def divI64 (a b : Int) : Checked Int := do
  Checked.require (b ≠ 0) "integer divide by zero"
  Checked.require (¬ (a = -2 ^ 63 ∧ b = -1)) "integer overflow"
  pure (a.tdiv b)

/-- Unsigned 64-bit division. -/
def divU64 (a b : Nat) : Checked Nat := do
  Checked.require (b ≠ 0) "integer divide by zero"
  pure (a / b)

theorem i64_of_lt {x : Int} (lo : -2 ^ 63 ≤ x) (hi : x < 2 ^ 63) : i64 x = x := by
  rw [i64]
  apply Int.bmod_eq_of_le
  · norm_num; exact lo
  · norm_num; exact hi

theorem u64_of_lt {x : Int} (lo : 0 ≤ x) (hi : x < 2 ^ 64) : (u64 x : Int) = x := by
  rw [u64, Int.toNat_of_nonneg (Int.emod_nonneg x (by norm_num)), Int.emod_eq_of_lt lo hi]

theorem u32_of_lt {x : Int} (lo : 0 ≤ x) (hi : x < 2 ^ 32) : (u32 x : Int) = x := by
  rw [u32, Int.toNat_of_nonneg (Int.emod_nonneg x (by norm_num)), Int.emod_eq_of_lt lo hi]

theorem u64_lt (x : Int) : u64 x < 2 ^ 64 := by
  have h := Int.emod_lt_of_pos x (show (0 : Int) < 2 ^ 64 by norm_num)
  have g := Int.emod_nonneg x (show (2 : Int) ^ 64 ≠ 0 by norm_num)
  unfold u64
  omega

theorem u32_lt (x : Int) : u32 x < 2 ^ 32 := by
  have h := Int.emod_lt_of_pos x (show (0 : Int) < 2 ^ 32 by norm_num)
  have g := Int.emod_nonneg x (show (2 : Int) ^ 32 ≠ 0 by norm_num)
  unfold u32
  omega

theorem i64_range (x : Int) : -2 ^ 63 ≤ i64 x ∧ i64 x < 2 ^ 63 := by
  have lo := Int.le_bmod (x := x) (show 0 < 2 ^ 64 by norm_num)
  have hi := Int.bmod_lt (x := x) (show 0 < 2 ^ 64 by norm_num)
  rw [i64]
  omega

theorem u64_of_nonneg {x : Int} (lo : 0 ≤ x) (hi : x < 2 ^ 63) : u64 x = x.toNat := by
  have := u64_of_lt lo (by omega)
  omega

theorem u64_natCast {n : Nat} (h : n < 2 ^ 64) : u64 (n : Int) = n := by
  have := u64_of_lt (x := (n : Int)) (by omega) (by omega)
  omega

theorem u64_congr {x y : Int} (h : x % 2 ^ 64 = y % 2 ^ 64) : u64 x = u64 y := by
  rw [u64, u64, h]

theorem u64_emod (x : Int) : (u64 x : Int) % 2 ^ 64 = x % 2 ^ 64 := by
  have lo := Int.emod_nonneg x (show (2 : Int) ^ 64 ≠ 0 by norm_num)
  rw [u64, Int.toNat_of_nonneg lo, Int.emod_emod_of_dvd x (dvd_refl _)]

theorem u64_i64 (x : Int) : u64 (i64 x) = u64 x := by
  apply u64_congr
  rw [i64]
  exact Int.bmod_emod

theorem i64_congr {x y : Int} (h : x % 2 ^ 64 = y % 2 ^ 64) : i64 x = i64 y := by
  have same : x % ((2 ^ 64 : Nat) : Int) = y % ((2 ^ 64 : Nat) : Int) := by
    norm_num at h ⊢
    exact h
  rw [i64, i64, Int.bmod_def, Int.bmod_def, same]

theorem i64_u64 (x : Int) : i64 (u64 x) = i64 x := i64_congr (u64_emod x)

theorem i64_emod (x : Int) : i64 x % 2 ^ 64 = x % 2 ^ 64 := by
  rw [i64]
  exact Int.bmod_emod

/-- The word of an integer whose lower half it is. -/
theorem i64_of_emod_lt {x : Int} (h : x % 2 ^ 64 < 2 ^ 63) : i64 x = x % 2 ^ 64 := by
  have nonneg := Int.emod_nonneg x (show (2 : Int) ^ 64 ≠ 0 by norm_num)
  rw [← i64_of_lt (by omega) h]
  exact i64_congr (Int.emod_emod_of_dvd x (dvd_refl _)).symm

/-- A wrapped word is off by a multiple of `2^64`. -/
theorem i64_eq_sub (x : Int) : ∃ k, i64 x = x - 2 ^ 64 * k := by
  refine ⟨(x - i64 x) / 2 ^ 64, ?_⟩
  have same := i64_emod x
  omega

/-- Truncation stays within one divisor of the dividend. -/
theorem tdiv_within (a : Int) {b : Int} (hb : 0 < b) : |a - a.tdiv b * b| < b := by
  rw [Int.tdiv_mul_self, sub_sub_cancel, abs_lt]
  exact ⟨Int.lt_tmod_of_pos a hb, Int.tmod_lt_of_pos a hb⟩

/-! Words wrapped on the way to a word make no difference to it. -/

@[simp] theorem i64_add_i64 (x y : Int) : i64 (i64 x + y) = i64 (x + y) :=
  i64_congr (by rw [Int.add_emod, i64_emod, ← Int.add_emod])

@[simp] theorem i64_sub_i64 (x y : Int) : i64 (i64 x - y) = i64 (x - y) :=
  i64_congr (by rw [Int.sub_emod, i64_emod, ← Int.sub_emod])

@[simp] theorem i64_add_i64_right (x y : Int) : i64 (x + i64 y) = i64 (x + y) :=
  i64_congr (by rw [Int.add_emod, i64_emod, ← Int.add_emod])

@[simp] theorem i64_sub_i64_right (x y : Int) : i64 (x - i64 y) = i64 (x - y) :=
  i64_congr (by rw [Int.sub_emod, i64_emod, ← Int.sub_emod])

@[simp] theorem i64_sub_u64_left (x y : Int) : i64 ((u64 x : Int) - y) = i64 (x - y) :=
  i64_congr (by rw [Int.sub_emod, u64_emod, ← Int.sub_emod])

@[simp] theorem i64_sub_u64 (x y : Int) : i64 (x - (u64 y : Int)) = i64 (x - y) :=
  i64_congr (by rw [Int.sub_emod, u64_emod, ← Int.sub_emod])

@[simp] theorem u64_add_u64 (x y : Int) : u64 ((u64 x : Int) + y) = u64 (x + y) :=
  u64_congr (by rw [Int.add_emod, u64_emod, ← Int.add_emod])

@[simp] theorem u64_add_i64 (x y : Int) : u64 (x + i64 y) = u64 (x + y) :=
  u64_congr (by rw [Int.add_emod, i64_emod, ← Int.add_emod])

theorem divI64_pos {a b : Int} (ha : 0 ≤ a) (hb : 0 < b) : divI64 a b = .ok (a / b) := by
  have divides : b ≠ 0 := by omega
  have safe : ¬ (a = -2 ^ 63 ∧ b = -1) := by omega
  simp only [divI64, Checked.bind_eq_ok, Checked.require_eq_ok, Checked.pure_eq_ok, exists_const]
  exact ⟨divides, safe, Int.tdiv_eq_ediv_of_nonneg ha⟩

end DecentralBank
