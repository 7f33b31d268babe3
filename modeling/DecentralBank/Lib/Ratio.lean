import Mathlib.Tactic.Linarith
import Mathlib.Tactic.Ring

/-!
# Ratios that divide first

`a / d * c / n` in integers, as code computes it that must keep its products
small, against the exact ratio `a * c / (d * n)`.
-/

namespace DecentralBank

/-- `a * c` over `d * n`, truncated after each division. -/
def floored (a d c n : Int) : Int := a / d * c / n

variable {a d c n r : Int}

theorem floored_nonneg (ha : 0 ≤ a) (hd : 0 < d) (hc : 0 ≤ c) (hn : 0 < n) : 0 ≤ floored a d c n :=
  Int.ediv_nonneg (mul_nonneg (Int.ediv_nonneg ha hd.le) hc) hn.le

theorem le_floored_iff (hn : 0 < n) : r ≤ floored a d c n ↔ r * n ≤ a / d * c :=
  Int.le_ediv_iff_mul_le hn

/-- Less debt and more collateral never lower the ratio. -/
theorem floored_mono {d' c' : Int} (ha : 0 ≤ a) (hd' : 0 < d') (hd : d' ≤ d) (hc : 0 ≤ c)
    (hc' : c ≤ c') (hn : 0 < n) : floored a d c n ≤ floored a d' c' n := by
  have quotient : a / d ≤ a / d' := by
    rw [Int.le_ediv_iff_mul_le hd']
    have below := Int.ediv_mul_le a (show d ≠ 0 by omega)
    have shrink := mul_le_mul_of_nonneg_left hd (Int.ediv_nonneg ha (show 0 ≤ d by omega))
    omega
  have product : a / d * c ≤ a / d' * c' :=
    mul_le_mul quotient hc' hc (Int.ediv_nonneg ha hd'.le)
  exact Int.ediv_le_ediv hn product

/-- The truncated ratio never exceeds the exact one. -/
theorem mul_le_of_le_floored (hd : 0 < d) (hc : 0 ≤ c) (hn : 0 < n) (h : r ≤ floored a d c n) :
    r * n * d ≤ a * c := by
  have truncated := (le_floored_iff hn).mp h
  have divided := Int.ediv_mul_le a (show d ≠ 0 by omega)
  calc r * n * d ≤ a / d * c * d := mul_le_mul_of_nonneg_right truncated hd.le
    _ = a / d * d * c := by ring
    _ ≤ a * c := mul_le_mul_of_nonneg_right divided hc

/-! ## Sums divided part by part -/

/-- The parts of a sum, each divided by `d` and truncated. -/
def quotients (d : Int) (xs : List Int) : Int := (xs.map (· / d)).sum

/-- What the divisions of the parts leave. -/
def remainders (d : Int) (xs : List Int) : Int := (xs.map (· % d)).sum

@[simp] theorem quotients_cons (d x : Int) (xs : List Int) :
    quotients d (x :: xs) = x / d + quotients d xs := by
  rw [quotients, List.map_cons, List.sum_cons, quotients]

@[simp] theorem remainders_cons (d x : Int) (xs : List Int) :
    remainders d (x :: xs) = x % d + remainders d xs := by
  rw [remainders, List.map_cons, List.sum_cons, remainders]

theorem quotients_mul (d : Int) (xs : List Int) :
    quotients d xs * d = xs.sum - remainders d xs := by
  induction xs with
  | nil => simp [quotients, remainders]
  | cons x xs ih =>
    have split := Int.mul_ediv_add_emod x d
    rw [quotients_cons, remainders_cons, List.sum_cons, add_mul, ih]
    linarith

end DecentralBank
