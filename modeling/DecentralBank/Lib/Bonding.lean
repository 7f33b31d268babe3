import Mathlib.Analysis.SpecialFunctions.Pow.Real

/-!
# Bonding curves

Two reserves are traded against each other through a token of a fixed supply:
what is put into one reserve issues tokens, which release part of the other.
Rounding what is issued and what is released never takes from the product of
the reserves.
-/

namespace DecentralBank.Bonding

variable {supply balance other input weight issue out : ℝ}

/-- What `input` issues to a reserve that holds `balance`. -/
noncomputable def issued (supply balance input weight : ℝ) : ℝ :=
  supply * ((1 + input / (balance + input)) ^ weight - 1)

/-- What `issue` releases from a reserve that holds `other`. -/
noncomputable def released (supply other issue weight : ℝ) : ℝ :=
  other * ((1 + issue / supply) ^ (1 / weight) - 1)

/-- The part of a reserve that is put in. -/
theorem share_nonneg (held : 0 < balance) (least : 0 ≤ input) : 0 ≤ input / (balance + input) :=
  div_nonneg least (by linarith)

theorem share_le_one (held : 0 < balance) (least : 0 ≤ input) : input / (balance + input) ≤ 1 :=
  (div_le_one (by linarith)).mpr (by linarith)

theorem issued_nonneg (minted : 0 < supply) (held : 0 < balance) (least : 0 ≤ input)
    (weighs : 0 < weight) : 0 ≤ issued supply balance input weight := by
  have grown := Real.one_le_rpow (x := 1 + input / (balance + input))
    (by linarith [share_nonneg held least]) weighs.le
  exact mul_nonneg minted.le (by linarith)

/-- No trade issues more than there is, if the weight is at most one. -/
theorem issued_le (minted : 0 < supply) (held : 0 < balance) (least : 0 ≤ input)
    (most : weight ≤ 1) : issued supply balance input weight ≤ supply := by
  have share := share_nonneg held least
  have half := share_le_one held least
  have grown : (1 + input / (balance + input)) ^ weight ≤ 2 := by
    calc (1 + input / (balance + input)) ^ weight
        ≤ (1 + input / (balance + input)) ^ (1 : ℝ) :=
          Real.rpow_le_rpow_of_exponent_le (by linarith) most
      _ ≤ 2 := by rw [Real.rpow_one]; linarith
  calc supply * ((1 + input / (balance + input)) ^ weight - 1)
      ≤ supply * 1 := mul_le_mul_of_nonneg_left (by linarith) minted.le
    _ = supply := mul_one supply

theorem released_nonneg (minted : 0 < supply) (held : 0 ≤ other) (least : 0 ≤ issue)
    (weighs : 0 < weight) : 0 ≤ released supply other issue weight := by
  have grown := Real.one_le_rpow (x := 1 + issue / supply) (z := 1 / weight)
    (by linarith [div_nonneg least minted.le]) (one_div_pos.mpr weighs).le
  exact mul_nonneg held (by linarith)

/-- What is issued, or less, releases the share that was put in, or less. -/
theorem released_le (minted : 0 < supply) (held : 0 < balance) (others : 0 ≤ other)
    (least : 0 ≤ input) (weighs : 0 < weight) (some : 0 ≤ issue)
    (rounded : issue ≤ issued supply balance input weight) :
    released supply other issue weight ≤ other * (input / (balance + input)) := by
  have share := share_nonneg held least
  have base : 1 + issue / supply ≤ (1 + input / (balance + input)) ^ weight := by
    have part : issue / supply ≤ (1 + input / (balance + input)) ^ weight - 1 :=
      (div_le_iff₀' minted).mpr rounded
    linarith
  have back : (1 + issue / supply) ^ (1 / weight) ≤ 1 + input / (balance + input) := by
    calc (1 + issue / supply) ^ (1 / weight)
        ≤ ((1 + input / (balance + input)) ^ weight) ^ (1 / weight) :=
          Real.rpow_le_rpow (by linarith [div_nonneg some minted.le]) base
            (one_div_pos.mpr weighs).le
      _ = 1 + input / (balance + input) := by
        rw [← Real.rpow_mul (by linarith), mul_one_div_cancel weighs.ne', Real.rpow_one]
  exact mul_le_mul_of_nonneg_left (by linarith) others

/-- A trade that releases no more than the share that was put in keeps the product. -/
theorem product_kept (held : 0 < balance) (least : 0 ≤ input)
    (part : out ≤ other * (input / (balance + input))) :
    balance * other ≤ (balance + input) * (other - out) := by
  have whole : 0 < balance + input := by linarith
  have least := mul_le_mul_of_nonneg_left part whole.le
  have share : (balance + input) * (other * (input / (balance + input))) = other * input := by
    field_simp
  linarith

/-- Something is left of a reserve. -/
theorem released_lt (held : 0 < balance) (others : 0 < other) (least : 0 ≤ input)
    (part : out ≤ other * (input / (balance + input))) : out < other := by
  have less : input / (balance + input) < 1 := (div_lt_one (by linarith)).mpr (by linarith)
  calc out ≤ other * (input / (balance + input)) := part
    _ < other * 1 := mul_lt_mul_of_pos_left less others
    _ = other := mul_one other

end DecentralBank.Bonding
