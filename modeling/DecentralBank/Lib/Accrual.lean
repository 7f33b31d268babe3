import Mathlib.Algebra.BigOperators.Ring.Finset
import Mathlib.Algebra.Order.Ring.Defs
import Mathlib.Tactic.Ring
import DecentralBank.Lib.Tally

/-!
# Accounts that accrue

An account earns at a rate since it was last settled, and what it is worth is
computed only when it is settled again. A total that earns at all the rates
together stays worth what the accounts are, though none of them is settled.
-/

namespace DecentralBank.Accrual

structure Account (R : Type) where
  share : R
  rate : R
  since : R

variable {K R : Type} [CommRing R] {total total' : Account R} {keys : Finset K}
  {accounts accounts' : K → Account R} {k : K} {t : R}

/-- What an account is worth when it is settled at `t`. -/
def Account.worth (a : Account R) (t : R) : R := a.share + a.rate * (t - a.since)

theorem Account.worth_later (a : Account R) (t t' : R) :
    a.worth t' = a.worth t + a.rate * (t' - t) := by
  unfold worth
  ring

theorem Account.worth_now (a : Account R) : a.worth a.since = a.share := by
  rw [worth, sub_self, mul_zero, add_zero]

theorem Account.worth_nonneg [PartialOrder R] [IsOrderedRing R] {a : Account R}
    (share : 0 ≤ a.share) (rate : 0 ≤ a.rate) (later : a.since ≤ t) : 0 ≤ a.worth t :=
  add_nonneg share (mul_nonneg rate (sub_nonneg.mpr later))

/-- `total` earns as the accounts do, and is worth what they are at every time. -/
structure Totals (total : Account R) (keys : Finset K) (accounts : K → Account R) : Prop where
  rate : total.rate = ∑ k ∈ keys, (accounts k).rate
  worth : ∀ t, total.worth t = ∑ k ∈ keys, (accounts k).worth t

namespace Totals

/-- It is enough to compare at one time. -/
theorem of_rate (rate : total.rate = ∑ k ∈ keys, (accounts k).rate)
    (worth : total.worth t = ∑ k ∈ keys, (accounts k).worth t) : Totals total keys accounts := by
  refine ⟨rate, fun t' => ?_⟩
  calc total.worth t'
      = (∑ k ∈ keys, (accounts k).worth t) + (∑ k ∈ keys, (accounts k).rate) * (t' - t) := by
        rw [total.worth_later t t', worth, rate]
    _ = ∑ k ∈ keys, (accounts k).worth t' := by
        rw [Finset.sum_mul, ← Finset.sum_add_distrib]
        exact Finset.sum_congr rfl fun k _ => ((accounts k).worth_later t t').symm

/-- Another total that earns as much and is worth as much. -/
theorem congr (h : Totals total keys accounts) (rate : total'.rate = total.rate)
    (worth : total'.worth t = total.worth t) : Totals total' keys accounts :=
  of_rate (rate.trans h.rate) (worth.trans (h.worth t))

theorem nonneg [PartialOrder R] [IsOrderedRing R] (h : Totals total keys accounts)
    (least : ∀ k ∈ keys, 0 ≤ (accounts k).worth t) : 0 ≤ total.worth t := by
  rw [h.worth]
  exact Finset.sum_nonneg least

theorem rate_nonneg [PartialOrder R] [IsOrderedRing R] (h : Totals total keys accounts)
    (least : ∀ k ∈ keys, 0 ≤ (accounts k).rate) : 0 ≤ total.rate := by
  rw [h.rate]
  exact Finset.sum_nonneg least

/-- No account is worth more than the total. -/
theorem le [PartialOrder R] [IsOrderedRing R] (h : Totals total keys accounts)
    (least : ∀ k ∈ keys, 0 ≤ (accounts k).worth t) (mem : k ∈ keys) :
    (accounts k).worth t ≤ total.worth t := by
  rw [h.worth]
  exact Finset.single_le_sum (f := fun k => (accounts k).worth t) least mem

variable [DecidableEq K]

/-- One account is settled, or opened. -/
theorem change (h : Totals total keys accounts) (outside : k ∉ keys → accounts k = ⟨0, 0, 0⟩)
    (others : ∀ j, j ≠ k → accounts' j = accounts j)
    (rate : total'.rate = total.rate + ((accounts' k).rate - (accounts k).rate))
    (worth : total'.worth t = total.worth t + ((accounts' k).worth t - (accounts k).worth t)) :
    Totals total' (insert k keys) accounts' := by
  have rates : ∑ j ∈ insert k keys, (accounts' j).rate =
      ∑ j ∈ keys, (accounts j).rate + ((accounts' k).rate - (accounts k).rate) :=
    Tally.sum_change (fun out => by rw [outside out]) fun j apart => by rw [others j apart]
  have worths : ∑ j ∈ insert k keys, (accounts' j).worth t =
      ∑ j ∈ keys, (accounts j).worth t + ((accounts' k).worth t - (accounts k).worth t) :=
    Tally.sum_change (fun out => by rw [outside out, Account.worth, zero_mul, add_zero])
      fun j apart => by rw [others j apart]
  exact of_rate (by rw [rate, h.rate, rates]) (by rw [worth, h.worth, worths])

end Totals

end DecentralBank.Accrual
