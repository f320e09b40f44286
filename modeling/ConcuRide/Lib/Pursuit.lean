import Mathlib.Algebra.Order.Group.Int
import Mathlib.Data.Int.Order.Basic
import Mathlib.Logic.Function.Iterate

set_option autoImplicit false

/-! # A pursuit on the integer line

A pursuer that moves by one in every step: up while it is below its target, and down otherwise, at
the target included. It reaches the target after as many steps as it is away from it, and from then
on alternates between the target and the point below. -/

namespace Lib

/-- One step of the pursuit of `t`. -/
def pursue (t x : ℤ) : ℤ := if x < t then x + 1 else x - 1

variable {t x : ℤ} {n : ℕ}

/-- The pursuer never gets further down than the point below the target, unless it starts there. -/
theorem le_pursue_iterate (t x : ℤ) (n : ℕ) : min x (t - 1) ≤ (pursue t)^[n] x := by
  induction n generalizing x with
  | zero => exact min_le_left _ _
  | succ n ih =>
      have hstep : min x (t - 1) ≤ min (pursue t x) (t - 1) := by
        unfold pursue
        split <;> omega
      rw [Function.iterate_succ_apply]
      exact hstep.trans (ih _)

/-- **When the pursuer is at the target.** -/
theorem pursue_iterate_eq_target (t x : ℤ) (n : ℕ) :
    (pursue t)^[n] x = t ↔ (t - x).natAbs ≤ n ∧ (n - (t - x).natAbs) % 2 = 0 := by
  induction n generalizing x with
  | zero =>
      rw [Function.iterate_zero_apply]
      omega
  | succ n ih =>
      rw [Function.iterate_succ_apply, ih]
      unfold pursue
      split <;> omega

/-- Down to the target, the pursuer loses one in every step. -/
theorem pursue_iterate_descend (h : (n : ℤ) ≤ x - t + 1) : (pursue t)^[n] x = x - n := by
  induction n generalizing x with
  | zero => simp
  | succ n ih =>
      have hstep : pursue t x = x - 1 := by
        unfold pursue
        split <;> omega
      rw [Function.iterate_succ_apply, hstep, ih (by omega)]
      omega

/-- A pursuit in which nothing is below zero at first goes below zero only when its target is zero,
    at the first step after it has reached it. -/
theorem pursue_iterate_nonneg (hx : 0 ≤ x) (ht : 0 ≤ t) :
    (∀ k ≤ n, 0 ≤ (pursue t)^[k] x) ↔ (t = 0 → (n : ℤ) ≤ x) := by
  constructor
  · rintro h rfl
    by_contra hn
    have hbelow : (pursue 0)^[x.toNat + 1] x = x - (x.toNat + 1 : ℕ) :=
      pursue_iterate_descend (by omega)
    have hge := h (x.toNat + 1) (by omega)
    omega
  · intro h k hk
    by_cases h0 : t = 0
    · subst h0
      have hle := h rfl
      rw [pursue_iterate_descend (by omega)]
      omega
    · have hge := le_pursue_iterate t x k
      omega

end Lib
