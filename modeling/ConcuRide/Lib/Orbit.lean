import Mathlib.Data.List.Iterate
import Mathlib.Logic.Function.Iterate

set_option autoImplicit false

/-! # Laps of a closed orbit

A function that is back at its start after `n` steps walks the same `n` points from wherever on this
orbit it starts: a lap from another point is the first lap, turned. -/

namespace Lib

variable {α : Type*} {f : α → α} {a b : α} {n : ℕ} {before after : List α}

/-- A lap that starts one step later ends where the first one has started. -/
theorem iterate_next {rest : List α} (hback : f^[n] a = a) (h : List.iterate f a n = b :: rest) :
    List.iterate f (f a) n = rest ++ [a] := by
  cases n with
  | zero => simp at h
  | succ n =>
      rw [List.iterate, List.cons.injEq] at h
      have hlast : f^[n] (f a) = a := by rwa [← Function.iterate_succ_apply]
      rw [List.iterate_add, h.2, hlast]
      rfl

theorem iterate_back (hback : f^[n] a = a) : f^[n] (f a) = f a := by
  rw [← Function.iterate_succ_apply, Function.iterate_succ_apply', hback]

/-- **A lap that starts after `b`** has the points after `b` first, then those before `b`, and `b`
    itself at the end. -/
theorem iterate_turn (hback : f^[n] a = a) (h : List.iterate f a n = before ++ b :: after) :
    List.iterate f (f b) n = after ++ before ++ [b] := by
  induction before generalizing a after with
  | nil =>
      have hb : b = a := by
        cases n with
        | zero => simp at h
        | succ n => exact (List.cons.inj h).1.symm
      rw [List.append_nil, hb]
      exact iterate_next hback h
  | cons x before ih =>
      have hx : x = a := by
        cases n with
        | zero => simp at h
        | succ n => exact (List.cons.inj h).1.symm
      have hnext : List.iterate f (f a) n = before ++ b :: (after ++ [a]) := by
        simpa using iterate_next hback h
      rw [ih (iterate_back hback) hnext, hx]
      simp

end Lib
