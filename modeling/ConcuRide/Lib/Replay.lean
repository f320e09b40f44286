import Mathlib.Data.List.Basic

set_option autoImplicit false

/-! # Replaying a history

A source takes a value at every moment, and `hist` lists the states in which it took them, the
oldest first: `holds s x` says that the value is `x` in state `s`. A follower gets some of these
values, later and one after the other. `Replays holds hist k xs` says that the values `xs` it is
still to get were taken at moments that are not before `k`, and in this order. -/

namespace Lib

variable {σ α : Type} (holds : σ → α → Prop)

/-- The values `xs` were taken in this order, from moment `k` on. -/
inductive Replays (hist : List σ) : ℕ → List α → Prop
  | nil {k : ℕ} : Replays hist k []
  | cons {k j : ℕ} {s : σ} {x : α} {xs : List α} (hle : k ≤ j) (hs : hist[j]? = some s)
      (hx : holds s x) (hrest : Replays hist j xs) : Replays hist k (x :: xs)

variable {holds} {hist : List σ} {k k' : ℕ} {x : α} {xs ys : List α} {s : σ}

theorem Replays.mono (h : Replays holds hist k xs) (hle : k' ≤ k) :
    Replays holds hist k' xs := by
  cases h with
  | nil => exact .nil
  | cons hle' hs hx hrest => exact .cons (Nat.le_trans hle hle') hs hx hrest

/-- A follower may miss some of the values. -/
theorem Replays.sublist (h : Replays holds hist k xs) (hsub : ys.Sublist xs) :
    Replays holds hist k ys := by
  induction h generalizing ys with
  | nil =>
      rw [List.sublist_nil.1 hsub]
      exact .nil
  | cons hle hs hx _ ih =>
      cases hsub with
      | cons _ hsub => exact (ih hsub).mono hle
      | cons_cons _ hsub => exact .cons hle hs hx (ih hsub)

/-- Time passes. -/
theorem Replays.later (h : Replays holds hist k xs) (s : σ) :
    Replays holds (hist ++ [s]) k xs := by
  induction h with
  | nil => exact .nil
  | cons hle hs hx _ ih =>
      obtain ⟨hj, -⟩ := List.getElem?_eq_some_iff.1 hs
      exact .cons hle (by rw [List.getElem?_append_left hj]; exact hs) hx ih

/-- The newest value is sent after all the others. -/
theorem Replays.send (h : Replays holds hist k xs) (hk : k ≤ hist.length) (hx : holds s x) :
    Replays holds (hist ++ [s]) k (xs ++ [x]) := by
  induction h with
  | nil => exact .cons hk (by simp) hx .nil
  | cons hle hs hx' _ ih =>
      obtain ⟨hj, -⟩ := List.getElem?_eq_some_iff.1 hs
      exact .cons hle (by rw [List.getElem?_append_left hj]; exact hs) hx' (ih (Nat.le_of_lt hj))

end Lib
