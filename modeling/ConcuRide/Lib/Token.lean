import Mathlib.Data.Nat.Notation
import Mathlib.Tactic.TypeStar

set_option autoImplicit false

/-! # One token

Places of any kind, each with a number of tokens. A step that moves tokens between two places, or
loses some, keeps the number of all tokens at one or less. -/

namespace Lib

variable {ι : Type*}

theorem countP_cons_toNat {α : Type*} (P : α → Bool) (x : α) (l : List α) :
    (x :: l).countP P = l.countP P + (P x).toNat := by
  rw [List.countP_cons]
  cases P x <;> rfl

/-- There is at most one token in all places. -/
structure AtMostOne (load : ι → ℕ) : Prop where
  le_one : ∀ p, load p ≤ 1
  alone : ∀ p q, p ≠ q → load p = 0 ∨ load q = 0

namespace AtMostOne

variable {load load' : ι → ℕ} {p q : ι}

theorem others (h : AtMostOne load) (hp : load p ≠ 0) (hne : q ≠ p) : load q = 0 :=
  (h.alone q p hne).resolve_right hp

/-- One place may hold a token when no other does. -/
theorem single (hp : load p ≤ 1) (h : ∀ q, q ≠ p → load q = 0) : AtMostOne load where
  le_one := fun q => by
    by_cases hq : q = p
    · exact hq ▸ hp
    · rw [h q hq]
      exact Nat.zero_le 1
  alone := fun x y hne => by
    by_cases hx : x = p
    · exact .inr (h y fun hy => hne (hx.trans hy.symm))
    · exact .inl (h x hx)

/-- Tokens may get lost. -/
theorem mono (h : AtMostOne load) (hle : ∀ p, load' p ≤ load p) : AtMostOne load' where
  le_one := fun p => Nat.le_trans (hle p) (h.le_one p)
  alone := fun x y hne => by
    have hx := hle x
    have hy := hle y
    rcases h.alone x y hne with hzero | hzero
    · exact .inl (by omega)
    · exact .inr (by omega)

/-- Tokens may move between two places. -/
theorem move (h : AtMostOne load) (hne : p ≠ q) (hsum : load' p + load' q ≤ load p + load q)
    (hoff : ∀ x, x ≠ p → x ≠ q → load' x ≤ load x) : AtMostOne load' := by
  have hone : load p + load q ≤ 1 := by
    have hp := h.le_one p
    have hq := h.le_one q
    rcases h.alone p q hne with hzero | hzero <;> omega
  by_cases hzero : load p + load q = 0
  · refine h.mono fun x => ?_
    by_cases hxp : x = p
    · rw [hxp]
      omega
    · by_cases hxq : x = q
      · rw [hxq]
        omega
      · exact hoff x hxp hxq
  · -- the token is in one of the two places, so that all the others are empty
    have hempty : ∀ x, x ≠ p → x ≠ q → load' x = 0 := fun x hxp hxq => by
      have hle := hoff x hxp hxq
      have hx := h.alone x p hxp
      have hx' := h.alone x q hxq
      omega
    by_cases hp : load' p = 0
    · refine @single _ _ q (by omega) fun x hxq => ?_
      by_cases hxp : x = p
      · rw [hxp, hp]
      · exact hempty x hxp hxq
    · refine @single _ _ p (by omega) fun x hxp => ?_
      by_cases hxq : x = q
      · rw [hxq]
        omega
      · exact hempty x hxp hxq

end AtMostOne

/-- There is exactly one token in all places. -/
structure ExactlyOne (load : ι → ℕ) : Prop where
  atMost : AtMostOne load
  exists_pos : ∃ p, load p ≠ 0

namespace ExactlyOne

variable {load load' : ι → ℕ} {p q : ι}

/-- The token is in the only place that may hold one. -/
theorem of_single (hp : load p = 1) (h : ∀ q, q ≠ p → load q = 0) : ExactlyOne load where
  atMost := .single (Nat.le_of_eq hp) h
  exists_pos := ⟨p, by rw [hp]; exact Nat.one_ne_zero⟩

theorem congr (h : ExactlyOne load) (heq : ∀ p, load' p = load p) : ExactlyOne load' := by
  obtain rfl : load' = load := funext heq
  exact h

/-- A token moves between two places. -/
theorem move (h : ExactlyOne load) (hne : p ≠ q) (hsum : load' p + load' q = load p + load q)
    (hoff : ∀ x, x ≠ p → x ≠ q → load' x = load x) : ExactlyOne load' where
  atMost := h.atMost.move hne (Nat.le_of_eq hsum) fun x hp hq => Nat.le_of_eq (hoff x hp hq)
  exists_pos := by
    obtain ⟨x, hx⟩ := h.exists_pos
    by_cases hp : load' p = 0
    · by_cases hq : load' q = 0
      · -- neither of the two has it, and so neither had it before
        refine ⟨x, ?_⟩
        rwa [hoff x (fun hxp => hx (by rw [hxp]; omega)) (fun hxq => hx (by rw [hxq]; omega))]
      · exact ⟨q, hq⟩
    · exact ⟨p, hp⟩

/-- When all the other places are empty the token is in this one. -/
theorem eq_one (h : ExactlyOne load) (hothers : ∀ q, q ≠ p → load q = 0) : load p = 1 := by
  obtain ⟨x, hx⟩ := h.exists_pos
  obtain rfl : x = p := Classical.byContradiction fun hne => hx (hothers x hne)
  have hle := h.atMost.le_one x
  omega

end ExactlyOne

end Lib
