import Mathlib.Data.List.TakeWhile
import Mathlib.Tactic.Common

set_option autoImplicit false

/-! # Histories

A history is a list of events, the newest first. `since a h` are the events of `h` after the last
occurrence of `a`. -/

namespace Lib

variable {ε : Type} [DecidableEq ε]

/-- The events after the last occurrence of `a`. -/
def since (a : ε) (h : List ε) : List ε := h.takeWhile fun x => decide (x ≠ a)

variable {a x : ε} {h new : List ε}

@[simp] theorem since_cons_self : since a (a :: h) = [] := by
  simp [since]

/-- As long as `a` does not occur again, everything new is counted. -/
theorem since_append (hnew : a ∉ new) : since a (new ++ h) = new ++ since a h := by
  induction new with
  | nil => rfl
  | cons b new ih =>
      have hb : b ≠ a := fun heq => hnew (heq ▸ List.mem_cons_self)
      have ih' := ih fun ha => hnew (List.mem_cons_of_mem _ ha)
      simp only [since] at ih' ⊢
      rw [List.cons_append, List.takeWhile_cons_of_pos (by simp [hb]), ih', List.cons_append]

/-- What is newer than the last occurrence of `a` is counted. -/
theorem mem_since_of_mem (hx : x ∈ new) (hnew : a ∉ new) : x ∈ since a (new ++ h) := by
  rw [since_append hnew]
  exact List.mem_append_left _ hx

theorem mem_since_append (hx : x ∈ since a h) (hnew : a ∉ new) : x ∈ since a (new ++ h) := by
  rw [since_append hnew]
  exact List.mem_append_right _ hx

/-- Whatever is counted after the addition of `new` is new or was counted before. -/
theorem mem_of_mem_since_append (hx : x ∈ since a (new ++ h)) : x ∈ new ∨ x ∈ since a h := by
  induction new with
  | nil => exact .inr hx
  | cons b new ih =>
      by_cases hb : b = a
      · subst hb
        rw [List.cons_append, since_cons_self] at hx
        simp at hx
      · simp only [since] at ih hx ⊢
        rw [List.cons_append, List.takeWhile_cons_of_pos (by simp [hb])] at hx
        rcases List.mem_cons.1 hx with rfl | hx
        · exact .inl List.mem_cons_self
        · exact (ih hx).imp_left (List.mem_cons_of_mem _)

end Lib
