import Mathlib.Data.Set.Function
import Mathlib.Order.Defs.LinearOrder

set_option autoImplicit false

/-! # Tokens that go around a circle

A token goes around a circle, collects the elements it stops at, and is complete when it returns to
one of them. Elements may disappear while it is under way. The greatest element collected then
bounds everything alive, as long as the token never passes over anything alive that is greater than
all it has collected. -/

namespace Lib

/-- Elements on a circle, and how far it is from one to the next meeting with another. -/
structure Circle (α : Type) where
  elements : Set α
  dist : α → α → ℕ
  /-- the way back to the start is the longest -/
  longest : ∀ x ∈ elements, ∀ y ∈ elements, dist x x ≤ dist x y → y = x
  /-- what lies behind `s` and not before `q` on the way from `s` lies not before `q` on any way
      that leads over `s` -/
  onward : ∀ i ∈ elements, ∀ s ∈ elements, ∀ x ∈ elements, ∀ q ∈ elements,
    dist i s < dist i x → dist s q ≤ dist s x → dist i q ≤ dist i x
  /-- at one distance there is one element -/
  apart : ∀ i ∈ elements, ∀ x ∈ elements, ∀ y ∈ elements, dist i x = dist i y → x = y

namespace Circle

variable {α : Type} [LinearOrder α] {c : Circle α} {alive alive' : α → Prop} {ids : List α}
  {q s x : α}

/-- Element `x` is greater than everything collected. -/
def Above (ids : List α) (x : α) : Prop := ∀ i ∈ ids, i < x

instance (ids : List α) (x : α) : Decidable (Above ids x) :=
  inferInstanceAs (Decidable (∀ i ∈ ids, i < x))

/-- A token with the elements `ids` on its way to `q`: nothing alive above them has been passed. -/
structure Passed (c : Circle α) (alive : α → Prop) (ids : List α) (q : α) : Prop where
  mem : ∀ i ∈ ids, i ∈ c.elements
  ahead : ∀ x ∈ c.elements, alive x → Above ids x → ∀ i ∈ ids, c.dist i q ≤ c.dist i x

/-- A token that `s` was the last to join: nothing alive above its elements has been passed on the
    way to `s`. -/
structure Collected (c : Circle α) (alive : α → Prop) (ids : List α) (s : α) : Prop where
  mem : ∀ i ∈ ids, i ∈ c.elements
  last : s ∈ ids
  ahead : ∀ x ∈ c.elements, alive x → Above ids x → ∀ i ∈ ids, i ≠ s → c.dist i s ≤ c.dist i x

/-- A token starts with the element it is called by. -/
theorem Collected.start (hs : s ∈ c.elements) : c.Collected alive [s] s where
  mem := fun _ hi => List.mem_singleton.1 hi ▸ hs
  last := List.mem_singleton_self s
  ahead := fun _ _ _ _ _ hi hne => absurd (List.mem_singleton.1 hi) hne

/-- A token that is sent on to `q` without passing over anything alive above it. -/
theorem Collected.send (h : c.Collected alive ids s) (hq : q ∈ c.elements)
    (hpass : ∀ x ∈ c.elements, alive x → Above ids x → c.dist s q ≤ c.dist s x) :
    c.Passed alive ids q := by
  refine ⟨h.mem, fun x hx hlive habove i hi => ?_⟩
  by_cases his : i = s
  · exact his ▸ hpass x hx hlive habove
  · have hle := h.ahead x hx hlive habove i hi his
    have hne : c.dist i s ≠ c.dist i x := by
      intro heq
      have hsx := c.apart i (h.mem i hi) s (h.mem s h.last) x hx heq
      exact absurd (habove s h.last) (hsx ▸ lt_irrefl s)
    exact c.onward i (h.mem i hi) s (h.mem s h.last) x hx q hq (lt_of_le_of_ne hle hne)
      (hpass x hx hlive habove)

/-- The element a token arrives at joins it. -/
theorem Passed.collect (h : c.Passed alive ids q) (hq : q ∈ c.elements) :
    c.Collected alive (ids ++ [q]) q where
  mem := fun i hi => (List.mem_append.1 hi).elim (h.mem i) fun hi => List.mem_singleton.1 hi ▸ hq
  last := List.mem_append_right _ (List.mem_singleton_self q)
  ahead := by
    intro x hx hlive habove i hi hne
    have hi : i ∈ ids := (List.mem_append.1 hi).resolve_right fun h => hne (List.mem_singleton.1 h)
    exact h.ahead x hx hlive (fun j hj => habove j (List.mem_append_left _ hj)) i hi

/-- **A complete token bounds everything alive**: once it returns to an element it has collected,
    nothing alive is above it. -/
theorem Passed.complete (h : c.Passed alive ids q) (hq : q ∈ ids) (hx : x ∈ c.elements)
    (hlive : alive x) : ∃ i ∈ ids, x ≤ i := by
  by_contra hnone
  have habove : Above ids x := fun i hi => lt_of_not_ge fun hle => hnone ⟨i, hi, hle⟩
  obtain rfl := c.longest q (h.mem q hq) x hx (h.ahead x hx hlive habove q hq)
  exact lt_irrefl _ (habove _ hq)

/-! Elements may die; one that comes to life must not be above the token. -/

end Circle

/-! ## Hops -/

/-- `y` is reached from `x` in at least one step of a walk along `next`, and no element strictly
    between satisfies `P`. -/
def Hop {α : Type} (next : α → α) (P : α → Prop) (x y : α) : Prop :=
  ∃ j, 0 < j ∧ next^[j] x = y ∧ ∀ m, 0 < m → m < j → ¬ P (next^[m] x)

end Lib
