import Mathlib.Algebra.BigOperators.Group.Finset.Basic
import Mathlib.Algebra.BigOperators.Group.List.Basic
import Mathlib.Algebra.GroupWithZero.Nat
import ConcuRide.Lib.Run

set_option autoImplicit false

/-! # Runs that are paid for

A state has a potential, and some steps cost something. When every step pays its cost out of the
potential, no run costs more than the potential it begins with, whatever happens between the steps
that cost something. The potential is a sum over what the parts of a state hold. -/

namespace Lib

section

variable {σ ℓ : Type} (step : σ → ℓ → Option σ) (cost : σ → ℓ → ℕ)

/-- What the steps of a run cost. -/
def spent : σ → List ℓ → ℕ
  | _, [] => 0
  | s, l :: ls => cost s l + (step s l).elim 0 fun t => spent t ls

variable {step cost} {ok : σ → ℓ → Prop} {s t : σ} {ls : List ℓ}

/-- **Potential rule.** When every step pays for itself, the potential pays for the run. -/
theorem Run.spent_le {I : σ → Prop} {potential : σ → ℕ}
    (hinv : ∀ s l t, I s → ok s l → step s l = some t → I t)
    (hpay : ∀ s l t, I s → ok s l → step s l = some t → potential t + cost s l ≤ potential s)
    (h : Run step ok s ls t) (hs : I s) :
    potential t + spent step cost s ls ≤ potential s := by
  induction h with
  | nil s => exact Nat.le_refl _
  | @cons s t u l ls hok hstep _ ih =>
      have hrest := ih (hinv s l t hs hok hstep)
      have hfirst := hpay s l t hs hok hstep
      rw [spent, hstep, Option.elim_some]
      omega

/-- The same for a run whose labels bring something: it is no longer than its potential and what
    they bring. -/
theorem Run.length_le {I : σ → Prop} {f : σ → ℕ} {brings : ℓ → ℕ}
    (hinv : ∀ s l t, I s → ok s l → step s l = some t → I t)
    (hpay : ∀ s l t, I s → ok s l → step s l = some t → f t + 1 ≤ f s + brings l)
    (h : Run step ok s ls t) (hs : I s) :
    f t + ls.length ≤ f s + (ls.map brings).sum := by
  induction h with
  | nil s => exact Nat.le_refl _
  | @cons s t u l ls hok hstep _ ih =>
      have hrest := ih (hinv s l t hs hok hstep)
      have hfirst := hpay s l t hs hok hstep
      rw [List.length_cons, List.map_cons, List.sum_cons]
      omega

end

/-! ## Sums over what is held -/

variable {α ι : Type}

/-- What is taken out of a list is not counted any more. -/
theorem sum_map_eraseIdx (f : α → ℕ) {l : List α} {i : ℕ} {a : α} (h : l[i]? = some a) :
    ((l.eraseIdx i).map f).sum + f a = (l.map f).sum := by
  induction l generalizing i with
  | nil => cases h
  | cons b l ih =>
      cases i with
      | zero =>
          obtain rfl := Option.some.inj h
          rw [List.eraseIdx_cons_zero, List.map_cons, List.sum_cons, Nat.add_comm]
      | succ i =>
          have hrest := ih h
          rw [List.eraseIdx_cons_succ, List.map_cons, List.map_cons, List.sum_cons, List.sum_cons]
          omega

/-- When a single summand changes, so does the sum. -/
theorem sum_add_of_eq_others [DecidableEq ι] {L : Finset ι} {f g : ι → ℕ} {i : ι} (hi : i ∈ L)
    (h : ∀ k ∈ L, k ≠ i → g k = f k) : L.sum g + f i = L.sum f + g i := by
  have hrest : (L.erase i).sum g = (L.erase i).sum f :=
    Finset.sum_congr rfl fun k hk => h k (Finset.mem_of_mem_erase hk) (Finset.ne_of_mem_erase hk)
  have hf : f i + (L.erase i).sum f = L.sum f := Finset.add_sum_erase L f hi
  have hg : g i + (L.erase i).sum g = L.sum g := Finset.add_sum_erase L g hi
  omega

end Lib
