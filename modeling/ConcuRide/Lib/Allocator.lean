import Mathlib.Data.Set.Function
import Mathlib.Logic.Function.Basic
import Mathlib.Tactic.Common

set_option autoImplicit false

/-! # Allocating identifiers from a counter

A registry hands out identifiers `1, 2, 3, …` to keys, one per key, and never takes one back. This
is the abstract account of such a registry: `Alloc.Step` allows a step to do nothing to the
identifiers or to give the next one to a new key, and every run of such steps keeps them pairwise
distinct and within `1..count`. -/

namespace Lib

variable {κ : Type}

/-- The identifiers given so far and the greatest of them. -/
structure Alloc (κ : Type) where
  ids : κ → Option ℕ
  count : ℕ

namespace Alloc

/-- Identifiers are in `1..count`, and no two keys share one. -/
structure Ok (a : Alloc κ) : Prop where
  range : ∀ k i, a.ids k = some i → 1 ≤ i ∧ i ≤ a.count
  inj : ∀ k k' i, a.ids k = some i → a.ids k' = some i → k = k'

/-- What a step may do: leave the identifiers alone, or give the next one to a new key. -/
inductive Step (a b : Alloc κ) : Prop
  | same (hids : b.ids = a.ids) (hcount : b.count = a.count)
  | give (k : κ) (hnew : a.ids k = none) (hk : b.ids k = some (a.count + 1))
      (hids : ∀ k', k' ≠ k → b.ids k' = a.ids k') (hcount : b.count = a.count + 1)

variable {a b c : Alloc κ}

theorem Ok.empty : Ok { ids := fun _ : κ => none, count := 0 } where
  range := fun k i h => absurd h (by simp)
  inj := fun k k' i h => absurd h (by simp)

theorem Ok.step (h : Ok a) (hs : Step a b) : Ok b := by
  cases hs with
  | same hids hcount =>
      refine ⟨fun k i hi => ?_, fun k k' i hi hi' => ?_⟩
      · rw [hids] at hi
        rw [hcount]
        exact h.range k i hi
      · rw [hids] at hi hi'
        exact h.inj k k' i hi hi'
  | give key hnew hkey hids hcount =>
      -- the new identifier exceeds every old one
      have hold : ∀ k i, k ≠ key → b.ids k = some i → 1 ≤ i ∧ i ≤ a.count := by
        intro k i hk hi
        rw [hids k hk] at hi
        exact h.range k i hi
      refine ⟨fun k i hi => ?_, fun k k' i hi hi' => ?_⟩
      · by_cases hk : k = key
        · subst hk
          obtain rfl := Option.some.inj (hkey.symm.trans hi)
          omega
        · have := hold k i hk hi
          omega
      · by_cases hk : k = key <;> by_cases hk' : k' = key
        · rw [hk, hk']
        · subst hk
          obtain rfl := Option.some.inj (hkey.symm.trans hi)
          have := hold k' _ hk' hi'
          omega
        · subst hk'
          obtain rfl := Option.some.inj (hkey.symm.trans hi')
          have := hold k _ hk hi
          omega
        · rw [hids k hk] at hi
          rw [hids k' hk'] at hi'
          exact h.inj k k' i hi hi'

theorem Step.keeps (hs : Step a b) {k : κ} {i : ℕ} (h : a.ids k = some i) : b.ids k = some i := by
  cases hs with
  | same hids _ => rw [hids]; exact h
  | give key hnew _ hids _ =>
      have hne : k ≠ key := by
        rintro rfl
        exact absurd (hnew.symm.trans h) (by simp)
      rw [hids k hne]
      exact h

theorem Step.count_le (hs : Step a b) : a.count ≤ b.count := by
  cases hs with
  | same _ hcount => omega
  | give _ _ _ _ hcount => omega

/-- A key that gets its identifier in a step gets one above the old count. -/
theorem Step.new_id (hs : Step a b) {k : κ} {i : ℕ} (hold : a.ids k = none)
    (hnew : b.ids k = some i) : i = a.count + 1 ∧ b.count = a.count + 1 := by
  cases hs with
  | same hids _ => rw [hids, hold] at hnew; exact absurd hnew (by simp)
  | give key _ hkey hids hcount =>
      by_cases hk : k = key
      · subst hk
        exact ⟨(Option.some.inj (hkey.symm.trans hnew)).symm, hcount⟩
      · rw [hids k hk, hold] at hnew
        exact absurd hnew (by simp)

theorem Step.ids_eq_of_count (hs : Step a b) (h : b.count = a.count) : b.ids = a.ids := by
  cases hs with
  | same hids _ => exact hids
  | give _ _ _ _ hcount => omega

/-- Two registries of the same keys differ by a bijection of their identifiers. -/
theorem exists_bijOn (ha : Ok a) (hb : Ok b) (hkeys : ∀ k, (a.ids k).isSome = (b.ids k).isSome) :
    ∃ f, Set.BijOn f {i | ∃ k, a.ids k = some i} {i | ∃ k, b.ids k = some i} ∧
      ∀ k, b.ids k = (a.ids k).map f := by
  classical
  -- an identifier goes to the one that its key has in the other registry
  let f : ℕ → ℕ := fun i =>
    if h : ∃ k, a.ids k = some i then (b.ids h.choose).getD 0 else 0
  have hf : ∀ k i, a.ids k = some i → b.ids k = some (f i) := by
    intro k i hi
    have hex : ∃ k, a.ids k = some i := ⟨k, hi⟩
    obtain rfl := ha.inj _ _ _ hex.choose_spec hi
    obtain ⟨j, hj⟩ := Option.isSome_iff_exists.1 ((hkeys hex.choose).symm.trans (by rw [hi]; rfl))
    rw [hj]
    simp only [f, dif_pos hex, hj, Option.getD_some]
  refine ⟨f, ⟨fun i ⟨k, hi⟩ => ⟨k, hf k i hi⟩, fun i ⟨k, hi⟩ j ⟨k', hj⟩ heq => ?_,
    fun j ⟨k, hj⟩ => ?_⟩, fun k => ?_⟩
  · have hk := hf k i hi
    rw [heq] at hk
    obtain rfl := hb.inj _ _ _ hk (hf k' j hj)
    exact Option.some.inj (hi.symm.trans hj)
  · obtain ⟨i, hi⟩ := Option.isSome_iff_exists.1 ((hkeys k).trans (by rw [hj]; rfl))
    exact ⟨i, ⟨k, hi⟩, Option.some.inj ((hf k i hi).symm.trans hj)⟩
  · cases hi : a.ids k with
    | none =>
        have := (hkeys k).symm
        rw [hi] at this
        simpa using this
    | some i => exact hf k i hi

/-! ## Ledgers

A ledger lists the identifiers ever given, whoever gave them. A registry that takes over from
another one may go on giving identifiers if it has not forgotten any key and its counter has reached
all of them. -/

/-- The identifiers of `a` are in the ledger. -/
def Within (a : Alloc κ) (ledger : List (κ × ℕ)) : Prop :=
  ∀ k i, a.ids k = some i → (k, i) ∈ ledger

/-- The counter has reached every identifier of the ledger. -/
def Reaches (a : Alloc κ) (ledger : List (κ × ℕ)) : Prop := ∀ g ∈ ledger, g.2 ≤ a.count

/-- No identifier was given to two keys. -/
def Distinct (ledger : List (κ × ℕ)) : Prop :=
  ∀ k k' i, (k, i) ∈ ledger → (k', i) ∈ ledger → k = k'

variable {ledger new : List (κ × ℕ)}

/-- **A step keeps the ledger in order**, when what it tells is what it holds, and whatever it gives
    is told. -/
theorem Step.keepsLedger (hs : Step a b) (hw : a.Within ledger) (hr : a.Reaches ledger)
    (hd : Distinct ledger) (htold : ∀ g ∈ new, b.ids g.1 = some g.2)
    (hall : ∀ k i, b.ids k = some i → a.ids k = some i ∨ (k, i) ∈ new) :
    b.Within (new ++ ledger) ∧ b.Reaches (new ++ ledger) ∧ Distinct (new ++ ledger) := by
  have hwithin : b.Within (new ++ ledger) := fun k i hi =>
    List.mem_append.2 ((hall k i hi).symm.imp_right (hw k i))
  -- whatever is told was given before, or is the next identifier
  have hnext : ∀ k i, (k, i) ∈ new ++ ledger →
      (k, i) ∈ ledger ∨ (a.ids k = none ∧ b.ids k = some i) := by
    intro k i hmem
    rcases List.mem_append.1 hmem with hmem | hmem
    · cases hk : a.ids k with
      | none => exact .inr ⟨rfl, htold _ hmem⟩
      | some j =>
          have hj := (hs.keeps hk).symm.trans (htold _ hmem)
          obtain rfl := Option.some.inj hj
          exact .inl (hw k j hk)
    · exact .inl hmem
  refine ⟨hwithin, fun g hg => ?_, fun k k' i hk hk' => ?_⟩
  · rcases hnext g.1 g.2 hg with hold | ⟨hnone, hsome⟩
    · exact Nat.le_trans (hr g hold) hs.count_le
    · obtain ⟨hi, hc⟩ := hs.new_id hnone hsome
      omega
  · rcases hnext k i hk with hold | ⟨hnone, hsome⟩ <;>
      rcases hnext k' i hk' with hold' | ⟨hnone', hsome'⟩
    · exact hd k k' i hold hold'
    · have := hr _ hold
      obtain ⟨hi, -⟩ := hs.new_id hnone' hsome'
      simp only at this
      omega
    · have := hr _ hold'
      obtain ⟨hi, -⟩ := hs.new_id hnone hsome
      simp only at this
      omega
    · cases hs with
      | same hids _ =>
          rw [hids, hnone] at hsome
          simp at hsome
      | give key _ _ hids _ =>
          have hkey : ∀ c, a.ids c = none → b.ids c = some i → c = key := by
            intro c hc hci
            by_contra hne
            rw [hids c hne, hc] at hci
            simp at hci
          rw [hkey k hnone hsome, hkey k' hnone' hsome']

end Alloc

end Lib
