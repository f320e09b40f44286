import Mathlib.Data.List.Basic
import Mathlib.Order.RelClasses

set_option autoImplicit false

/-! # Runs of a labelled transition function

A system is a partial step function `step : σ → ℓ → Option σ`. `Run step ok s ls t` is a run from
`s` to `t` along the labels `ls` in which every step meets `ok`, a condition on the state before the
step and on its label. `exec` computes runs, so that a concrete run is checked by evaluation. -/

namespace Lib

variable {σ ℓ : Type} (step : σ → ℓ → Option σ)

/-- Runs whose steps all meet `ok`. -/
inductive Run (ok : σ → ℓ → Prop) : σ → List ℓ → σ → Prop
  | nil (s : σ) : Run ok s [] s
  | cons {s t u : σ} {l : ℓ} {ls : List ℓ} (hok : ok s l) (hstep : step s l = some t)
      (hrun : Run ok t ls u) : Run ok s (l :: ls) u

/-- Run the labels one after the other, as long as every step is allowed and possible. -/
def exec (ok : σ → ℓ → Bool) : σ → List ℓ → Option σ
  | s, [] => some s
  | s, l :: ls => if ok s l then (step s l).bind fun t => exec ok t ls else none

variable {step}

theorem run_of_exec {ok : σ → ℓ → Bool} {s t : σ} {ls : List ℓ}
    (h : exec step ok s ls = some t) : Run step (fun s l => ok s l = true) s ls t := by
  induction ls generalizing s with
  | nil =>
      obtain rfl := Option.some.inj h
      exact .nil _
  | cons l ls ih =>
      simp only [exec] at h
      split at h
      · next hok =>
          obtain ⟨u, hu, hrest⟩ := Option.bind_eq_some_iff.1 h
          exact .cons hok hu (ih hrest)
      · exact absurd h (by simp)

/-- A concrete run that ends in a state with property `P`, checked by evaluation. -/
theorem exists_run_of_exec (ok : σ → ℓ → Bool) (s : σ) (ls : List ℓ) (P : σ → Bool)
    (h : (exec step ok s ls).any P = true) :
    ∃ t, Run step (fun s l => ok s l = true) s ls t ∧ P t = true := by
  obtain ⟨t, ht, hP⟩ := Option.any_eq_true _ _ |>.1 h
  exact ⟨t, run_of_exec ht, hP⟩

variable {ok ok' : σ → ℓ → Prop} {s t u : σ} {ls ls' : List ℓ} {l : ℓ}

/-- **Invariant rule.** What every allowed step preserves holds at the end of every run. -/
theorem Run.invariant {P : σ → Prop}
    (hstep : ∀ s l t, P s → ok s l → step s l = some t → P t)
    (h : Run step ok s ls t) (hs : P s) : P t := by
  induction h with
  | nil s => exact hs
  | cons hok hst _ ih => exact ih (hstep _ _ _ hs hok hst)

/-- The invariant rule for what also depends on the labels so far. -/
theorem Run.invariant_labels {P : List ℓ → σ → Prop}
    (hstep : ∀ ls s l t, P ls s → ok s l → step s l = some t → P (ls ++ [l]) t)
    (h : Run step ok s ls t) (hs : P [] s) : P ls t := by
  have key : ∀ pre, P pre s → P (pre ++ ls) t := by
    clear hs
    induction h with
    | nil s => exact fun pre hpre => (List.append_nil pre).symm ▸ hpre
    | @cons s _ _ l ls hok hst _ ih =>
        intro pre hpre
        rw [List.append_cons]
        exact ih _ (hstep pre s l _ hpre hok hst)
  exact key [] hs

theorem Run.mono (himp : ∀ s l, ok s l → ok' s l) (h : Run step ok s ls t) :
    Run step ok' s ls t := by
  induction h with
  | nil s => exact .nil s
  | cons hok hst _ ih => exact .cons (himp _ _ hok) hst ih

/-- The steps of a run carry its labels. -/
theorem Run.mem_labels (h : Run step ok s ls t) : Run step (fun s l => ok s l ∧ l ∈ ls) s ls t := by
  induction h with
  | nil s => exact .nil s
  | cons hok hst _ ih =>
      exact .cons ⟨hok, List.mem_cons_self⟩ hst
        (ih.mono fun _ _ h => ⟨h.1, List.mem_cons_of_mem _ h.2⟩)

/-- Steps that meet `ok` meet `ok'` as well, under an invariant. -/
theorem Run.mono_of_invariant {I : σ → Prop}
    (hinv : ∀ s l t, I s → ok s l → step s l = some t → I t) (himp : ∀ s l, I s → ok s l → ok' s l)
    (h : Run step ok s ls t) (hs : I s) : Run step ok' s ls t := by
  induction h with
  | nil s => exact .nil s
  | cons hok hst _ ih => exact .cons (himp _ _ hs hok) hst (ih (hinv _ _ _ hs hok hst))

/-- **Completion rule.** When an allowed step comes closer to the end, wherever something is left to
    do, the end can be reached. -/
theorem exists_run_to {α : Type} [Preorder α] [WellFoundedLT α] {I Done : σ → Prop}
    {f : σ → α} (hnext : ∀ s, I s → ¬ Done s →
      ∃ l t, ok s l ∧ step s l = some t ∧ I t ∧ f t < f s) (hs : I s) :
    ∃ ls t, Run step ok s ls t ∧ I t ∧ Done t := by
  generalize hf : f s = a
  induction a using WellFoundedLT.induction generalizing s with
  | ind a ih =>
      by_cases hdone : Done s
      · exact ⟨[], s, .nil s, hs, hdone⟩
      · obtain ⟨l, t, hok, hstep, ht, hlt⟩ := hnext s hs hdone
        obtain ⟨ls, u, hrun, hu, hdone⟩ := ih (f t) (hf ▸ hlt) ht rfl
        exact ⟨l :: ls, u, .cons hok hstep hrun, hu, hdone⟩

/-- **Exact conditions.** When a step keeps `P` exactly if it meets `c`, the runs whose steps all
    meet `c` are those in which `P` holds in every state. -/
theorem Run.always_iff {I P : σ → Prop} {c : σ → ℓ → Prop}
    (hinv : ∀ s l t, I s → step s l = some t → I t)
    (hstep : ∀ s l t, I s → P s → step s l = some t → (P t ↔ c s l)) (hI : I s) (hP : P s) :
    Run step (fun s l => ok s l ∧ c s l) s ls t ↔
      Run step (fun s l => ok s l ∧ P s) s ls t ∧ P t := by
  constructor
  · intro h
    induction h with
    | nil s => exact ⟨.nil s, hP⟩
    | cons hok hst _ ih =>
        obtain ⟨hrun, ht⟩ := ih (hinv _ _ _ hI hst) ((hstep _ _ _ hI hP hst).2 hok.2)
        exact ⟨.cons ⟨hok.1, hP⟩ hst hrun, ht⟩
  · rintro ⟨h, ht⟩
    induction h with
    | nil s => exact .nil s
    | @cons s t u l ls hok hst hrun ih =>
        -- `P` holds of the next state because the rest of the run begins there
        have hnext : P t := by
          cases hrun with
          | nil => exact ht
          | cons hok' => exact hok'.2
        exact .cons ⟨hok.1, (hstep _ _ _ hI hP hst).1 hnext⟩ hst
          (ih (hinv _ _ _ hI hst) hnext ht)

/-- The exact condition of all runs, with no other condition on their steps. -/
theorem Run.everywhere_iff {I P : σ → Prop} {c : σ → ℓ → Prop}
    (hinv : ∀ s l t, I s → step s l = some t → I t)
    (hstep : ∀ s l t, I s → P s → step s l = some t → (P t ↔ c s l)) (hI : I s) (hP : P s) :
    Run step c s ls t ↔ Run step (fun s _ => P s) s ls t ∧ P t := by
  have h := @Run.always_iff σ ℓ step (fun _ _ => True) s t ls I P c hinv hstep hI hP
  simp only [true_and] at h
  exact h

/-- Conditions that agree on every possible step, under an invariant, allow the same runs. -/
theorem Run.congr_of_invariant {I : σ → Prop}
    (hinv : ∀ s l t, I s → step s l = some t → I t)
    (hiff : ∀ s l t, I s → step s l = some t → (ok s l ↔ ok' s l)) (hI : I s) :
    Run step ok s ls t ↔ Run step ok' s ls t := by
  constructor
  · intro h
    induction h with
    | nil s => exact .nil s
    | cons hok hst _ ih =>
        exact .cons ((hiff _ _ _ hI hst).1 hok) hst (ih (hinv _ _ _ hI hst))
  · intro h
    induction h with
    | nil s => exact .nil s
    | cons hok hst _ ih =>
        exact .cons ((hiff _ _ _ hI hst).2 hok) hst (ih (hinv _ _ _ hI hst))

theorem Run.append (h : Run step ok s ls t) (h' : Run step ok t ls' u) :
    Run step ok s (ls ++ ls') u := by
  induction h with
  | nil s => exact h'
  | cons hok hst _ ih => exact .cons hok hst (ih h')

/-- **Simulation rule.** When every allowed step is matched by a run of another system that shows
    the same, all runs are. `obs` and `obs'` are what the labels show. -/
theorem Run.simulated {σ' ℓ' ω : Type} {step' : σ' → ℓ' → Option σ'} {ok' : σ' → ℓ' → Prop}
    {R : σ → σ' → Prop} {obs : ℓ → Option ω} {obs' : ℓ' → Option ω} {s' : σ'}
    (hstep : ∀ s l t s', R s s' → ok s l → step s l = some t →
      ∃ ls' t', Run step' ok' s' ls' t' ∧ ls'.filterMap obs' = (obs l).toList ∧ R t t')
    (h : Run step ok s ls t) (hs : R s s') :
    ∃ ls' t', Run step' ok' s' ls' t' ∧ ls'.filterMap obs' = ls.filterMap obs ∧ R t t' := by
  induction h generalizing s' with
  | nil s => exact ⟨[], s', .nil s', rfl, hs⟩
  | @cons s t u l ls hok hst _ ih =>
      obtain ⟨first, t', hfirst, hobs, ht⟩ := hstep s l t s' hs hok hst
      obtain ⟨rest, u', hrest, hobs', hu⟩ := ih ht
      refine ⟨first ++ rest, u', hfirst.append hrest, ?_, hu⟩
      rw [List.filterMap_append, hobs, hobs', List.filterMap_cons]
      cases obs l <;> rfl

/-- A run of one step. -/
theorem Run.single (hok : ok s l) (hstep : step s l = some t) : Run step ok s [l] t :=
  .cons hok hstep (.nil t)

/-! ## Traces -/

variable (step) in
/-- Runs from `s` with the states they have passed through, the oldest first. -/
inductive Trace (ok : σ → ℓ → Prop) (s : σ) : List σ → σ → Prop
  | start : Trace ok s [] s
  | snoc {past : List σ} {t u : σ} {l : ℓ} (htrace : Trace ok s past t) (hok : ok t l)
      (hstep : step t l = some u) : Trace ok s (past ++ [t]) u

/-- Every run has a trace. -/
theorem Run.trace (h : Run step ok s ls t) :
    ∃ past, past.length = ls.length ∧ Trace step ok s past t := by
  -- a trace grows at its end, a run at its start
  have key : ∀ {u : σ} {past : List σ}, Trace step ok u past s →
      ∃ past', past'.length = past.length + ls.length ∧ Trace step ok u past' t := by
    induction h with
    | nil s => exact fun htrace => ⟨_, rfl, htrace⟩
    | cons hok hst _ ih =>
        intro u past htrace
        obtain ⟨past', hlen, htrace'⟩ := ih (htrace.snoc hok hst)
        exact ⟨past', by simp only [List.length_append, List.length_cons, List.length_nil] at hlen ⊢
                         omega, htrace'⟩
  obtain ⟨past, hlen, htrace⟩ := key .start
  exact ⟨past, by simpa using hlen, htrace⟩

/-- The invariant rule for traces. -/
theorem Trace.invariant {P : List σ → σ → Prop} {past : List σ}
    (hstep : ∀ past s l t, P past s → ok s l → step s l = some t → P (past ++ [s]) t)
    (h : Trace step ok s past t) (hs : P [] s) : P past t := by
  induction h with
  | start => exact hs
  | snoc _ hok hst ih => exact hstep _ _ _ _ ih hok hst

end Lib
