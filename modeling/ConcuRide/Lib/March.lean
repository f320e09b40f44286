import Mathlib.Data.Nat.Find
import Mathlib.Data.Set.Function
import Mathlib.Logic.Function.Iterate

set_option autoImplicit false

/-! # Marches

Moves of a partial function `move` that go on until a goal is reached: at least one move is made,
and the goal is looked for after each. A march arrives, falls (a move is undefined before it has
arrived) or goes on for ever. `serve` is an actor that handles nothing but what it sends itself; a
march of such an actor is one message that it sends itself again until it is at the goal. -/

namespace Lib

/-! ## Moves -/

variable {P Q : Type}

/-- `n` moves. -/
def moves (move : P → Option P) : ℕ → P → Option P
  | 0, p => some p
  | n + 1, p => (move p).bind (moves move n)

/-- The goal is reached with the `n`-th move, and not before. -/
def ArrivesAt (move : P → Option P) (goal p : P) (n : ℕ) : Prop :=
  0 < n ∧ moves move n p = some goal ∧ ∀ k < n, 0 < k → moves move k p ≠ some goal

def Arrives (move : P → Option P) (goal p : P) : Prop := ∃ n, ArrivesAt move goal p n

/-- A move is undefined before the goal is reached. -/
def Falls (move : P → Option P) (goal p : P) : Prop :=
  ∃ n, moves move n p = none ∧ ∀ k < n, 0 < k → moves move k p ≠ some goal

/-- The march comes by `q`, where it starts or before the goal is reached. -/
def OnTheWay (move : P → Option P) (goal p q : P) : Prop :=
  ∃ n, moves move n p = some q ∧ ∀ k ≤ n, 0 < k → moves move k p ≠ some goal

variable {move : P → Option P} {goal p q : P} {n : ℕ}

theorem moves_succ (move : P → Option P) (n : ℕ) (p : P) :
    moves move (n + 1) p = (moves move n p).bind move := by
  induction n generalizing p with
  | zero => simp [moves]
  | succ n ih =>
      rw [moves, Option.bind_congr (fun q _ => ih q), moves, Option.bind_assoc]

theorem moves_none_mono {m : ℕ} (h : moves move n p = none) (hle : n ≤ m) :
    moves move m p = none := by
  induction m, hle using Nat.le_induction with
  | base => exact h
  | succ m _ ih => rw [moves_succ, ih, Option.bind_none]

/-- The goal is reached as soon as it is reached at all. -/
theorem arrives_iff : Arrives move goal p ↔ ∃ n, 0 < n ∧ moves move n p = some goal := by
  classical
  constructor
  · rintro ⟨n, hn, hgoal, -⟩
    exact ⟨n, hn, hgoal⟩
  · intro h
    obtain ⟨hn, hgoal⟩ := Nat.find_spec h
    refine ⟨Nat.find h, hn, hgoal, fun k hk hpos hk' => ?_⟩
    exact Nat.find_min h hk ⟨hpos, hk'⟩

/-- A march that arrives does not fall. -/
theorem Arrives.not_falls (h : Arrives move goal p) : ¬Falls move goal p := by
  rintro ⟨n, hnone, hbefore⟩
  obtain ⟨m, hm, hgoal, -⟩ := h
  by_cases hmn : m < n
  · exact hbefore m hmn hm hgoal
  · rw [moves_none_mono hnone (by omega)] at hgoal
    exact absurd hgoal (by simp)

theorem onTheWay_start : OnTheWay move goal p p :=
  ⟨0, rfl, fun k hk hpos => absurd hpos (by omega)⟩

/-- What the rest of a march comes by, the whole of it does. -/
theorem OnTheWay.of_move {r : P} (h : OnTheWay move goal r q) (hr : move p = some r)
    (hne : r ≠ goal) : OnTheWay move goal p q := by
  obtain ⟨n, hn, hbefore⟩ := h
  refine ⟨n + 1, by rw [moves, hr, Option.bind_some, hn], fun k hk hpos hgoal => ?_⟩
  obtain ⟨k, rfl⟩ := Nat.exists_eq_succ_of_ne_zero hpos.ne'
  rw [Nat.succ_eq_add_one, moves, hr, Option.bind_some] at hgoal
  by_cases hk0 : k = 0
  · subst hk0
    exact hne (Option.some.inj hgoal)
  · exact hbefore k (by omega) (by omega) hgoal

/-- What every move keeps holds of all the march comes by. -/
theorem OnTheWay.invariant {I : P → Prop} (h : OnTheWay move goal p q)
    (hmove : ∀ p q, I p → move p = some q → I q) (hp : I p) : I q := by
  obtain ⟨n, hn, -⟩ := h
  induction n generalizing p with
  | zero => exact Option.some.inj hn ▸ hp
  | succ n ih =>
      obtain ⟨r, hr, hn⟩ := Option.bind_eq_some_iff.1 hn
      exact ih (hmove p r hp hr) hn

/-! ## A partial move that simulates a total one -/

/-- `move` is `f` seen through `view`, where the image of `f` is still in view. -/
structure Simulates (move : P → Option P) (view : P → Q) (f : Q → Q) : Prop where
  injective : Function.Injective view
  some_iff : ∀ p q, move p = some q ↔ view q = f (view p)

variable {view : P → Q} {f : Q → Q}

theorem Simulates.moves_eq_some_iff (h : Simulates move view f) :
    moves move n p = some q ↔
      (∀ k ≤ n, f^[k] (view p) ∈ Set.range view) ∧ view q = f^[n] (view p) := by
  induction n generalizing p with
  | zero =>
      simp only [moves, Option.some.injEq, Function.iterate_zero_apply]
      constructor
      · rintro rfl
        refine ⟨fun k hk => ?_, rfl⟩
        obtain rfl := Nat.le_zero.1 hk
        exact ⟨p, rfl⟩
      · exact fun hq => (h.injective hq.2).symm
  | succ n ih =>
      simp only [moves, Option.bind_eq_some_iff, ih, h.some_iff]
      constructor
      · rintro ⟨r, hr, hrange, hq⟩
        refine ⟨fun k hk => ?_, by rw [hq, hr, Function.iterate_succ_apply]⟩
        cases k with
        | zero => exact ⟨p, rfl⟩
        | succ k =>
            rw [Function.iterate_succ_apply, ← hr]
            exact hrange k (by omega)
      · rintro ⟨hrange, hq⟩
        obtain ⟨r, hr⟩ := hrange 1 (by omega)
        refine ⟨r, hr, fun k hk => ?_, by rw [hq, Function.iterate_succ_apply, hr]; rfl⟩
        have hk' := hrange (k + 1) (by omega)
        rwa [Function.iterate_succ_apply, ← Function.iterate_one f, ← hr] at hk'

theorem Simulates.moves_eq_none_iff (h : Simulates move view f) :
    moves move n p = none ↔ ¬∀ k ≤ n, f^[k] (view p) ∈ Set.range view := by
  rw [Option.eq_none_iff_forall_ne_some]
  constructor
  · intro hnone hrange
    obtain ⟨q, hq⟩ := hrange n (le_refl n)
    exact hnone q (h.moves_eq_some_iff.2 ⟨hrange, hq⟩)
  · exact fun hrange q hq => hrange (h.moves_eq_some_iff.1 hq).1

/-! ## Actors that march -/

variable {σ μ : Type}

/-- The actor and its mailbox, when `n` messages have been handled and nothing has reached the actor
    but what it sends itself; `none` when a handler has failed. -/
def serve (handle : σ → μ → Option (σ × List μ)) : ℕ → σ → List μ → Option (σ × List μ)
  | 0, s, mailbox => some (s, mailbox)
  | _ + 1, s, [] => some (s, [])
  | n + 1, s, m :: rest => (handle s m).bind fun r => serve handle n r.1 (rest ++ r.2)

/-- Handling `m` at a point `p` of the way is one move: the message is sent again when the goal is
    not reached, and otherwise the actor is `done` and sends itself `last`. -/
structure Marches (handle : σ → μ → Option (σ × List μ)) (move : P → Option P) (goal : P)
    (at_ : P → σ) (m : μ) (done : σ) (last : List μ) : Prop where
  handle_fall : ∀ p, move p = none → handle (at_ p) m = none
  handle_goal : ∀ p, move p = some goal → handle (at_ p) m = some (done, last)
  handle_on : ∀ p q, move p = some q → q ≠ goal → handle (at_ p) m = some (at_ q, [m])

variable {handle : σ → μ → Option (σ × List μ)} {at_ : P → σ} {m : μ} {s t done : σ}
  {mailbox rest last : List μ} {k : ℕ}

theorem serve_add (h : serve handle n s mailbox = some (t, rest)) :
    serve handle (n + k) s mailbox = serve handle k t rest := by
  induction n generalizing s mailbox with
  | zero =>
      obtain ⟨rfl, rfl⟩ := Prod.mk.inj (Option.some.inj h)
      rw [Nat.zero_add]
  | succ n ih =>
      cases mailbox with
      | nil =>
          obtain ⟨rfl, rfl⟩ := Prod.mk.inj (Option.some.inj h)
          cases k <;> simp [serve]
      | cons m mailbox =>
          simp only [serve, Option.bind_eq_some_iff] at h
          obtain ⟨r, hr, hserve⟩ := h
          rw [Nat.succ_add, serve, hr, Option.bind_some, ih hserve]

/-- Messages whose handlers never fail, and which lead to no other messages, are handled without a
    failure. -/
theorem serve_ne_none (safe : μ → Prop)
    (hsafe : ∀ s m, safe m → ∃ r, handle s m = some r ∧ ∀ m' ∈ r.2, safe m')
    (hmailbox : ∀ m ∈ mailbox, safe m) (n : ℕ) : serve handle n s mailbox ≠ none := by
  induction n generalizing s mailbox with
  | zero => simp [serve]
  | succ n ih =>
      cases mailbox with
      | nil => simp [serve]
      | cons m rest =>
          obtain ⟨r, hr, hsent⟩ := hsafe s m (hmailbox m List.mem_cons_self)
          rw [serve, hr, Option.bind_some]
          refine ih fun m' hm' => ?_
          rcases List.mem_append.1 hm' with hm' | hm'
          · exact hmailbox m' (List.mem_cons_of_mem m hm')
          · exact hsent m' hm'

namespace Marches

/-- A handler that is one equation. -/
theorem of_eq [DecidableEq P]
    (h : ∀ p, handle (at_ p) m =
      (move p).map fun q => if q = goal then (done, last) else (at_ q, [m])) :
    Marches handle move goal at_ m done last where
  handle_fall p hp := by rw [h, hp, Option.map_none]
  handle_goal p hp := by rw [h, hp, Option.map_some, if_pos rfl]
  handle_on p q hp hq := by rw [h, hp, Option.map_some, if_neg hq]

/-- Before the goal is reached the actor is on its way. -/
theorem serve_on (h : Marches handle move goal at_ m done last)
    (hmoves : moves move n p = some q)
    (hbefore : ∀ k ≤ n, 0 < k → moves move k p ≠ some goal) :
    serve handle n (at_ p) [m] = some (at_ q, [m]) := by
  induction n generalizing p with
  | zero =>
      obtain rfl := Option.some.inj hmoves
      rfl
  | succ n ih =>
      simp only [moves, Option.bind_eq_some_iff] at hmoves
      obtain ⟨r, hr, hmoves⟩ := hmoves
      have hne : r ≠ goal := by
        rintro rfl
        exact hbefore 1 (by omega) (by omega) (by simp [moves, hr])
      have hrest : ∀ k ≤ n, 0 < k → moves move k r ≠ some goal := by
        intro k hk _ hgoal
        exact hbefore (k + 1) (by omega) (by omega) (by simp [moves, hr, hgoal])
      simp only [serve, h.handle_on p r hr hne, Option.bind_some, List.nil_append]
      exact ih hmoves hrest

theorem serve_arrivesAt (h : Marches handle move goal at_ m done last)
    (harrives : ArrivesAt move goal p n) :
    serve handle n (at_ p) [m] = some (done, last) := by
  obtain ⟨hn, hgoal, hbefore⟩ := harrives
  obtain ⟨n, rfl⟩ := Nat.exists_eq_succ_of_ne_zero hn.ne'
  simp only [Nat.succ_eq_add_one, moves_succ, Option.bind_eq_some_iff] at hgoal
  obtain ⟨q, hmoves, hq⟩ := hgoal
  have hon := h.serve_on hmoves fun k hk hpos => hbefore k (by omega) hpos
  rw [Nat.succ_eq_add_one, serve_add hon]
  simp [serve, h.handle_goal q hq]

/-- A march that falls ends with a handler that fails. -/
theorem serve_falls (h : Marches handle move goal at_ m done last)
    (hfalls : Falls move goal p) : ∃ n, serve handle n (at_ p) [m] = none := by
  obtain ⟨n, hnone, hbefore⟩ := hfalls
  induction n generalizing p with
  | zero => exact absurd hnone (by simp [moves])
  | succ n ih =>
      by_cases hn : moves move n p = none
      · exact ih hn fun k hk => hbefore k (by omega)
      · obtain ⟨q, hq⟩ := Option.ne_none_iff_exists'.1 hn
        have hon := h.serve_on hq fun k hk hpos => hbefore k (by omega) hpos
        rw [moves_succ, hq, Option.bind_some] at hnone
        refine ⟨n + 1, ?_⟩
        rw [serve_add hon]
        simp [serve, h.handle_fall q hnone]

/-- A march that neither arrives nor falls goes on for ever. -/
theorem serve_forever (h : Marches handle move goal at_ m done last)
    (harrives : ¬Arrives move goal p) (hfalls : ¬Falls move goal p) (n : ℕ) :
    ∃ q, serve handle n (at_ p) [m] = some (at_ q, [m]) := by
  have hbefore : ∀ k, 0 < k → moves move k p ≠ some goal := fun k hk hgoal =>
    harrives (arrives_iff.2 ⟨k, hk, hgoal⟩)
  have hsome : moves move n p ≠ none := fun hnone => hfalls ⟨n, hnone, fun k _ => hbefore k⟩
  obtain ⟨q, hq⟩ := Option.ne_none_iff_exists'.1 hsome
  exact ⟨q, h.serve_on hq fun k _ => hbefore k⟩

/-- **When a handler fails on the way, and after it**: when the march falls, or when it arrives and
    what comes after it fails. -/
theorem serve_never_none_iff (h : Marches handle move goal at_ m done last) :
    (∀ n, serve handle n (at_ p) [m] ≠ none) ↔
      ¬Falls move goal p ∧ (Arrives move goal p → ∀ n, serve handle n done last ≠ none) := by
  constructor
  · intro hnever
    refine ⟨fun hfalls => ?_, ?_⟩
    · obtain ⟨n, hn⟩ := h.serve_falls hfalls
      exact hnever n hn
    · rintro ⟨n, hn⟩ k hk
      refine hnever (n + k) ?_
      rw [serve_add (h.serve_arrivesAt hn), hk]
  · rintro ⟨hfalls, hafter⟩ n hnone
    by_cases harrives : Arrives move goal p
    · obtain ⟨k, hk⟩ := harrives
      by_cases hle : k ≤ n
      · obtain ⟨j, rfl⟩ := Nat.exists_eq_add_of_le hle
        rw [serve_add (h.serve_arrivesAt hk)] at hnone
        exact hafter ⟨k, hk⟩ j hnone
      · -- the message handled last has not brought the march to its end
        have hsome : moves move n p ≠ none := fun hn =>
          absurd (moves_none_mono hn (by omega : n ≤ k)) (by simp [hk.2.1])
        obtain ⟨q, hq⟩ := Option.ne_none_iff_exists'.1 hsome
        have hon := h.serve_on hq fun j hj => hk.2.2 j (by omega)
        rw [hnone] at hon
        exact absurd hon (by simp)
    · obtain ⟨q, hq⟩ := h.serve_forever harrives hfalls n
      rw [hnone] at hq
      exact absurd hq (by simp)

/-- **When a march comes to its end**: a march that does not fall leaves `last` in the mailbox
    exactly when it arrives. -/
theorem serve_last_iff (h : Marches handle move goal at_ m done last)
    (hfalls : ¬Falls move goal p) (hlast : last ≠ [m]) {R : σ → Prop} (hdone : R done) :
    (∃ n t, serve handle n (at_ p) [m] = some (t, last) ∧ R t) ↔ Arrives move goal p := by
  constructor
  · rintro ⟨n, t, hserve, -⟩
    by_contra harrives
    obtain ⟨q, hq⟩ := h.serve_forever harrives hfalls n
    rw [hserve] at hq
    exact hlast (Prod.mk.inj (Option.some.inj hq)).2
  · rintro ⟨n, hn⟩
    exact ⟨n, done, h.serve_arrivesAt hn, hdone⟩

end Marches

end Lib
