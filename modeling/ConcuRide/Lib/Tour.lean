import Mathlib.Data.List.Count
import Mathlib.Logic.Function.Basic
import Mathlib.Data.Nat.Basic
import Mathlib.Tactic.Common

set_option autoImplicit false

/-! # Tours

A message makes a tour: station `i` sends it to another station, every station it arrives at is to
be visited by it and then sends it on. A *trip* is one sending; the sender awaits its arrival, and
sends the message elsewhere when the trip was lost. `Tour.Ok` is the invariant of a tour whose trips
all lead further, in terms of positions: no station is visited twice. -/

namespace Lib

variable {α τ : Type}

/-- The visits to come at each station, the trips each station awaits, the trips under way, the
    trips that have arrived (newest first), and the visits made. -/
structure Tour (α τ : Type) where
  calls : α → ℕ
  awaited : α → List τ
  copies : List τ
  arrived : List τ
  visited : List α

namespace Tour

variable [DecidableEq α] (src dst : τ → α) (pos : α → ℕ) (i : α)

/-- The stations the message has arrived at, newest first. -/
def stops (t : Tour α τ) : List α := t.arrived.map dst

/-- The station whose turn it is to send the message on. The tour is over when the message is back
    at station `i`. -/
def Holder (t : Tour α τ) (k : α) : Prop :=
  match t.stops dst with
  | [] => k = i
  | h :: _ => k = h ∧ h ≠ i

/-- How far the message has come. -/
def reached (t : Tour α τ) : ℕ :=
  match t.stops dst with
  | [] => 0
  | h :: _ => pos h

/-- Nothing has happened yet. -/
structure Unused (t : Tour α τ) : Prop where
  calls : ∀ k, t.calls k = 0
  awaited : ∀ k, t.awaited k = []
  copies : t.copies = []
  arrived : t.arrived = []
  visited : t.visited = []

/-- The message is in one place at a time, and moves further with every trip. A visit that `i` pays
    to itself without any trip is a tour, too. -/
structure Ok (t : Tour α τ) : Prop where
  further : (t.stops dst).Pairwise fun a b => pos b < pos a
  once : ∀ s, t.visited.count s + t.calls s ≤ 1
  known : ∀ s, s ∈ t.visited ∨ 0 < t.calls s → s ∈ t.stops dst ∨
    (s = i ∧ t.arrived = [] ∧ t.copies = [] ∧ ∀ k, t.awaited k = [])
  passed : ∀ s ∈ (t.stops dst).tail, s ∈ t.visited
  copy : ∀ d ∈ t.copies, t.Holder dst i (src d) ∧ (src d = i ∨ src d ∈ t.visited) ∧
    t.reached dst pos < pos (dst d)
  single : t.copies.length ≤ 1
  await : ∀ k, ∀ d ∈ t.awaited k, src d = k ∧ (k = i ∨ k ∈ t.visited) ∧
    (d ∈ t.arrived ∨ (t.Holder dst i k ∧ ∀ c ∈ t.copies, c = d))
  awaitOne : ∀ k, (t.awaited k).length ≤ 1

/-- `t'` is `t` after some calls, copies and awaited trips were lost. -/
structure Le (t' t : Tour α τ) : Prop where
  calls : ∀ k, t'.calls k ≤ t.calls k
  awaited : ∀ k, (t'.awaited k).Subperm (t.awaited k)
  copies : t'.copies.Subperm t.copies
  arrived : t'.arrived = t.arrived
  visited : t'.visited = t.visited

variable {src dst pos i} {t t' : Tour α τ} {k : α} {d : τ}

theorem reached_le (h : t.Ok src dst pos i) {s : α} (hs : s ∈ t.stops dst) :
    pos s ≤ t.reached dst pos := by
  have hfurther := h.further
  unfold reached
  cases hstops : t.stops dst with
  | nil => simp [hstops] at hs
  | cons a rest =>
      rw [hstops] at hs hfurther
      rcases List.mem_cons.1 hs with rfl | hs
      · exact le_refl _
      · exact Nat.le_of_lt (List.rel_of_pairwise_cons hfurther hs)

theorem Unused.ok (h : t.Unused) : t.Ok src dst pos i := by
  have hstops : t.stops dst = [] := by simp [stops, h.arrived]
  constructor
  · simp [hstops]
  · simp [h.visited, h.calls]
  · simp [h.visited, h.calls]
  · simp [hstops]
  · simp [h.copies]
  · simp [h.copies]
  · simp [h.awaited]
  · simp [h.awaited]

omit [DecidableEq α] in
theorem Unused.of_le (h : t.Unused) (hle : t'.Le t) : t'.Unused where
  calls := fun k => Nat.le_zero.1 (h.calls k ▸ hle.calls k)
  awaited := fun k => List.subperm_nil.1 (h.awaited k ▸ hle.awaited k)
  copies := List.subperm_nil.1 (h.copies ▸ hle.copies)
  arrived := hle.arrived.trans h.arrived
  visited := hle.visited.trans h.visited

/-- Losing things keeps a tour in order. -/
theorem Ok.of_le (h : t.Ok src dst pos i) (hle : t'.Le t) : t'.Ok src dst pos i := by
  have hstops : t'.stops dst = t.stops dst := by simp [stops, hle.arrived]
  have hholder : ∀ k, t'.Holder dst i k ↔ t.Holder dst i k := fun k => by simp [Holder, hstops]
  have hreached : t'.reached dst pos = t.reached dst pos := by simp [reached, hstops]
  constructor
  · rw [hstops]; exact h.further
  · intro s
    have := h.once s
    have := hle.calls s
    rw [hle.visited]
    omega
  · intro s hs
    rw [hle.visited] at hs
    have hs' : s ∈ t.visited ∨ 0 < t.calls s :=
      hs.imp_right fun hc => Nat.lt_of_lt_of_le hc (hle.calls s)
    rw [hstops]
    rcases h.known s hs' with hin | ⟨rfl, ha, hc, haw⟩
    · exact .inl hin
    · refine .inr ⟨rfl, hle.arrived.trans ha, ?_, fun k => ?_⟩
      · exact List.subperm_nil.1 (hc ▸ hle.copies)
      · exact List.subperm_nil.1 (haw k ▸ hle.awaited k)
  · rw [hstops, hle.visited]; exact h.passed
  · intro d hd
    rw [hholder, hreached, hle.visited]
    exact h.copy d (hle.copies.subset hd)
  · exact Nat.le_trans hle.copies.length_le h.single
  · intro k d hd
    obtain ⟨hsrc, hvis, harr⟩ := h.await k d ((hle.awaited k).subset hd)
    rw [hholder, hle.visited, hle.arrived]
    exact ⟨hsrc, hvis, harr.imp_right fun ⟨hk, hc⟩ =>
      ⟨hk, fun c hcm => hc c (hle.copies.subset hcm)⟩⟩
  · intro k
    exact Nat.le_trans (hle.awaited k).length_le (h.awaitOne k)

/-! ## Operations -/

/-- Station `i` calls itself. -/
def call (t : Tour α τ) (i : α) : Tour α τ :=
  { t with calls := Function.update t.calls i 1 }

/-- Station `k` is visited. -/
def visit (t : Tour α τ) (k : α) : Tour α τ :=
  { t with calls := Function.update t.calls k 0, visited := k :: t.visited }

/-- Station `k` sends the message on trip `d` and awaits its arrival; the trip may lead nowhere. -/
def send (t : Tour α τ) (k : α) (d : τ) : Tour α τ :=
  { t with awaited := Function.update t.awaited k [d], copies := [d] }

/-- Trip `d` ends. -/
def arrive (t : Tour α τ) (dst : τ → α) (d : τ) : Tour α τ :=
  { t with
    calls := Function.update t.calls (dst d) (t.calls (dst d) + 1)
    copies := []
    arrived := d :: t.arrived }

theorem Ok.call (h : t.Unused) : (t.call i).Ok src dst pos i := by
  have hstops : (t.call i).stops dst = [] := by simp [stops, Tour.call, h.arrived]
  constructor
  · simp [hstops]
  · intro s
    by_cases hs : s = i
    · subst hs; simp [Tour.call, h.visited]
    · simp [Tour.call, h.visited, h.calls, hs]
  · intro s hs
    by_cases hsi : s = i
    · exact .inr ⟨hsi, h.arrived, h.copies, h.awaited⟩
    · simp [Tour.call, h.visited, h.calls, hsi] at hs
  · simp [hstops]
  · simp [Tour.call, h.copies]
  · simp [Tour.call, h.copies]
  · simp [Tour.call, h.awaited]
  · simp [Tour.call, h.awaited]

theorem Ok.visit (h : t.Ok src dst pos i) (hk : 0 < t.calls k) :
    (t.visit k).Ok src dst pos i := by
  have hcount := h.once k
  constructor
  · exact h.further
  · intro s
    by_cases hs : s = k
    · subst hs
      simp only [Tour.visit, Function.update_self, List.count_cons_self]
      omega
    · have := h.once s
      simpa [Tour.visit, hs, List.count_cons, Ne.symm hs] using this
  · intro s hs
    refine h.known s ?_
    by_cases hsk : s = k
    · exact .inr (hsk ▸ hk)
    · simpa [Tour.visit, hsk] using hs
  · exact fun s hs => List.mem_cons_of_mem _ (h.passed s hs)
  · intro d hd
    obtain ⟨hh, hv, hr⟩ := h.copy d hd
    exact ⟨hh, hv.imp_right (List.mem_cons_of_mem _), hr⟩
  · exact h.single
  · intro k' d hd
    obtain ⟨hs, hv, ha⟩ := h.await k' d hd
    exact ⟨hs, hv.imp_right (List.mem_cons_of_mem _), ha⟩
  · exact h.awaitOne

/-- A station that is called, other than `i`, is where the message is: nothing is under way, and the
    station has sent nothing on. -/
theorem Ok.called (h : t.Ok src dst pos i) (hk : 0 < t.calls k) (hki : k ≠ i) :
    t.Holder dst i k ∧ t.reached dst pos = pos k ∧ t.copies = [] ∧ t.awaited k = [] := by
  have hnot : k ∉ t.visited := by
    intro hv
    have := h.once k
    have := List.count_pos_iff.2 hv
    omega
  have hstop : k ∈ t.stops dst := by
    rcases h.known k (.inr hk) with hin | ⟨rfl, -⟩
    · exact hin
    · exact absurd rfl hki
  have hpassed := h.passed
  have hhead : ∃ rest, t.stops dst = k :: rest := by
    cases hstops : t.stops dst with
    | nil => simp [hstops] at hstop
    | cons a rest =>
        rw [hstops] at hstop hpassed
        rcases List.mem_cons.1 hstop with rfl | hin
        · exact ⟨rest, rfl⟩
        · exact absurd (hpassed k hin) hnot
  obtain ⟨rest, hrest⟩ := hhead
  have hholder : ∀ k', t.Holder dst i k' ↔ k' = k ∧ k ≠ i := fun k' => by simp [Holder, hrest]
  refine ⟨(hholder k).2 ⟨rfl, hki⟩, by simp [reached, hrest], ?_, ?_⟩
  · rw [List.eq_nil_iff_forall_not_mem]
    intro d hd
    obtain ⟨hh, hv, -⟩ := h.copy d hd
    rw [((hholder _).1 hh).1] at hv
    exact hv.elim hki hnot
  · rw [List.eq_nil_iff_forall_not_mem]
    intro d hd
    obtain ⟨-, hv, -⟩ := h.await k d hd
    exact hv.elim hki hnot

/-- The holder may send the message further. -/
theorem Ok.send (h : t.Ok src dst pos i) (hholder : t.Holder dst i k)
    (hvis : k = i ∨ k ∈ t.visited)
    (hlocal : t.arrived = [] → k ∉ t.visited ∧ t.calls k = 0) (hsrc : src d = k)
    (hpos : t.reached dst pos < pos (dst d)) : (t.send k d).Ok src dst pos i := by
  have hunique : ∀ k', t.Holder dst i k' → k' = k := by
    intro k' hk'
    unfold Holder at hholder hk'
    cases hstops : t.stops dst with
    | nil => rw [hstops] at hholder hk'; exact hk'.trans hholder.symm
    | cons a rest => rw [hstops] at hholder hk'; exact hk'.1.trans hholder.1.symm
  constructor
  · exact h.further
  · exact h.once
  · intro s hs
    rcases h.known s hs with hin | ⟨rfl, harr, -, -⟩
    · exact .inl hin
    · have hk : k = s := by simpa [Holder, stops, harr] using hholder
      obtain ⟨hno, hcalls⟩ := hlocal harr
      rw [hk] at hno hcalls
      rcases hs with hs | hs
      · exact absurd hs hno
      · simp only [Tour.send] at hs
        omega
  · exact h.passed
  · intro d' hd'
    obtain rfl := List.mem_singleton.1 hd'
    rw [hsrc]
    exact ⟨hholder, hvis, hpos⟩
  · simp [Tour.send]
  · intro k' d' hd'
    by_cases hk' : k' = k
    · subst hk'
      simp only [Tour.send, Function.update_self, List.mem_singleton] at hd'
      subst hd'
      exact ⟨hsrc, hvis, .inr ⟨hholder, fun c hc => List.mem_singleton.1 hc⟩⟩
    · simp only [Tour.send, Function.update_of_ne hk'] at hd'
      obtain ⟨hs, hv, ha⟩ := h.await k' d' hd'
      exact ⟨hs, hv, ha.imp_right fun ⟨hh, _⟩ => absurd (hunique k' hh) hk'⟩
  · intro k'
    by_cases hk' : k' = k
    · subst hk'; simp [Tour.send]
    · simpa [Tour.send, hk'] using h.awaitOne k'

theorem Ok.arrive (h : t.Ok src dst pos i) (hd : d ∈ t.copies) :
    (t.arrive dst d).Ok src dst pos i := by
  obtain ⟨hholder, hvis, hpos⟩ := h.copy d hd
  have honly : t.copies = [d] := by
    have := h.single
    cases hc : t.copies with
    | nil => simp [hc] at hd
    | cons a rest =>
        rw [hc] at this hd
        have hrest : rest = [] := by
          simpa using this
        subst hrest
        rw [List.mem_singleton.1 hd]
  have hstops : (t.arrive dst d).stops dst = dst d :: t.stops dst := rfl
  have hnew : dst d ∉ t.stops dst := fun hin => absurd (reached_le h hin) (by omega)
  have hnone : ¬ (dst d ∈ t.visited ∨ 0 < t.calls (dst d)) := by
    intro hs
    rcases h.known _ hs with hin | ⟨-, -, hc, -⟩
    · exact hnew hin
    · rw [hc] at honly
      simp at honly
  constructor
  · rw [hstops, List.pairwise_cons]
    exact ⟨fun s hs => Nat.lt_of_le_of_lt (reached_le h hs) hpos, h.further⟩
  · intro s
    by_cases hs : s = dst d
    · subst hs
      have hcount : t.visited.count (dst d) = 0 :=
        List.count_eq_zero.2 fun hv => hnone (.inl hv)
      have hcalls : t.calls (dst d) = 0 := by
        by_contra hne
        exact hnone (.inr (by omega))
      simp [Tour.arrive, hcount, hcalls]
    · simpa [Tour.arrive, hs] using h.once s
  · intro s hs
    rw [hstops]
    by_cases hsd : s = dst d
    · exact .inl (hsd ▸ List.mem_cons_self)
    · have hs' : s ∈ t.visited ∨ 0 < t.calls s := by simpa [Tour.arrive, hsd] using hs
      rcases h.known s hs' with hin | ⟨-, -, hc, -⟩
      · exact .inl (List.mem_cons_of_mem _ hin)
      · rw [hc] at honly
        simp at honly
  · -- the station the message was at has sent it on, so it was visited
    intro s hs
    rw [hstops, List.tail_cons] at hs
    unfold Holder at hholder
    have hpassed := h.passed
    cases hst : t.stops dst with
    | nil => simp [hst] at hs
    | cons a rest =>
        rw [hst] at hs hholder hpassed
        rcases List.mem_cons.1 hs with rfl | hs
        · rw [hholder.1] at hvis
          exact hvis.resolve_left hholder.2
        · exact hpassed s hs
  · simp [Tour.arrive]
  · simp [Tour.arrive]
  · intro k' d' hd'
    obtain ⟨hs, hv, ha⟩ := h.await k' d' hd'
    refine ⟨hs, hv, .inl ?_⟩
    rcases ha with ha | ⟨-, hc⟩
    · exact List.mem_cons_of_mem _ ha
    · rw [← hc d hd]
      exact List.mem_cons_self
  · exact h.awaitOne

end Tour

end Lib
