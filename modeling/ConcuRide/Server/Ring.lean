import Mathlib.Order.Interval.Set.Defs
import ConcuRide.Lib.Circle
import ConcuRide.Server.Cases

set_option autoImplicit false

/-! # The ring of servers

`getNeighborId` walks the ring `1..N`. What `update_neighbor` finds is a hop along it
(`Lib.Hop`): the servers it passes over are the server itself or servers it holds for
disconnected. -/

namespace ConcuRide

open Lib

/-- The ids of the servers. -/
def ring (N : ℕ) : Set ℕ := Set.Icc 1 N

theorem mem_ring {N x : ℕ} : x ∈ ring N ↔ 1 ≤ x ∧ x ≤ N := Iff.rfl

instance (N x : ℕ) : Decidable (x ∈ ring N) := inferInstanceAs (Decidable (1 ≤ x ∧ x ≤ N))

theorem ring_pos {N x : ℕ} (hx : x ∈ ring N) : 0 < N := by
  have := mem_ring.1 hx
  omega

theorem getNeighborId_mapsTo (N : ℕ) : Set.MapsTo (getNeighborId N) (ring N) (ring N) := by
  intro x hx
  rw [mem_ring] at hx ⊢
  unfold getNeighborId
  split <;> omega

theorem iterate_getNeighborId_mem {N x : ℕ} (hx : x ∈ ring N) (j : ℕ) :
    (getNeighborId N)^[j] x ∈ ring N :=
  (getNeighborId_mapsTo N).iterate j hx

/-- Where a walk of `j` steps ends. -/
theorem iterate_getNeighborId {N x : ℕ} (hx : x ∈ ring N) (j : ℕ) :
    (getNeighborId N)^[j] x = (x - 1 + j) % N + 1 := by
  have hN := ring_pos hx
  rw [mem_ring] at hx
  induction j with
  | zero =>
      rw [Function.iterate_zero, id, Nat.add_zero, Nat.mod_eq_of_lt (by omega)]
      omega
  | succ j ih =>
      rw [Function.iterate_succ_apply', ih, ← Nat.add_assoc, ← Nat.mod_add_mod (x - 1 + j) N 1]
      have hlt := Nat.mod_lt (x - 1 + j) hN
      unfold getNeighborId
      by_cases hlast : (x - 1 + j) % N + 1 = N
      · rw [if_pos hlast, hlast, Nat.mod_self]
      · rw [if_neg hlast, Nat.mod_eq_of_lt (show (x - 1 + j) % N + 1 < N by omega)]

/-- Every server is reached from every server, in `1..N` steps. -/
theorem exists_iterate_getNeighborId {N x y : ℕ} (hx : x ∈ ring N) (hy : y ∈ ring N) :
    ∃ j, 0 < j ∧ j ≤ N ∧ (getNeighborId N)^[j] x = y := by
  have hN := ring_pos hx
  have hx' := mem_ring.1 hx
  have hy' := mem_ring.1 hy
  rcases Nat.lt_or_ge x y with h | h
  · refine ⟨y - x, by omega, by omega, ?_⟩
    rw [iterate_getNeighborId hx, Nat.mod_eq_of_lt (by omega)]
    omega
  · refine ⟨N + y - x, by omega, by omega, ?_⟩
    rw [iterate_getNeighborId hx, show x - 1 + (N + y - x) = y - 1 + N by omega,
      Nat.add_mod_right, Nat.mod_eq_of_lt (by omega)]
    omega

/-! ## Distances -/

/-- How many steps lead from `x` to `y`, between 1 and `N`. -/
def ringDist (N x y : ℕ) : ℕ := if x < y then y - x else N + y - x

section Distance

variable {N x y z : ℕ}

theorem ringDist_pos (hx : x ∈ ring N) (hy : y ∈ ring N) : 0 < ringDist N x y := by
  rw [mem_ring] at hx hy
  unfold ringDist
  split <;> omega

theorem ringDist_le (hx : x ∈ ring N) (hy : y ∈ ring N) : ringDist N x y ≤ N := by
  rw [mem_ring] at hx hy
  unfold ringDist
  split <;> omega

theorem ringDist_self : ringDist N x x = N := by
  unfold ringDist
  split <;> omega

theorem ringDist_inj (hx : x ∈ ring N) (hy : y ∈ ring N) (hz : z ∈ ring N)
    (h : ringDist N x y = ringDist N x z) : y = z := by
  rw [mem_ring] at hx hy hz
  unfold ringDist at h
  split at h <;> split at h <;> omega

theorem ringDist_next (hx : x ∈ ring N) (hy : y ∈ ring N) (hne : y ≠ x) :
    ringDist N x (getNeighborId N y) = ringDist N x y + 1 := by
  rw [mem_ring] at hx hy
  unfold ringDist getNeighborId
  split <;> split <;> split <;> omega

/-- A walk that does not pass over `x` increases the distance from `x` by its length. -/
theorem ringDist_iterate (hx : x ∈ ring N) (hy : y ∈ ring N) {j : ℕ}
    (hj : ringDist N x y + j ≤ N) :
    ringDist N x ((getNeighborId N)^[j] y) = ringDist N x y + j := by
  induction j with
  | zero => rfl
  | succ j ih =>
      have hj' := ih (by omega)
      rw [Function.iterate_succ_apply', ringDist_next hx (iterate_getNeighborId_mem hy j), hj']
      · omega
      · intro heq
        rw [heq, ringDist_self] at hj'
        omega

/-- The walk that completes the distance from `x` to `N` ends at `x`. -/
theorem iterate_ringDist (hx : x ∈ ring N) (hy : y ∈ ring N) :
    (getNeighborId N)^[N - ringDist N x y] y = x := by
  have hle := ringDist_le hx hy
  refine ringDist_inj hx (iterate_getNeighborId_mem hy _) hx ?_
  rw [ringDist_iterate hx hy (by omega), ringDist_self]
  omega

theorem ringDist_walk (hx : x ∈ ring N) {d : ℕ} (hd : 0 < d) (hdN : d ≤ N) :
    ringDist N x ((getNeighborId N)^[d] x) = d := by
  obtain ⟨d, rfl⟩ := Nat.exists_eq_succ_of_ne_zero hd.ne'
  have hnext : ringDist N x (getNeighborId N x) = 1 := by
    rw [mem_ring] at hx
    unfold ringDist getNeighborId
    split <;> split <;> omega
  rw [Function.iterate_succ_apply, ringDist_iterate hx (getNeighborId_mapsTo N hx) (by omega)]
  omega

/-- The walk over the distance from `x` to `y` ends at `y`. -/
theorem walk_ringDist (hx : x ∈ ring N) (hy : y ∈ ring N) :
    (getNeighborId N)^[ringDist N x y] x = y :=
  ringDist_inj hx (iterate_getNeighborId_mem hx _) hy
    (ringDist_walk hx (ringDist_pos hx hy) (ringDist_le hx hy))

end Distance

/-- The ring of servers as a circle. -/
def serverRing (N : ℕ) : Circle ℕ where
  elements := ring N
  dist := ringDist N
  longest := by
    intro x hx y hy h
    rw [mem_ring] at hx hy
    unfold ringDist at h
    split at h <;> split at h <;> omega
  onward := by
    intro i hi s hs x hx q hq h1 h2
    rw [mem_ring] at hi hs hx hq
    unfold ringDist at h1 h2 ⊢
    split at h1 <;> split at h1 <;> split at h2 <;> split at h2 <;> split <;> omega
  apart := fun _ hi _ hx _ hy h => ringDist_inj hi hx hy h

/-! ## What `update_neighbor` finds -/

namespace Server

variable {N : ℕ} {s : Server}

/-- The servers that `update_neighbor` looks for. -/
def Candidate (s : Server) (x : ℕ) : Prop := x ∉ s.disconnectedServers ∧ x ≠ s.id

theorem scanNeighbors_found {k p q : ℕ} (h : s.scanNeighbors N k p = (q, true)) :
    s.Candidate q ∧ ∃ j, j < k ∧ (getNeighborId N)^[j] p = q ∧
      ∀ m, m < j → ¬ s.Candidate ((getNeighborId N)^[m] p) := by
  induction k generalizing p with
  | zero => simp [scanNeighbors] at h
  | succ k ih =>
      unfold scanNeighbors at h
      split at h
      · next hp =>
          obtain ⟨rfl, -⟩ := Prod.mk.injEq .. ▸ h
          exact ⟨hp, 0, by omega, rfl, fun m hm => absurd hm (by omega)⟩
      · next hp =>
          obtain ⟨hq, j, hj, hwalk, hbetween⟩ := ih h
          refine ⟨hq, j + 1, by omega, by rw [Function.iterate_succ_apply]; exact hwalk, ?_⟩
          intro m hm
          cases m with
          | zero => exact hp
          | succ m => rw [Function.iterate_succ_apply]; exact hbetween m (by omega)

theorem scanNeighbors_notFound {k p q : ℕ} (h : s.scanNeighbors N k p = (q, false)) :
    ∀ m, m < k → ¬ s.Candidate ((getNeighborId N)^[m] p) := by
  induction k generalizing p with
  | zero => exact fun m hm => absurd hm (by omega)
  | succ k ih =>
      unfold scanNeighbors at h
      split at h
      · simp at h
      · next hp =>
          intro m hm
          cases m with
          | zero => exact hp
          | succ m => rw [Function.iterate_succ_apply]; exact ih h m (by omega)

theorem scanNeighbors_mem {k p : ℕ} (hp : p ∈ ring N) : (s.scanNeighbors N k p).1 ∈ ring N := by
  induction k generalizing p with
  | zero => exact hp
  | succ k ih =>
      unfold scanNeighbors
      split
      · exact hp
      · exact ih (getNeighborId_mapsTo N hp)

/-- A neighbour is kept while it is not held for disconnected, and otherwise replaced by the next
    candidate after `neighborId`. -/
theorem nextNeighbor_found {p q : ℕ} (h : s.nextNeighbor N p = (q, true)) :
    (q = s.actualNeighborId ∧ q ∉ s.disconnectedServers) ∨
      (s.actualNeighborId ∈ s.disconnectedServers ∧ s.Candidate q ∧
        Hop (getNeighborId N) s.Candidate p q) := by
  unfold nextNeighbor at h
  split at h
  · next hp =>
      obtain ⟨rfl, -⟩ := Prod.mk.injEq .. ▸ h
      exact .inl ⟨rfl, hp⟩
  · next hp =>
      obtain ⟨hq, j, -, hwalk, hbetween⟩ := scanNeighbors_found h
      refine .inr ⟨by simpa using hp, hq, j + 1, by omega, hwalk, fun m h0 h1 => ?_⟩
      cases m with
      | zero => omega
      | succ m => exact hbetween m (by omega)

theorem nextNeighbor_notMem {p q : ℕ} (h : s.nextNeighbor N p = (q, true)) :
    q ∉ s.disconnectedServers := by
  rcases nextNeighbor_found h with ⟨-, hq⟩ | ⟨-, hq, -⟩
  · exact hq
  · exact hq.1

/-- Without a neighbour to be found, the whole ring is held for disconnected. -/
theorem nextNeighbor_notFound {p q : ℕ} (hp : p ∈ ring N) (h : s.nextNeighbor N p = (q, false)) :
    s.actualNeighborId ∈ s.disconnectedServers ∧
      ∀ x ∈ ring N, x ≠ s.id → x ∈ s.disconnectedServers := by
  unfold nextNeighbor at h
  split at h
  · simp at h
  · next hdisc =>
      refine ⟨by simpa using hdisc, fun x hx hne => ?_⟩
      obtain ⟨j, hj, hjN, rfl⟩ := exists_iterate_getNeighborId hp hx
      have := scanNeighbors_notFound h (j - 1) (by omega)
      rw [← Function.iterate_succ_apply, show (j - 1).succ = j by omega] at this
      by_contra hmem
      exact this ⟨hmem, hne⟩

theorem nextNeighbor_mem {p : ℕ} (hp : p ∈ ring N) (hptr : s.actualNeighborId ∈ ring N) :
    (s.nextNeighbor N p).1 ∈ ring N := by
  unfold nextNeighbor
  split
  · exact hptr
  · exact scanNeighbors_mem (getNeighborId_mapsTo N hp)

/-- Server `i` is not held for disconnected, and the neighbour is not past it. -/
def hasAhead (N : ℕ) (s : Server) (i : ℕ) : Bool :=
  decide (i ∉ s.disconnectedServers) &&
    decide (ringDist N i s.id < ringDist N i s.actualNeighborId)

/-- Server `i`, the sender of an announcement, is still ahead of a server that passes the
    announcement on, unless nobody is left to pass it on to. -/
def keepsSender (N : ℕ) (s : Server) (i : ℕ) : Bool :=
  decide (i = s.id) || s.hasAhead N i || !(s.nextNeighbor N s.actualNeighborId).2

/-- A server that is ahead is not passed over. -/
theorem hasAhead_nextNeighbor {i q : ℕ} (hi : i ∈ ring N) (hptr : s.actualNeighborId ∈ ring N)
    (hne : i ≠ s.id) (hahead : s.hasAhead N i = true)
    (h : s.nextNeighbor N s.actualNeighborId = (q, true)) :
    ringDist N i s.id < ringDist N i q := by
  simp only [hasAhead, Bool.and_eq_true, decide_eq_true_eq] at hahead
  obtain ⟨hdisc, hlt⟩ := hahead
  rcases nextNeighbor_found h with ⟨rfl, -⟩ | ⟨hgone, -, j, hj, rfl, hbetween⟩
  · exact hlt
  have hle := ringDist_le hi hptr
  rcases Nat.lt_or_ge N (ringDist N i s.actualNeighborId + j) with hpast | hin
  · -- the walk would meet `i`, which is a candidate
    have hm : 0 < N - ringDist N i s.actualNeighborId := by
      rcases Nat.eq_zero_or_pos (N - ringDist N i s.actualNeighborId) with h0 | h0
      · have := iterate_ringDist hi hptr
        rw [h0, Function.iterate_zero_apply] at this
        exact absurd (this ▸ hgone) hdisc
      · exact h0
    have := hbetween _ hm (by omega)
    rw [iterate_ringDist hi hptr] at this
    exact absurd ⟨hdisc, hne⟩ this
  · rw [ringDist_iterate hi hptr hin]
    omega

variable {o : Oracle} {t : Server} {m : Msg} {self : List Msg} {dgs : List (ℕ × ElectionMsg)}

theorem nextNeighbor_mem_of_eq {r : Server} {q : ℕ} {found : Bool}
    (hptr : r.actualNeighborId ∈ ring N)
    (h : r.nextNeighbor N r.actualNeighborId = (q, found)) : q ∈ ring N := by
  have := nextNeighbor_mem hptr hptr
  rwa [h] at this

theorem Handled.actualNeighborId_mem (h : Handled N o s m t self dgs)
    (hptr : s.actualNeighborId ∈ ring N) : t.actualNeighborId ∈ ring N := by
  cases h with
  | quiet _ hsame => rw [hsame.actualNeighborId]; exact hptr
  | startDeclare q hq | startSend q hq => exact nextNeighbor_mem_of_eq (r := s.suspect _) hptr hq
  | checkDeclare c _ q hq | checkResend c _ q hq =>
      exact nextNeighbor_mem_of_eq (r := s.suspect _) hptr hq
  | electionDeclare m q hq | electionFinish m _ _ q hq | electionForward m _ _ q hq =>
      exact nextNeighbor_mem_of_eq (r := s.markDisconnected _) hptr hq
  | newLeaderDeclare m _ q hq | newLeaderForward m _ _ q hq => exact nextNeighbor_mem_of_eq hptr hq
  | _ => exact hptr

end Server

end ConcuRide
