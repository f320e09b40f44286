import Mathlib.Data.Finset.Max
import ConcuRide.Server.Ring

set_option autoImplicit false

/-! # Laps around the live servers

The servers that are alive while an election is held, and the token that collects them: on its way
from one live server to the next it holds exactly the live servers between the one it started from
and the one it is sent to, so it holds all of them when it is back. -/

namespace ConcuRide

/-- An election among the live servers `L` on the ring `1..N`, after the crash of leader `l`. -/
structure Round where
  N : ℕ
  l : ℕ
  L : Finset ℕ
  nonempty : L.Nonempty
  inRing : ∀ s ∈ L, s ∈ ring N
  gone : l ∉ L

namespace Round

variable (R : Round)

/-- The server to be elected. -/
def greatest : ℕ := R.L.max' R.nonempty

theorem greatest_mem : R.greatest ∈ R.L := R.L.max'_mem R.nonempty

theorem le_greatest {x : ℕ} (hx : x ∈ R.L) : x ≤ R.greatest := R.L.le_max' x hx

/-- There is no live server between `s` and `p`. -/
def Near (s p : ℕ) : Prop := p ∈ ring R.N ∧ ∀ x ∈ R.L, ringDist R.N s p ≤ ringDist R.N s x

/-- A walk from `p` on first meets the live server that follows `s`: no live server is before `p`,
    or all of them are and `p` is dead. -/
def Aims (s p : ℕ) : Prop :=
  p ∈ ring R.N ∧ ((∀ x ∈ R.L, ringDist R.N s p ≤ ringDist R.N s x) ∨
    (p ∉ R.L ∧ ∀ x ∈ R.L, x ≠ s → ringDist R.N s x < ringDist R.N s p))

/-- A token from `a` on its way to `q`: the live servers from `a` to `q`, without `q`. -/
def Lap (ids : List ℕ) (a q : ℕ) : Prop :=
  ∀ x, x ∈ ids ↔ x ∈ R.L ∧ (x = a ∨ ringDist R.N a x < ringDist R.N a q)

/-- A token from `a` that `s` was the last to join: the live servers from `a` to `s`. -/
def Gathered (ids : List ℕ) (a s : ℕ) : Prop :=
  ∀ x, x ∈ ids ↔ x ∈ R.L ∧ (x = a ∨ (s ≠ a ∧ ringDist R.N a x ≤ ringDist R.N a s))

variable {R} {ids : List ℕ} {a s q x : ℕ}

theorem near_next (hs : s ∈ R.L) : R.Near s (getNeighborId R.N s) := by
  refine ⟨getNeighborId_mapsTo R.N (R.inRing s hs), fun x hx => ?_⟩
  have hpos := ringDist_pos (R.inRing s hs) (R.inRing x hx)
  have := mem_ring.1 (R.inRing s hs)
  unfold ringDist getNeighborId at *
  split <;> split <;> omega

theorem Near.aims (h : R.Near s q) : R.Aims s q := ⟨h.1, .inl h.2⟩

theorem Aims.near (h : R.Aims s q) (hq : q ∈ R.L) : R.Near s q :=
  ⟨h.1, h.2.resolve_right fun hbeyond => hbeyond.1 hq⟩

/-- The live server that follows `s` lies after `s`. -/
theorem lt_of_near (ha : a ∈ R.L) (hs : s ∈ R.L) (hq : q ∈ R.L) (hne : s ≠ a)
    (hnear : R.Near s q) : ringDist R.N a s < ringDist R.N a q := by
  have h := hnear.2 a ha
  have := mem_ring.1 (R.inRing a ha)
  have := mem_ring.1 (R.inRing s hs)
  have := mem_ring.1 (R.inRing q hq)
  unfold ringDist at *
  split at h <;> split at h <;> split <;> split <;> omega

/-- What lies before the successor of `s` lies not after `s`. -/
theorem le_of_lt_near (ha : a ∈ R.L) (hs : s ∈ R.L) (hq : q ∈ R.L) (hx : x ∈ R.L)
    (hnear : R.Near s q) (hlt : ringDist R.N a x < ringDist R.N a q) :
    s ≠ a ∧ ringDist R.N a x ≤ ringDist R.N a s := by
  have h := hnear.2 x hx
  have := mem_ring.1 (R.inRing a ha)
  have := mem_ring.1 (R.inRing s hs)
  have := mem_ring.1 (R.inRing q hq)
  have := mem_ring.1 (R.inRing x hx)
  unfold ringDist at *
  split at h <;> split at h <;> split at hlt <;> split at hlt <;> constructor <;>
    first
      | (rintro rfl; omega)
      | (split <;> split <;> omega)

theorem Gathered.start (hs : s ∈ R.L) : R.Gathered [s] s s := by
  intro x
  simp only [List.mem_singleton, ne_eq, not_true_eq_false, false_and, or_false]
  constructor
  · rintro rfl
    exact ⟨hs, rfl⟩
  · exact And.right

/-- A token is sent on to the next live server. -/
theorem Gathered.send (h : R.Gathered ids a s) (ha : a ∈ R.L) (hs : s ∈ R.L) (hq : q ∈ R.L)
    (hnear : R.Near s q) : R.Lap ids a q := by
  intro x
  rw [h x]
  refine and_congr_right fun hx => or_congr_right ⟨fun ⟨hne, hle⟩ => ?_, fun hlt => ?_⟩
  · exact Nat.lt_of_le_of_lt hle (lt_of_near ha hs hq hne hnear)
  · exact le_of_lt_near ha hs hq hx hnear hlt

/-- A server that is not on it joins a token. -/
theorem Lap.collect (h : R.Lap ids a q) (ha : a ∈ R.L) (hq : q ∈ R.L) (hnew : q ∉ ids) :
    R.Gathered (ids ++ [q]) a q := by
  have hne : q ≠ a := fun heq => hnew ((h q).2 ⟨hq, .inl heq⟩)
  intro x
  rw [List.mem_append, List.mem_singleton, h x]
  constructor
  · rintro (⟨hx, rfl | hlt⟩ | rfl)
    · exact ⟨hx, .inl rfl⟩
    · exact ⟨hx, .inr ⟨hne, hlt.le⟩⟩
    · exact ⟨hq, .inr ⟨hne, le_refl _⟩⟩
  · rintro ⟨hx, rfl | ⟨-, hle⟩⟩
    · exact .inl ⟨hx, .inl rfl⟩
    · by_cases hxq : x = q
      · exact .inr hxq
      · refine .inl ⟨hx, .inr (lt_of_le_of_ne hle fun heq => hxq ?_)⟩
        exact ringDist_inj (R.inRing a ha) (R.inRing x hx) (R.inRing q hq) heq

/-- **A token that is back holds all live servers.** -/
theorem Lap.complete (h : R.Lap ids a q) (hq : q ∈ ids) :
    q = a ∧ ∀ x, x ∈ ids ↔ x ∈ R.L := by
  obtain ⟨hqL, rfl | hlt⟩ := (h q).1 hq
  · refine ⟨rfl, fun x => (h x).trans ⟨And.left, fun hx => ⟨hx, ?_⟩⟩⟩
    by_cases hxq : x = q
    · exact .inl hxq
    · right
      rw [ringDist_self]
      refine lt_of_le_of_ne (ringDist_le (R.inRing q hqL) (R.inRing x hx)) fun heq => hxq ?_
      exact ringDist_inj (R.inRing q hqL) (R.inRing x hx) (R.inRing q hqL)
        (heq.trans ringDist_self.symm)
  · exact absurd hlt (lt_irrefl _)

/-! ## What `update_neighbor` finds among the live servers -/

/-- A server that holds only dead servers for disconnected, and whose neighbour passes over no live
    one. -/
structure Looks (R : Round) (s : ℕ) (srv : Server) : Prop where
  mem : s ∈ R.L
  id : srv.id = s
  aims : R.Aims s srv.actualNeighborId
  dead : ∀ x ∈ srv.disconnectedServers, x ∉ R.L

variable {srv : Server}

/-- All live servers but `s` are candidates. -/
theorem Looks.candidate (h : R.Looks s srv) (hx : x ∈ R.L) (hne : x ≠ s) : srv.Candidate x :=
  ⟨fun hdisc => h.dead x hdisc hx, h.id ▸ hne⟩

/-- A hop over servers that are no candidates does not pass over the live server that follows. -/
theorem Looks.hop (h : R.Looks s srv) (hptr : srv.actualNeighborId ∉ R.L)
    (hhop : Lib.Hop (getNeighborId R.N) srv.Candidate srv.actualNeighborId q)
    (hq : srv.Candidate q) : R.Aims s q := by
  obtain ⟨hring, haims⟩ := h.aims
  obtain ⟨j, hj, rfl, hbetween⟩ := hhop
  have hs := R.inRing s h.mem
  have hqring := iterate_getNeighborId_mem hring j
  refine ⟨hqring, ?_⟩
  rcases Nat.lt_or_ge R.N (ringDist R.N s srv.actualNeighborId + j) with hpast | hin
  · -- the walk comes back to `s` after `m` steps, and goes on from there
    left
    intro x hx
    by_cases hxs : x = s
    · rw [hxs, ringDist_self]
      exact ringDist_le hs hqring
    have hx' := R.inRing x hx
    have hle := ringDist_le hs hring
    obtain ⟨m, hm⟩ : ∃ m, ringDist R.N s srv.actualNeighborId + m = R.N :=
      ⟨R.N - ringDist R.N s srv.actualNeighborId, by omega⟩
    have hback : ∀ d, (getNeighborId R.N)^[d + m] srv.actualNeighborId =
        (getNeighborId R.N)^[d] s := by
      intro d
      have hm' := iterate_ringDist hs hring
      rw [show R.N - ringDist R.N s srv.actualNeighborId = m by omega] at hm'
      rw [Function.iterate_add_apply, hm']
    have hxle := ringDist_le hs hx'
    have hlast : j ≤ ringDist R.N s x + m := by
      by_contra hlt
      have hpos := ringDist_pos hs hx'
      refine hbetween (ringDist R.N s x + m) (by omega) (by omega) ?_
      rw [hback, walk_ringDist hs hx']
      exact h.candidate hx hxs
    obtain ⟨d, rfl⟩ := Nat.exists_eq_add_of_le' (show m ≤ j by omega)
    rw [hback, ringDist_walk hs (by omega) (by omega)]
    omega
  · have hdist := ringDist_iterate hs hring hin
    rcases haims with hnear | ⟨-, hbeyond⟩
    · -- a live server before the end of the walk would have been met
      left
      intro x hx
      rw [hdist]
      by_cases hxs : x = s
      · rw [hxs, ringDist_self]
        exact hin
      by_contra hlt
      have hx' := R.inRing x hx
      obtain ⟨k, hk⟩ := Nat.exists_eq_add_of_le (hnear x hx)
      have hxk : (getNeighborId R.N)^[k] srv.actualNeighborId = x := by
        refine ringDist_inj hs (iterate_getNeighborId_mem hring k) hx' ?_
        rw [ringDist_iterate hs hring (by omega), hk]
      rcases Nat.eq_zero_or_pos k with rfl | hkpos
      · rw [Function.iterate_zero_apply] at hxk
        exact hptr (hxk ▸ hx)
      · exact hbetween k hkpos (by omega) (hxk ▸ h.candidate hx hxs)
    · have hlt : ∀ x ∈ R.L, x ≠ s → ringDist R.N s x <
          ringDist R.N s ((getNeighborId R.N)^[j] srv.actualNeighborId) := by
        intro x hx hxs
        have := hbeyond x hx hxs
        omega
      exact .inr ⟨fun hmem => absurd (hlt _ hmem (h.id ▸ hq.2)) (lt_irrefl _), hlt⟩

/-- No live server is passed over. -/
theorem Looks.found (h : R.Looks s srv)
    (hq : srv.nextNeighbor R.N srv.actualNeighborId = (q, true)) :
    R.Aims s q ∧ (srv.actualNeighborId ∈ R.L → q = srv.actualNeighborId) := by
  rcases Server.nextNeighbor_found hq with ⟨rfl, -⟩ | ⟨hdisc, hcand, hhop⟩
  · exact ⟨h.aims, fun _ => rfl⟩
  · exact ⟨h.hop (h.dead _ hdisc) hhop hcand, fun hptr => absurd hptr (h.dead _ hdisc)⟩

/-- A server that finds no neighbour is alone. -/
theorem Looks.notFound (h : R.Looks s srv)
    (hq : srv.nextNeighbor R.N srv.actualNeighborId = (q, false)) :
    R.Aims s q ∧ srv.actualNeighborId ∉ R.L ∧ ∀ x ∈ R.L, x = s := by
  obtain ⟨hptr, hall⟩ := Server.nextNeighbor_notFound h.aims.1 hq
  have halone : ∀ x ∈ R.L, x = s := by
    intro x hx
    by_contra hne
    exact h.dead x (hall x (R.inRing x hx) (h.id ▸ hne)) hx
  have hring := Server.nextNeighbor_mem_of_eq h.aims.1 hq
  refine ⟨⟨hring, .inl fun x hx => ?_⟩, h.dead _ hptr, halone⟩
  rw [halone x hx, ringDist_self]
  exact ringDist_le (R.inRing s h.mem) hring

/-- One more dead server held for disconnected. -/
theorem Looks.append (h : R.Looks s srv) (hx : x ∉ R.L) {r : Server} (hid : r.id = srv.id)
    (hptr : r.actualNeighborId = srv.actualNeighborId)
    (hdisc : r.disconnectedServers = srv.disconnectedServers ++ [x]) : R.Looks s r where
  mem := h.mem
  id := hid.trans h.id
  aims := hptr ▸ h.aims
  dead := fun y hy => by
    rw [hdisc] at hy
    rcases List.mem_append.1 hy with hy | hy
    · exact h.dead y hy
    · exact List.mem_singleton.1 hy ▸ hx

theorem Looks.suspect (h : R.Looks s srv) (hx : x ∉ R.L) : R.Looks s (srv.suspect x) :=
  h.append hx rfl rfl rfl

theorem Looks.markDisconnected (h : R.Looks s srv) (hx : x ∉ R.L) :
    R.Looks s (srv.markDisconnected x) :=
  h.append hx rfl rfl rfl

/-- A message does not make its server hold a live one for disconnected. -/
structure Spares (R : Round) (srv : Server) (m : Msg) : Prop where
  start : m = .startElection → srv.idLeader ∉ R.L
  check : ∀ c, m = .checkIfNeighborAcked c → c.sequenceNumber ∉ srv.messageReceivedAck →
    c.neighborId ∉ R.L
  election : ∀ e, m = .election e → e.disconnectedLeaderId ∉ R.L
  state : ∀ state, m = .updateNetworkState state → ∀ x ∈ state.disconnectedServers, x ∉ R.L

variable {o : Oracle} {t : Server} {m : Msg} {self : List Msg} {dgs : List (ℕ × ElectionMsg)}

/-- **A server keeps looking for the next live one**, and stays with a neighbour that is alive. -/
theorem Looks.handled (h : R.Looks s srv) (hh : srv.Handled R.N o m t self dgs)
    (hm : R.Spares srv m) :
    R.Looks s t ∧ (srv.actualNeighborId ∈ R.L → t.actualNeighborId = srv.actualNeighborId) := by
  -- the outcome of `update_neighbor` at `r`, the server that holds one more for disconnected
  have updated : ∀ {r : Server} {q : ℕ} {found : Bool}, R.Looks s r →
      r.actualNeighborId = srv.actualNeighborId →
      r.nextNeighbor R.N srv.actualNeighborId = (q, found) → t.id = r.id →
      t.actualNeighborId = q → t.disconnectedServers = r.disconnectedServers →
      R.Looks s t ∧ (srv.actualNeighborId ∈ R.L → t.actualNeighborId = srv.actualNeighborId) := by
    intro r q found hr hptr hq hid hqt hdisc
    rw [← hptr] at hq ⊢
    subst hqt
    cases found with
    | true =>
        obtain ⟨haims, hkeep⟩ := hr.found hq
        exact ⟨⟨hr.mem, hid.trans hr.id, haims, hdisc ▸ hr.dead⟩, hkeep⟩
    | false =>
        obtain ⟨haims, hptr', -⟩ := hr.notFound hq
        exact ⟨⟨hr.mem, hid.trans hr.id, haims, hdisc ▸ hr.dead⟩, fun hin => absurd hin hptr'⟩
  -- the pointer stays, and nobody new is held for disconnected
  have kept : t.id = srv.id → t.actualNeighborId = srv.actualNeighborId →
      (∀ x ∈ t.disconnectedServers, x ∉ R.L) →
      R.Looks s t ∧ (srv.actualNeighborId ∈ R.L → t.actualNeighborId = srv.actualNeighborId) :=
    fun hid hptr hdead => ⟨⟨h.mem, hid.trans h.id, hptr ▸ h.aims, hdead⟩, fun _ => hptr⟩
  cases hh with
  | quiet _ hsame hdisc =>
      refine kept hsame.id hsame.actualNeighborId fun x hx => ?_
      rcases hdisc x hx with hx | ⟨state, hstate, hx⟩
      · exact h.dead x hx
      · exact hm.state state hstate x hx
  | startDeclare q hq | startSend q hq =>
      exact updated (h.suspect (hm.start rfl)) rfl hq rfl rfl rfl
  | checkDeclare c hc q hq | checkResend c hc q hq =>
      exact updated (h.suspect (hm.check c rfl hc)) rfl hq rfl rfl rfl
  | electionDeclare e q hq | electionFinish e _ _ q hq | electionForward e _ _ q hq =>
      exact updated (h.markDisconnected (hm.election e rfl)) rfl hq rfl rfl rfl
  | newLeaderDeclare e _ q hq | newLeaderForward e _ _ q hq => exact updated h rfl hq rfl rfl rfl
  | ack a => exact kept rfl rfl fun x hx => h.dead x (List.mem_filter.1 hx).1
  | _ => exact kept rfl rfl h.dead

end Round

end ConcuRide
