import Mathlib.Order.Lattice.Nat
import ConcuRide.Lib.Budget
import ConcuRide.Network.Agreement

set_option autoImplicit false

/-! # Elections end

However many elections are under way among the live servers, and whatever else reaches them
meanwhile, they are over after a bounded number of steps, as long as those are steady
(`Net.isSteady`). A server that repeats an election to one dead neighbour after the other comes
closer to the next live server each time (`Round.gap`), an election is joined by one more server
each time it is sent on, and an announcement comes closer to the server that sent it. -/

namespace ConcuRide

/-- Messages that an election is made of, and those that follow it. -/
def Msg.isElection : Msg → Bool
  | .startElection | .waitForNeighborAck _ | .checkIfNeighborAcked _ | .election _ | .newLeader _
  | .neighborAck _ | .connectToServer => true
  | _ => false

/-- A step of an election: a server handles one of its messages or finds its leader gone, or a
    datagram arrives. -/
def Net.electionStep (net : Net) : Label → Bool
  | .recv s o =>
    match net.mailbox s with
    | [] => false
    | .ping :: _ => !o.connected &&
        (net.srv s).any fun srv => srv.leaderConnection.isSome && !srv.imLeader
    | m :: _ => m.isElection
  | .deliver _ => true
  | _ => false

/-- How many steps of an election a run takes. -/
def Net.electionSteps (N : ℕ) (net : Net) (ls : List Label) : ℕ :=
  Lib.spent (Net.step N) (fun net l => (net.electionStep l).toNat) net ls

namespace Round

open Lib Net

variable (R : Round)

/-! ## The way to the next live server -/

/-- How many steps lead from `p` to the first live server, other than `s`; none, when `p` is
    alive. -/
noncomputable def gap (s p : ℕ) : ℕ :=
  if p ∈ R.L then 0 else sInf {d | ∃ x ∈ R.L, x ≠ s ∧ ringDist R.N p x = d}

/-- Server `s` is not the only one alive. -/
def Accompanied (s : ℕ) : Prop := ∃ x ∈ R.L, x ≠ s

variable {R} {s p q : ℕ} {before after : Server} {m : Msg}

theorem gap_of_mem (hp : p ∈ R.L) : R.gap s p = 0 := if_pos hp

theorem gap_le_dist {x : ℕ} (hx : x ∈ R.L) (hne : x ≠ s) : R.gap s p ≤ ringDist R.N p x := by
  unfold gap
  split
  · exact Nat.zero_le _
  · exact Nat.sInf_le ⟨x, hx, hne, rfl⟩

/-- The gap before a dead server ends at a live one. -/
theorem exists_gap (hs : R.Accompanied s) (hp : p ∉ R.L) :
    ∃ x ∈ R.L, x ≠ s ∧ ringDist R.N p x = R.gap s p := by
  obtain ⟨x, hx, hne⟩ := hs
  rw [gap, if_neg hp]
  have hsome : {d | ∃ x ∈ R.L, x ≠ s ∧ ringDist R.N p x = d}.Nonempty := ⟨_, x, hx, hne, rfl⟩
  exact Nat.sInf_mem hsome

theorem gap_le (hs : R.Accompanied s) (hp : p ∈ ring R.N) : R.gap s p ≤ R.N := by
  obtain ⟨x, hx, hne⟩ := hs
  exact (gap_le_dist hx hne).trans (ringDist_le hp (R.inRing x hx))

/-- A walk that does not reach `x` comes closer to it by its length. -/
theorem ringDist_iterate_left {N x y : ℕ} (hx : x ∈ ring N) (hy : y ∈ ring N) {j : ℕ}
    (hj : j < ringDist N y x) : ringDist N ((getNeighborId N)^[j] y) x + j = ringDist N y x := by
  induction j with
  | zero => rfl
  | succ j ih =>
      have hj' := ih (by omega)
      have hz := iterate_getNeighborId_mem hy j
      rw [Function.iterate_succ_apply']
      generalize (getNeighborId N)^[j] y = z at hj' hz ⊢
      generalize ringDist N y x = d at hj hj' ⊢
      rw [mem_ring] at hx hz
      unfold ringDist getNeighborId at *
      split at hj' <;> split <;> split <;> omega

/-- A hop over servers that are no candidates ends closer to the next live server. -/
theorem Looks.gap_hop (h : R.Looks s before) (hs : R.Accompanied s)
    (hdead : before.actualNeighborId ∉ R.L)
    (hhop : Hop (getNeighborId R.N) before.Candidate before.actualNeighborId q) :
    R.gap s q < R.gap s before.actualNeighborId := by
  have hring := h.aims.1
  obtain ⟨x, hx, hne, hgap⟩ := exists_gap hs hdead
  obtain ⟨j, hj, rfl, hbetween⟩ := hhop
  have hx' := R.inRing x hx
  rcases Nat.lt_trichotomy j (ringDist R.N before.actualNeighborId x) with hlt | heq | hgt
  · have hwalk := ringDist_iterate_left hx' hring hlt
    have hle := gap_le_dist (p := (getNeighborId R.N)^[j] before.actualNeighborId) hx hne
    omega
  · rw [heq, walk_ringDist hring hx', gap_of_mem hx, ← hgap]
    exact ringDist_pos hring hx'
  · -- the walk would have met a live server
    refine absurd (h.candidate hx hne) ?_
    have hmet := hbetween _ (ringDist_pos hring hx') hgt
    rwa [walk_ringDist hring hx'] at hmet

/-- `update_neighbor` leaves a neighbour that is not held for disconnected, or comes closer to the
    next live server. -/
theorem Looks.found_gap (h : R.Looks s before) (hs : R.Accompanied s)
    (hq : before.nextNeighbor R.N before.actualNeighborId = (q, true)) :
    (q = before.actualNeighborId ∧ q ∉ before.disconnectedServers) ∨
      R.gap s q < R.gap s before.actualNeighborId := by
  rcases Server.nextNeighbor_found hq with hkept | ⟨hdisc, -, hhop⟩
  · exact .inl hkept
  · exact .inr (h.gap_hop hs (h.dead _ hdisc) hhop)

/-- Server `p` is the neighbour `t` of `s`, or lies before it. -/
def Behind (R : Round) (s p t : ℕ) : Prop := p = t ∨ R.gap s t < R.gap s p

theorem Behind.trans {t u : ℕ} (h : R.Behind s p t) (h' : R.Behind s t u) : R.Behind s p u := by
  rcases h with rfl | h
  · exact h'
  · rcases h' with rfl | h'
    · exact .inr h
    · exact .inr (h'.trans h)

/-- **A neighbour never goes back**, as long as another server is alive. -/
theorem Looks.behind (h : R.Looks s before) (hs : R.Accompanied s) {o : Oracle}
    {self : List Msg} {dgs : List (ℕ × ElectionMsg)}
    (hh : before.Handled R.N o m after self dgs) (hm : R.Spares before m) :
    R.Behind s before.actualNeighborId after.actualNeighborId := by
  -- the outcome of `update_neighbor` at `r`, the server that holds one more for disconnected
  have updated : ∀ {r : Server} {found : Bool}, R.Looks s r →
      r.actualNeighborId = before.actualNeighborId →
      r.nextNeighbor R.N before.actualNeighborId = (after.actualNeighborId, found) →
      R.Behind s before.actualNeighborId after.actualNeighborId := by
    intro r found hr hptr hq
    rw [← hptr] at hq ⊢
    cases found with
    | true => exact (hr.found_gap hs hq).imp_left fun h => h.1.symm
    | false =>
        obtain ⟨x, hx, hne⟩ := hs
        exact absurd ((hr.notFound hq).2.2 x hx) hne
  cases hh with
  | quiet _ hsame => exact .inl hsame.actualNeighborId.symm
  | startDeclare q hq | startSend q hq => exact updated (h.suspect (hm.start rfl)) rfl hq
  | checkDeclare c hc q hq | checkResend c hc q hq =>
      exact updated (h.suspect (hm.check c rfl hc)) rfl hq
  | electionDeclare e q hq | electionFinish e _ _ q hq | electionForward e _ _ q hq =>
      exact updated (h.markDisconnected (hm.election e rfl)) rfl hq
  | newLeaderDeclare e _ q hq | newLeaderForward e _ _ q hq => exact updated h rfl hq
  | _ => exact .inl rfl

/-- The server whose acknowledgement a message waits for. -/
def awaited : Msg → Option ℕ
  | .waitForNeighborAck w => some w.neighborId
  | .checkIfNeighborAcked c => some c.neighborId
  | _ => none

/-- Whoever a server waits for is its neighbour, or lies before it. -/
def Tracks (R : Round) (net : Net) : Prop :=
  ∀ s srv m p, net.srv s = some srv → net.Queued s m → awaited m = some p →
    R.Behind s p srv.actualNeighborId

variable {net net' : Net} {l : Label} {o : Oracle} {effects : List Effect} {k : ℕ}

theorem awaited_of_quiet (h : m.isQuiet = true) : awaited m = none := by
  cases m with
  | waitForNeighborAck | checkIfNeighborAcked => simp [Msg.isQuiet] at h
  | _ => rfl

/-- A server begins to wait for its neighbour, or goes on to wait as before. -/
theorem awaited_handled {self : List Msg} {dgs : List (ℕ × ElectionMsg)}
    (hh : before.Handled R.N o m after self dgs) {x : Msg} (hx : x ∈ self)
    (hp : awaited x = some p) :
    p = after.actualNeighborId ∨ (after = before ∧ awaited m = some p) := by
  -- a wait for the new neighbour
  have new : ∀ {e : ElectionMsg} {q : ℕ}, x = Server.waiting e q →
      after.actualNeighborId = q → p = after.actualNeighborId := by
    rintro e q rfl rfl
    exact (Option.some.inj hp).symm
  cases hh with
  | quiet _ _ _ hquiet => simp [awaited_of_quiet (hquiet x hx)] at hp
  | startSend | electionFinish | electionForward => exact .inl (new (List.mem_singleton.1 hx) rfl)
  | wait w =>
      obtain rfl := List.mem_singleton.1 hx
      exact .inr ⟨rfl, hp⟩
  | checkResend =>
      obtain rfl := List.mem_singleton.1 hx
      exact .inl (Option.some.inj hp).symm
  | newLeaderForward =>
      rcases List.mem_cons.1 hx with hx | hx
      · exact .inl (new hx rfl)
      · obtain rfl := Server.mem_connecting hx
        simp [awaited] at hp
  | newLeaderDeclare =>
      rcases List.mem_cons.1 hx with rfl | hx
      · simp [awaited] at hp
      · obtain rfl := Server.mem_connecting hx
        simp [awaited] at hp
  | newLeaderOwn =>
      obtain rfl := Server.mem_connecting hx
      simp [awaited] at hp
  | startDeclare | checkDeclare | electionDeclare | pingLost =>
      obtain rfl := List.mem_singleton.1 hx
      simp [awaited] at hp
  | _ => simp at hx

theorem Tracks.handles (h : R.Tracks net) (hh : R.Holds net) (hs : R.Accompanied s)
    (hr : Handles R.N net net' s o before m after effects)
    (htimely : net.timely (.recv s o) = true) : R.Tracks net' := by
  have hbehind := (hh.members s before hr.srvBefore).looks.behind hs hr.handled
    (hh.spares hr htimely)
  intro k srv x p hsrv hq hp
  rcases hr.srv_cases hsrv with ⟨rfl, rfl⟩ | ⟨hks, hold⟩
  · rcases hr.queued_cases hq with hq | ⟨-, hself⟩
    · exact (h k before x p hr.srvBefore hq hp).trans hbehind
    · rcases awaited_handled hr.handled hself hp with rfl | ⟨-, hm⟩
      · exact .inl rfl
      · exact (h k before m p hr.srvBefore hr.queued hm).trans hbehind
  · rw [Queued, (hr.others k hks).2] at hq
    exact h k srv x p hold hq hp

theorem Tracks.arrival (h : R.Tracks net) (hstep : Step R.N net l net')
    (hsteady : net.isSteady l = true) (hrecv : ∀ s o, l ≠ .recv s o) : R.Tracks net' := by
  intro k srv x p hsrv hq hp
  rw [srv_arrival hstep hsteady hrecv] at hsrv
  rcases mailbox_arrival hstep hsteady hrecv k with heq | ⟨y, hy, heq⟩
  · rw [Queued, heq] at hq
    exact h k srv x p hsrv hq hp
  · rw [Queued, heq] at hq
    rcases List.mem_append.1 hq with hq | hq
    · exact h k srv x p hsrv hq hp
    · obtain rfl := List.mem_singleton.1 hq
      cases hy with
      | posted _ hm =>
          rcases quiet_of_reaches hm with hquiet | rfl
          · simp [awaited_of_quiet hquiet] at hp
          · simp [awaited] at hp
      | @msg i d e x hx => cases e <;> simp [hx, ElectionMsg.toMsg, awaited] at hp
      | silence => simp [awaited] at hp
      | _ => simp [awaited] at hp

/-! ## What is left to do -/

variable (R) in
/-- The live servers that have yet to join an election. -/
def missing (e : Election) : ℕ := (R.L.filter fun x => x ∉ e.serverIds).card

variable (R) in
/-- How far an announcement that is at `y` is from its sender. -/
def left (n : NewLeader) (y : ℕ) : ℕ := if y = n.idSender then 0 else ringDist R.N y n.idSender

variable (R) in
/-- What an election message costs from the mailbox of `y` on. -/
def travel (y : ℕ) : ElectionMsg → ℕ
  | .election e => 8 + 7 * R.N + R.missing e * (2 * R.N + 8)
  | .newLeader n => 2 + 7 * R.left n y

variable (R) in
/-- What an election costs that has yet to be started. -/
def toStart : ℕ := 8 + 7 * R.N + R.L.card * (2 * R.N + 8)

variable (R) in
/-- What a message in the mailbox of `s` costs. -/
noncomputable def weight (s : ℕ) : Msg → ℕ
  | .startElection => R.toStart
  | .waitForNeighborAck w =>
    if w.neighborId ∈ R.L then 2 else 2 * R.gap s w.neighborId + 7 + R.travel s w.serializedMsg
  | .checkIfNeighborAcked c =>
    if c.neighborId ∈ R.L then 1 else 2 * R.gap s c.neighborId + 6 + R.travel s c.serializedMsg
  | .election e => R.travel s (.election e)
  | .newLeader n => R.travel s (.newLeader n)
  | .neighborAck _ | .connectToServer => 1
  | _ => 0

variable (R) in
/-- What a datagram costs. -/
def packetWeight (d : Packet) : ℕ :=
  match d.body with
  | .ack _ => 2
  | .msg e => 3 + R.travel d.dst e

variable (R) in
open Classical in
/-- What a server costs that has yet to notice that its leader is gone. -/
noncomputable def toNotice (net : Net) (s : ℕ) : ℕ := if Released net s then 0 else R.toStart + 1

variable (R) in
/-- What waits in the mailboxes costs. -/
noncomputable def waiting (net : Net) : ℕ :=
  R.L.sum fun s => ((net.mailbox s).map (R.weight s)).sum

variable (R) in
/-- **What is left to do in the group.** -/
noncomputable def potential (net : Net) : ℕ :=
  R.waiting net + (net.flight.map R.packetWeight).sum + R.L.sum (R.toNotice net)

theorem missing_le (e : Election) : R.missing e ≤ R.L.card := Finset.card_filter_le _ _

/-- Whoever joins an election is not missing any more. -/
theorem missing_join {e e' : Election} (hs : s ∈ R.L) (hnew : s ∉ e.serverIds)
    (hids : e'.serverIds = e.serverIds ++ [s]) : R.missing e' + 1 ≤ R.missing e := by
  refine Finset.card_lt_card (Finset.ssubset_iff_of_subset ?_ |>.2 ⟨s, ?_, ?_⟩)
  · intro x hx
    rw [hids, Finset.mem_filter] at hx
    exact Finset.mem_filter.2 ⟨hx.1, fun hmem => hx.2 (List.mem_append_left _ hmem)⟩
  · exact Finset.mem_filter.2 ⟨hs, hnew⟩
  · rw [hids, Finset.mem_filter]
    exact fun hx => hx.2 (List.mem_append_right _ (List.mem_singleton_self s))

theorem travel_join {e e' : Election} (hs : s ∈ R.L) (hnew : s ∉ e.serverIds)
    (hids : e'.serverIds = e.serverIds ++ [s]) (y z : ℕ) :
    R.travel y (.election e') + (2 * R.N + 8) ≤ R.travel z (.election e) := by
  have hle := Nat.mul_le_mul_right (2 * R.N + 8) (missing_join hs hnew hids)
  rw [Nat.succ_mul] at hle
  simp only [travel]
  omega

theorem travel_start {e : Election} (hs : s ∈ R.L) (hids : e.serverIds = [s]) (y : ℕ) :
    R.travel y (.election e) + (2 * R.N + 8) ≤ R.toStart := by
  have hle := travel_join hs (e := { e with serverIds := [] }) (List.not_mem_nil) hids y y
  have hmissing := Nat.mul_le_mul_right (2 * R.N + 8)
    (R.missing_le { e with serverIds := [] })
  simp only [travel, toStart] at hle ⊢
  omega

/-- Wherever it is, an election costs the same. -/
theorem travel_election (e : Election) (y z : ℕ) :
    R.travel y (.election e) = R.travel z (.election e) := rfl

theorem left_le {n : NewLeader} {y : ℕ} (hn : n.idSender ∈ R.L) (hy : y ∈ R.L) :
    R.left n y ≤ R.N := by
  unfold left
  split
  · exact Nat.zero_le _
  · exact ringDist_le (R.inRing y hy) (R.inRing _ hn)

/-- The next live server is closer to the sender. -/
theorem left_lt {n : NewLeader} (hs : s ∈ R.L) (hn : n.idSender ∈ R.L) (hne : n.idSender ≠ s)
    (hq : q ∈ R.L) (hnear : R.Near s q) : R.left n q < R.left n s := by
  have hle := hnear.2 _ hn
  rw [left, left, if_neg (Ne.symm hne)]
  split
  · exact ringDist_pos (R.inRing s hs) (R.inRing _ hn)
  · next hne' =>
      have hs := mem_ring.1 (R.inRing s hs)
      have hq := mem_ring.1 (R.inRing q hq)
      have hn := mem_ring.1 (R.inRing _ hn)
      unfold ringDist at *
      split at hle <;> split at hle <;> split <;> omega

/-! ## Every step of an election is paid for -/

variable (R) in
/-- What the datagrams of a server cost; one to a dead server is lost at once. -/
def sending (dgs : List (ℕ × ElectionMsg)) : ℕ :=
  (dgs.map fun d => if d.1 ∈ R.L then 3 + R.travel d.1 d.2 else 0).sum

variable (R) in
/-- What a server sends itself costs. -/
noncomputable def keeping (s : ℕ) (self : List Msg) : ℕ := (self.map (R.weight s)).sum

@[simp] theorem sending_nil : R.sending [] = 0 := rfl

@[simp] theorem keeping_nil : R.keeping s [] = 0 := rfl

theorem sending_singleton (q : ℕ) (e : ElectionMsg) :
    R.sending [(q, e)] = if q ∈ R.L then 3 + R.travel q e else 0 := by simp [sending]

theorem keeping_cons (x : Msg) (self : List Msg) :
    R.keeping s (x :: self) = R.weight s x + R.keeping s self := by simp [keeping]

theorem keeping_singleton (x : Msg) : R.keeping s [x] = R.weight s x := by simp [keeping]

theorem weight_of_quiet (h : m.isQuiet = true) : R.weight s m = 0 := by
  cases m with
  | startElection | waitForNeighborAck | checkIfNeighborAcked | election | newLeader
  | neighborAck | connectToServer => simp [Msg.isQuiet] at h
  | _ => rfl

theorem keeping_quiet {self : List Msg} (h : ∀ x ∈ self, x.isQuiet = true) :
    R.keeping s self = 0 := by
  rw [keeping, List.sum_eq_zero]
  intro n hn
  obtain ⟨x, hx, rfl⟩ := List.mem_map.1 hn
  exact weight_of_quiet (h x hx)

theorem keeping_connecting (srv : Server) (leaderId : ℕ) :
    R.keeping s (srv.connecting leaderId) ≤ 1 := by
  unfold Server.connecting
  split
  · rw [keeping_singleton]
    exact Nat.le_refl 1
  · exact Nat.zero_le 1

/-- An election that is sent to the neighbour, and repeated until it is acknowledged. -/
theorem sent_election_le (hs : R.Accompanied s) (hq : q ∈ ring R.N) (e : Election) :
    R.weight s (Server.waiting (.election e) q) + R.sending [(q, .election e)] ≤
      2 * R.N + 7 + R.travel s (.election e) := by
  have hgap := gap_le hs hq
  rw [sending_singleton, travel_election e q s]
  simp only [Server.waiting, weight]
  split <;> omega

/-- An announcement that is sent to a live server. -/
theorem sent_newLeader (hq : q ∈ R.L) (n : NewLeader) :
    R.weight s (Server.waiting (.newLeader n) q) + R.sending [(q, .newLeader n)] =
      7 + 7 * R.left n q := by
  rw [sending_singleton, if_pos hq]
  simp only [Server.waiting, weight, if_pos hq, travel]
  omega

theorem packets_weight (h : R.Holds net) :
    ((net.packets s effects).map R.packetWeight).sum = R.sending (datagrams effects) := by
  rw [packets, sending]
  induction datagrams effects with
  | nil => rfl
  | cons d dgs ih =>
      have hudp : net.hasUdp d.1 = true ↔ d.1 ∈ R.L := by
        refine ⟨fun hudp => ?_, h.hasUdp⟩
        obtain ⟨srv, hsrv, -⟩ := hasUdp_iff.1 hudp
        exact h.mem hsrv
      by_cases hd : d.1 ∈ R.L
      · rw [List.filter_cons, if_pos (hudp.2 hd), List.map_cons, List.map_cons, List.sum_cons, ih,
          List.map_cons, List.sum_cons, if_pos hd]
        rfl
      · rw [List.filter_cons, if_neg (mt hudp.1 hd), ih, List.map_cons, List.sum_cons, if_neg hd,
          Nat.zero_add]

/-- A step that is none of an election costs nothing. -/
theorem electionStep_recv {rest : List Msg} (hbox : net.mailbox s = m :: rest) (hm : m ≠ .ping) :
    net.electionStep (.recv s o) = m.isElection := by
  simp only [electionStep, hbox]

theorem isElection_of_quiet (h : m.isQuiet = true) : m.isElection = false := by
  cases m with
  | startElection | waitForNeighborAck | checkIfNeighborAcked | election | newLeader
  | neighborAck | connectToServer => simp [Msg.isQuiet] at h
  | _ => rfl

/-- Whoever repeats an election to another server comes closer to the next live one. -/
theorem Tracks.resend (h : R.Tracks net) (hlooks : R.Looks s before) (hs : R.Accompanied s)
    (hsrv : net.srv s = some before) {c : CheckIfNeighborAcked}
    (hq : net.Queued s (.checkIfNeighborAcked c)) (hdead : c.neighborId ∉ R.L)
    (hfound : (before.suspect c.neighborId).nextNeighbor R.N before.actualNeighborId = (q, true)) :
    R.gap s q < R.gap s c.neighborId := by
  rcases (hlooks.suspect hdead).found_gap hs hfound with ⟨heq, hnot⟩ | hlt
  · obtain rfl : q = before.actualNeighborId := heq
    refine (h s before _ _ hsrv hq rfl).resolve_left fun heq => ?_
    exact hnot (List.mem_append_right _ (List.mem_singleton.2 heq.symm))
  · rcases h s before _ _ hsrv hq rfl with heq | hlt'
    · exact heq ▸ hlt
    · exact Nat.lt_trans hlt hlt'

/-- **A server pays for the message it handles** with what that message was to cost. -/
theorem Holds.pays (h : R.Holds net) (htracks : R.Tracks net) (hs : R.Accompanied s)
    (hr : Handles R.N net net' s o before m after effects)
    (htimely : net.timely (.recv s o) = true) :
    R.keeping s (selfMessages effects) + R.sending (datagrams effects) + R.toNotice net' s +
        (net.electionStep (.recv s o)).toNat ≤ R.weight s m + R.toNotice net s := by
  obtain ⟨rest, hbox, -⟩ := hr.mailbox
  have hcost : (net.electionStep (.recv s o)).toNat ≤ 1 := Bool.toNat_le _
  have hlater := h.later_handles hr htimely
  have hspares := h.spares hr htimely
  have hexpected : R.Expected net s m := h.queued s m hr.queued
  have ht := h.turn hr htimely
  have hlooks := (h.members s before hr.srvBefore).looks
  have hnotice : R.toNotice net' s ≤ R.toNotice net s := by
    unfold toNotice
    split
    · exact Nat.zero_le _
    · next hnot => rw [if_neg fun hx => hnot (hlater.released s hx)]
  have hfree : m ≠ .ping → m.isElection = false → (net.electionStep (.recv s o)).toNat = 0 := by
    intro hping hm
    rw [electionStep_recv hbox hping, hm]
    rfl
  -- another server is alive, so a neighbour is always found
  have notAlone : ¬ ∀ x ∈ R.L, x = s := fun halone => by
    obtain ⟨x, hx, hne⟩ := hs
    exact hne (halone x hx)
  have hlink : R.Linked net s → before.actualNeighborId ∈ R.L := by
    rintro ⟨srv, hsrv, hin⟩
    obtain rfl := Option.some.inj (hsrv.symm.trans hr.srvBefore)
    exact hin
  have hh := hr.handled
  generalize selfMessages effects = self at hh ht ⊢
  generalize datagrams effects = dgs at hh ht ⊢
  cases hh with
  | quiet hm _ _ hself =>
      have hping : m ≠ .ping := by
        rintro rfl
        simp [Msg.isQuiet] at hm
      rw [keeping_quiet hself, sending_nil, hfree hping (isElection_of_quiet hm)]
      omega
  | setLeader => exact hexpected.elim
  | pingIdle hidle =>
      have hno : net.electionStep (.recv s o) = false := by
        simp only [electionStep, hbox, hr.srvBefore, Option.any_some, Bool.and_eq_false_iff,
          Bool.not_eq_false']
        rcases hidle with hnone | him | ho
        · simp [hnone]
        · simp [him]
        · exact .inl ho
      rw [keeping_nil, sending_nil, hno]
      simp only [Bool.toNat_false]
      omega
  | pingLost c hc him ho =>
      have hnew := (ht.starts (List.mem_singleton_self _)).2.1
      have hreleased : Released net' s := ⟨_, hr.srvAfter, by simp⟩
      rw [keeping_singleton, sending_nil, toNotice, toNotice, if_pos hreleased, if_neg hnew, weight]
      omega
  | startDeclare q hq =>
      exact absurd ((hlooks.suspect (hspares.start rfl)).notFound hq).2.2 notAlone
  | startSend q hq =>
      have hring := ((hlooks.suspect (hspares.start rfl)).found hq).1.1
      have hsent := sent_election_le hs hring before.firstElection
      have hstart := travel_start (e := before.firstElection) hlooks.mem
        (congrArg (fun x => [x]) hlooks.id) s
      rw [keeping_singleton, if_pos (h.members s before hr.srvBefore).udpSender, weight]
      omega
  | wait w =>
      rw [keeping_singleton, sending_nil]
      simp only [weight]
      split <;> omega
  | checkAcked c hc =>
      rw [keeping_nil, sending_nil]
      simp only [weight]
      split <;> omega
  | checkDeclare c hc q hq =>
      exact absurd ((hlooks.suspect (hspares.check c rfl hc)).notFound hq).2.2 notAlone
  | checkResend c hc q hq =>
      have hdead := hspares.check c rfl hc
      have hgap := htracks.resend hlooks hs hr.srvBefore hr.queued hdead hq
      obtain ⟨e, he, -⟩ := Awaits.dead hexpected hdead
      rw [keeping_singleton, if_pos (h.members s before hr.srvBefore).udpSender,
        sending_singleton]
      simp only [weight, if_neg hdead, he, travel_election e q s]
      split <;> omega
  | electionDeclare e q hq =>
      exact absurd ((hlooks.markDisconnected (hspares.election e rfl)).notFound hq).2.2 notAlone
  | electionFinish e hin _ q hq =>
      rw [hlooks.id] at hin
      obtain ⟨-, -, -, hlinked⟩ := Incoming.complete hexpected hin
      obtain ⟨-, hkeep⟩ := (hlooks.markDisconnected (hspares.election e rfl)).found hq
      have hmem : q ∈ R.L := by
        rw [hkeep (hlink hlinked)]
        exact hlink hlinked
      have hid : (before.announcement e).idSender = s := hlooks.id
      have hleft := left_le (hid ▸ hlooks.mem) hmem (n := before.announcement e)
      have hsent := sent_newLeader (s := s) hmem (before.announcement e)
      have hweight : R.weight s (.election e) =
          8 + 7 * R.N + R.missing e * (2 * R.N + 8) := rfl
      rw [keeping_singleton, hweight]
      omega
  | electionForward e hnew _ q hq =>
      rw [hlooks.id] at hnew
      have hring := ((hlooks.markDisconnected (hspares.election e rfl)).found hq).1.1
      have hsent := sent_election_le hs hring (before.nextElection e)
      have hids : (before.nextElection e).serverIds = e.serverIds ++ [s] :=
        congrArg (fun x => e.serverIds ++ [x]) hlooks.id
      have hjoin := travel_join hlooks.mem hnew hids s s
      rw [keeping_singleton, weight]
      omega
  | newLeaderOwn n hown =>
      have hconn := keeping_connecting (R := R) (s := s) before n.leaderId
      rw [sending_nil]
      simp only [weight, travel]
      omega
  | newLeaderDeclare n hown q hq => exact absurd (hlooks.notFound hq).2.2 notAlone
  | newLeaderForward n hown _ q hq =>
      have hn : R.Announces net n := hexpected
      rw [hlooks.id] at hown
      obtain ⟨haims, hkeep⟩ := hlooks.found hq
      have hptr := hlink (hn.linked hlooks.mem hown)
      obtain rfl := hkeep hptr
      have hleft := left_lt hlooks.mem hn.sender hown hptr (haims.near hptr)
      have hsent := sent_newLeader (s := s) hptr n
      have hconn := keeping_connecting (R := R) (s := s) before n.leaderId
      have hweight : R.weight s (.newLeader n) = 2 + 7 * R.left n s := rfl
      rw [keeping_cons, hweight]
      omega
  | ack | connectFailed | connected =>
      rw [keeping_nil, sending_nil, weight]
      omega

theorem toNotice_congr (h : Released net' k ↔ Released net k) :
    R.toNotice net' k = R.toNotice net k := by
  rw [toNotice, toNotice, propext h]

/-- A message in one more mailbox is to be paid for. -/
theorem waiting_enqueue {x : Msg} (hk : k ∈ R.L)
    (hbox : ∀ j, net'.mailbox j = if j = k then net.mailbox j ++ [x] else net.mailbox j) :
    R.waiting net' = R.waiting net + R.weight k x := by
  have hsum := sum_add_of_eq_others (f := fun j => ((net.mailbox j).map (R.weight j)).sum)
    (g := fun j => ((net'.mailbox j).map (R.weight j)).sum) hk
    fun j _ hjk => by rw [hbox, if_neg hjk]
  rw [hbox k, if_pos rfl, List.map_append, List.sum_append, List.map_singleton,
    List.sum_singleton] at hsum
  simp only [waiting]
  omega

theorem potential_handles (h : R.Holds net) (htracks : R.Tracks net) (hs : R.Accompanied s)
    (hr : Handles R.N net net' s o before m after effects)
    (htimely : net.timely (.recv s o) = true) :
    R.potential net' + (net.electionStep (.recv s o)).toNat ≤ R.potential net := by
  have hmem := h.mem hr.srvBefore
  have hpays := h.pays htracks hs hr htimely
  obtain ⟨rest, hbox, hbox'⟩ := hr.mailbox
  have hmail := sum_add_of_eq_others (f := fun k => ((net.mailbox k).map (R.weight k)).sum)
    (g := fun k => ((net'.mailbox k).map (R.weight k)).sum) hmem
    fun k _ hks => by rw [(hr.others k hks).2]
  have hbefore : ((net.mailbox s).map (R.weight s)).sum =
      R.weight s m + (rest.map (R.weight s)).sum := by rw [hbox, List.map_cons, List.sum_cons]
  have hafter : ((net'.mailbox s).map (R.weight s)).sum =
      (rest.map (R.weight s)).sum + R.keeping s (selfMessages effects) := by
    rw [hbox', List.map_append, List.sum_append, keeping]
  have hnotice := sum_add_of_eq_others (f := R.toNotice net) (g := R.toNotice net') hmem
    fun k _ hks => by
      have hsame : Released net' k ↔ Released net k := by
        simp only [Released, (hr.others k hks).1, isUp, hr.boots, Bool.and_eq_true]
        simp only [hr.live_eq]
      exact toNotice_congr hsame
  have hflight : (net'.flight.map R.packetWeight).sum =
      (net.flight.map R.packetWeight).sum + R.sending (datagrams effects) := by
    rw [hr.flight, List.map_append, List.sum_append, packets_weight h]
  simp only [potential, waiting, hflight]
  omega

theorem packetWeight_pos (d : Packet) : 0 < R.packetWeight d := by
  unfold packetWeight
  split <;> omega

/-- What reaches a server from outside costs nothing. -/
theorem weight_of_reaches {srv : Server} (h : reaches srv m = true) : R.weight s m = 0 := by
  rcases quiet_of_reaches h with hquiet | rfl
  · exact weight_of_quiet hquiet
  · rfl

theorem potential_arrival (h : R.Holds net) (hstep : Step R.N net l net')
    (hsteady : net.isSteady l = true) (hrecv : ∀ s o, l ≠ .recv s o) :
    R.potential net' + (net.electionStep l).toNat ≤ R.potential net := by
  have hnotice : R.L.sum (R.toNotice net') = R.L.sum (R.toNotice net) :=
    Finset.sum_congr rfl fun k _ => toNotice_congr (released_arrival hstep hsteady hrecv k)
  have hmem : ∀ {k : ℕ} {p : Proc}, net.procs k = some p → k ∈ R.L := fun hp =>
    h.mem (srv_eq_some.2 ⟨_, hp, rfl⟩)
  simp only [potential, hnotice]
  cases hstep with
  | recv | panic => exact absurd rfl (hrecv _ _)
  | @post s m p hp hm =>
      rw [waiting_enqueue (hmem hp) fun j => mailbox_enqueue hp, weight_of_reaches hm]
      exact Nat.le_refl _
  | @deliverLost i d hd _ =>
      have hsum := sum_map_eraseIdx R.packetWeight hd
      have hpos := packetWeight_pos (R := R) d
      show R.waiting net + ((net.flight.eraseIdx i).map R.packetWeight).sum + _ + 1 ≤ _
      omega
  | @deliverAck i d a hd hudp hb =>
      obtain ⟨p, hp⟩ := procs_of_hasUdp hudp
      have hsum := sum_map_eraseIdx R.packetWeight hd
      have hweight : R.packetWeight d = 2 := by rw [packetWeight, hb]
      have hmail : R.waiting ({ net with flight := net.flight.eraseIdx i }.enqueue d.dst
          (.neighborAck a)) = R.waiting net + 1 :=
        waiting_enqueue (hmem hp) fun j => mailbox_enqueue hp
      rw [hmail]
      show _ + ((net.flight.eraseIdx i).map R.packetWeight).sum + _ + 1 ≤ _
      omega
  | @deliverMsg i d e hd hudp hb =>
      obtain ⟨p, hp⟩ := procs_of_hasUdp hudp
      have hsum := sum_map_eraseIdx R.packetWeight hd
      have hweight : R.packetWeight d = 3 + R.travel d.dst e := by rw [packetWeight, hb]
      have hmail : R.waiting (net.received i d e) = R.waiting net + R.travel d.dst e := by
        rw [waiting_enqueue (hmem hp) fun j => mailbox_received hp]
        cases e <;> rfl
      have hflight : ((net.received i d e).flight.map R.packetWeight).sum ≤
          ((net.flight.eraseIdx i).map R.packetWeight).sum + 2 := by
        rw [received, List.map_append, List.sum_append]
        split <;> simp [packetWeight, ackOf]
      rw [hmail]
      show _ + _ + _ + 1 ≤ _
      omega
  | pongLost => exact Nat.le_refl _
  | @pongArrives i line hline hup =>
      obtain ⟨srv, hsrv⟩ := live_iff.1 (Bool.and_eq_true _ _ ▸ hup).1
      obtain ⟨p, hp, -⟩ := srv_eq_some.1 hsrv
      have hmail : R.waiting ({ net with pongs := net.pongs.eraseIdx i }.enqueue line.dst
          (.updateNetworkState line.state)) = R.waiting net :=
        waiting_enqueue (hmem hp) fun j => mailbox_enqueue hp
      rw [hmail]
      exact Nat.le_refl _
  | drop | duplicate | silence | crash | boot | dial | dialFailed =>
      simp [isSteady, timely] at hsteady

/-- **Every step of an election is paid for.** -/
theorem potential_step (h : R.Holds net) (htracks : R.Tracks net)
    (htwo : ∀ s, R.Accompanied s) (hstep : net.step R.N l = some net')
    (hsteady : net.isSteady l = true) :
    R.Tracks net' ∧ R.potential net' + (net.electionStep l).toNat ≤ R.potential net := by
  rcases h.step_cases hstep with ⟨s, o, before, m, after, effects, rfl, hr⟩ | ⟨hs, hrecv⟩
  · simp only [isSteady, Bool.and_true] at hsteady
    exact ⟨htracks.handles h (htwo s) hr hsteady,
      potential_handles h htracks (htwo s) hr hsteady⟩
  · exact ⟨htracks.arrival hs hsteady hrecv, potential_arrival h hs hsteady hrecv⟩

/-! ## Runs -/

/-- Before anybody has noticed, nobody waits. -/
theorem Ready.tracks (h : R.Ready net) : R.Tracks net := by
  intro s srv m p _ hq hp
  rcases h.queued s m hq with rfl | ⟨addr, rfl⟩ | ⟨state, rfl, -⟩ <;> simp [awaited] at hp

/-- Before anybody has noticed, every server has an election to start. -/
theorem Ready.potential (h : R.Ready net) : R.potential net = R.L.card * (R.toStart + 1) := by
  have hwaiting : R.waiting net = 0 := by
    refine Finset.sum_eq_zero fun s _ => ?_
    rw [List.sum_eq_zero]
    intro n hn
    obtain ⟨m, hm, rfl⟩ := List.mem_map.1 hn
    rcases h.queued s m hm with rfl | ⟨addr, rfl⟩ | ⟨state, rfl, -⟩ <;> rfl
  have hnotice : R.L.sum (R.toNotice net) = R.L.card * (R.toStart + 1) :=
    Finset.sum_const_nat fun s _ => if_neg (h.not_released s)
  rw [Round.potential, hwaiting, h.flight, hnotice, List.map_nil, List.sum_nil]
  omega

/-- What is left to do pays for every run. -/
theorem electionSteps_le {ls : List Label} (h : R.Holds net) (htracks : R.Tracks net)
    (htwo : 1 < R.L.card)
    (hrun : Run (step R.N) (fun net l => net.isSteady l = true) net ls net') :
    R.potential net' + net.electionSteps R.N ls ≤ R.potential net := by
  have hothers : ∀ s, R.Accompanied s := Finset.exists_mem_ne htwo
  refine hrun.spent_le (I := fun net => R.Holds net ∧ R.Tracks net) ?_ ?_ ⟨h, htracks⟩
  · rintro net l net' ⟨h, htracks⟩ hok hstep
    exact ⟨h.step hstep hok, (potential_step h htracks hothers hstep hok).1⟩
  · rintro net l net' ⟨h, htracks⟩ hok hstep
    exact (potential_step h htracks hothers hstep hok).2

/-- **Elections end.** From a crash of the leader on, as long as no server comes or goes, no
    datagram is lost or duplicated and no acknowledgement is late, the live replicas take at most a
    fixed number of election steps, however many of them start an election, and whatever clients and
    pings reach the servers meanwhile. -/
theorem elections_end {ls : List Label} (hstart : R.Ready net) (htwo : 1 < R.L.card)
    (hrun : Run (step R.N) (fun net l => net.isSteady l = true) net ls net') :
    net.electionSteps R.N ls ≤ R.L.card * (9 + 7 * R.N + R.L.card * (2 * R.N + 8)) := by
  have hpaid := electionSteps_le hstart.holds hstart.tracks htwo hrun
  rw [hstart.potential, toStart] at hpaid
  have hbound : 8 + 7 * R.N + R.L.card * (2 * R.N + 8) + 1 =
      9 + 7 * R.N + R.L.card * (2 * R.N + 8) := by omega
  rw [hbound] at hpaid
  omega

/-- Two replicas that both start an election. -/
theorem elections_end_twoElections :
    bothConnected.electionSteps twoReplicas.N twoElections ≤ 116 := by
  obtain ⟨net, hrun, -⟩ : ∃ net, Run (step twoReplicas.N) (fun net l => net.isSteady l = true)
      bothConnected twoElections net ∧ true = true :=
    exists_run_of_exec isSteady bothConnected twoElections (fun _ => true) (by decide +kernel)
  have hle := elections_end startUp_bothConnected.ready (by decide) hrun
  have hbound : twoReplicas.L.card * (9 + 7 * twoReplicas.N +
      twoReplicas.L.card * (2 * twoReplicas.N + 8)) = 116 := by decide
  rwa [hbound] at hle

end Round

end ConcuRide
