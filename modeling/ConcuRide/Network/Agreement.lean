import ConcuRide.Network.RoundProgress

set_option autoImplicit false

/-! # Agreement

After a leader has crashed, the live replicas agree on the greatest of them, whoever starts an
election and in whatever order messages are handled and datagrams arrive. -/

namespace ConcuRide.Round

open Lib Net

variable (R : Round) (net : Net)

/-- The group when the leader has crashed and nobody has noticed: every live replica is connected to
    that leader and names it, holds no live server for disconnected, and has passed none over. The
    numbers acknowledged to it are numbers it gave out, or it knows which servers are dead. -/
structure Ready : Prop where
  servers : ∀ s ∈ R.L, ∃ srv, net.srv s = some srv
  looks : ∀ s srv, net.srv s = some srv → R.Looks s srv
  udpSender : ∀ s srv, net.srv s = some srv → srv.udpSender = true
  follows : ∀ s srv, net.srv s = some srv → srv.idLeader = R.l ∧ srv.imLeader = false
  connected : ∀ s srv, net.srv s = some srv →
    ∃ c, srv.leaderConnection = some c ∧ net.isUp c.server c.session = false
  numbers : ∀ s srv, net.srv s = some srv →
    (∀ k ∈ srv.messageReceivedAck, k < srv.sequenceNumber) ∨ R.Informed net s
  queued : ∀ s m, net.Queued s m → m = .ping ∨ (∃ addr, m = .sendLeaderId addr) ∨
    ∃ state, m = .updateNetworkState state ∧ ∀ x ∈ state.disconnectedServers, x ∉ R.L
  flight : net.flight = []
  pongs : ∀ line ∈ net.pongs, ∀ x ∈ line.state.disconnectedServers, x ∉ R.L

/-- The group when the first leader has crashed: every live replica is in its start-up state, with
    `Ping`s and copies of the leader's registry for it under way. -/
structure StartUp : Prop where
  live : ∀ s, net.live s = true ↔ s ∈ R.L
  server : ∀ s srv, net.srv s = some srv → srv.id = s ∧ srv.udpSender = true ∧
    srv.idLeader = R.l ∧ srv.imLeader = false ∧ srv.disconnectedServers = [] ∧
    srv.actualNeighborId = getNeighborId R.N s
  connected : ∀ s srv, net.srv s = some srv → ∃ c, srv.leaderConnection = some c ∧ c.server = R.l
  numbers : ∀ s srv, net.srv s = some srv →
    ∀ k ∈ srv.messageReceivedAck, k < srv.sequenceNumber
  queued : ∀ s m, net.Queued s m → m = .ping ∨
    ∃ state, m = .updateNetworkState state ∧ state.disconnectedServers = []
  flight : net.flight = []
  pongs : ∀ line ∈ net.pongs, line.state.disconnectedServers = []
  log : ∀ s, .cleared s ∉ net.log

variable {R net} {net' : Net} {l : Label} {ls : List Label}

theorem StartUp.ready (h : R.StartUp net) : R.Ready net where
  servers := fun s hs => live_iff.1 ((h.live s).2 hs)
  looks := fun s srv hs => by
    obtain ⟨hid, -, -, -, hdisc, hptr⟩ := h.server s srv hs
    have hmem := (h.live s).1 (live_iff.2 ⟨srv, hs⟩)
    exact ⟨hmem, hid, hptr ▸ (near_next hmem).aims, by simp [hdisc]⟩
  udpSender := fun s srv hs => (h.server s srv hs).2.1
  follows := fun s srv hs => ⟨(h.server s srv hs).2.2.1, (h.server s srv hs).2.2.2.1⟩
  connected := fun s srv hs => by
    obtain ⟨c, hc, hcl⟩ := h.connected s srv hs
    refine ⟨c, hc, ?_⟩
    have hdead : net.live c.server = false := by
      rw [← Bool.not_eq_true, h.live, hcl]
      exact R.gone
    rw [isUp, hdead, Bool.false_and]
  numbers := fun s srv hs => .inl (h.numbers s srv hs)
  queued := fun s m hq => by
    rcases h.queued s m hq with hping | ⟨state, hstate, hdisc⟩
    · exact .inl hping
    · exact .inr (.inr ⟨state, hstate, by simp [hdisc]⟩)
  flight := h.flight
  pongs := fun line hline => by simp [h.pongs line hline]

/-- Before anybody has noticed, nobody has dropped the leader. -/
theorem Ready.not_released (h : R.Ready net) (s : ℕ) : ¬ Released net s := by
  rintro ⟨srv, hs, hup⟩
  obtain ⟨c, hc, hdown⟩ := h.connected s srv hs
  rw [hup c hc] at hdown
  simp at hdown

theorem Ready.holds (h : R.Ready net) : R.Holds net where
  servers := h.servers
  members := fun s srv hs => ⟨h.looks s srv hs, h.udpSender s srv hs, .inl (h.follows s srv hs).1,
    fun him => by rw [(h.follows s srv hs).2] at him; simp at him⟩
  order := fun s => List.pairwise_of_forall_mem_list fun x hx y hy hblocks => by
    rcases h.queued s x hx with rfl | ⟨addr, rfl⟩ | ⟨state, rfl, -⟩ <;>
      simp [precedesNoStart] at hblocks
  starts := fun s srv hs hq => (h.follows s srv hs).1
  queued := fun s m hq => by
    rcases h.queued s m hq with rfl | ⟨addr, rfl⟩ | ⟨state, rfl, hstate⟩
    · trivial
    · trivial
    · exact hstate
  flight := by simp [h.flight]
  msg := by simp [h.flight]
  ack := by simp [h.flight]
  pongs := h.pongs

theorem Ready.voting (h : R.Ready net) : R.Voting net where
  noLeader := fun s srv hs => (h.follows s srv hs).2
  queued := fun s m hq => by
    rcases h.queued s m hq with rfl | ⟨addr, rfl⟩ | ⟨state, rfl, -⟩ <;> rfl
  flight := by simp [h.flight]
  numbers := fun s hs => by
    have hlost : R.lost net s = [] := by
      refine List.filterMap_eq_nil_iff.2 fun m hm => ?_
      rcases h.queued s m hm with rfl | ⟨addr, rfl⟩ | ⟨state, rfl, -⟩ <;> rfl
    obtain ⟨srv, hsrv⟩ := h.servers s hs
    refine (h.numbers s srv hsrv).imp_left fun hnumbers => ?_
    refine ⟨fun t k ht hk => ?_, by simp [hlost], by simp [hlost]⟩
    obtain rfl := Option.some.inj (ht.symm.trans hsrv)
    rw [hlost]
    cases hk with
    | recorded hs hk =>
        obtain rfl := Option.some.inj (hs.symm.trans hsrv)
        exact ⟨hnumbers k hk, by simp⟩
    | queued hq =>
        rcases h.queued s _ hq with hm | ⟨addr, hm⟩ | ⟨state, hm, -⟩ <;> simp at hm
    | ack hd | msg hd =>
        rw [h.flight] at hd
        simp at hd
  pending := fun ⟨x, _, hx⟩ => absurd hx (h.not_released x)

/-- Server `s` has dropped its leader, sent an election message or heard of a new leader. -/
def takesPart (s : ℕ) : Event → Bool
  | .cleared k | .sent k _ | .heard k _ => decide (k = s)
  | _ => false

/-- Whoever takes part shows that somebody has given up the leader that crashed. -/
theorem Holds.released_of_takesPart (h : R.Holds net) {s k : ℕ} {o : Oracle}
    {before after : Server} {m : Msg} {effects : List Effect} {e : Event}
    (hr : Handles R.N net net' s o before m after effects)
    (htimely : net.timely (.recv s o) = true) (he : Remembered s o before m after effects e)
    (hpart : takesPart k e = true) : ∃ x ∈ R.L, Released net' x := by
  have hmem := h.mem hr.srvBefore
  have ht := h.turn hr htimely
  cases he with
  | cleared _ hafter => exact ⟨s, hmem, after, hr.srvAfter, by simp [hafter]⟩
  | heard hm =>
      subst hm
      have hn : R.Announces net _ := h.queued s _ hr.queued
      exact ⟨s, hmem, (h.later_handles hr htimely).released s (hn.closed.released s hmem)⟩
  | sent he =>
      generalize selfMessages effects = self at ht
      generalize datagrams effects = dgs at ht he
      cases ht with
      | send _ _ hheld | resend _ _ _ hheld =>
          obtain ⟨a, ha, hbegun, -⟩ := hheld.lap
          exact ⟨a, ha, hbegun.1⟩
      | finish _ hn | pass _ hn => exact ⟨s, hmem, hn.closed.released s hmem⟩
      | _ => simp at he
  | _ => simp [takesPart] at hpart

/-- What is true of the group during the election: the invariant, that the election goes on or is
    decided, and that nobody takes part before somebody has given up the leader that crashed. -/
structure Electing (R : Round) (first net : Net) : Prop where
  holds : R.Holds net
  progress : R.Voting net ∨ R.Decided net
  begun : ∃ new, net.log = new ++ first.log ∧
    ∀ s e, e ∈ new → takesPart s e = true → ∃ x ∈ R.L, Released net x

theorem Electing.step {first : Net} (h : R.Electing first net)
    (hstep : net.step R.N l = some net') (hsteady : net.isSteady l = true) :
    R.Electing first net' := by
  refine ⟨h.holds.step hstep hsteady, progress_step h.holds h.progress hstep hsteady, ?_⟩
  obtain ⟨new, hlog, hnew⟩ := h.begun
  obtain ⟨newer, hlog', hnewer⟩ := (Net.step_cases hstep).log_append
  refine ⟨newer ++ new, by rw [hlog', hlog, List.append_assoc], fun s e hmem hpart => ?_⟩
  rcases List.mem_append.1 hmem with hmem | hmem
  · rcases hnewer e hmem with ⟨k, o, before, m, after, effects, rfl, hr, he⟩ |
      ⟨i, d, m, -, -, -, -, rfl⟩ | ⟨k, -, rfl⟩
    · simp only [isSteady, Bool.and_true] at hsteady
      exact h.holds.released_of_takesPart hr hsteady he hpart
    · simp [takesPart] at hpart
    · simp [takesPart] at hpart
  · obtain ⟨x, hx, hreleased⟩ := hnew s e hmem hpart
    refine ⟨x, hx, ?_⟩
    rcases h.holds.step_cases hstep with ⟨k, o, before, m, after, effects, rfl, hr⟩ | ⟨hs, hrecv⟩
    · simp only [isSteady, Bool.and_true] at hsteady
      exact (h.holds.later_handles hr hsteady).released x hreleased
    · exact (released_arrival hs hsteady hrecv x).2 hreleased

theorem Ready.electing (h : R.Ready net)
    (hrun : Run (step R.N) (fun net l => net.isSteady l = true) net ls net') :
    R.Electing net net' :=
  hrun.invariant (P := R.Electing net) (fun _ _ _ he hok hst => he.step hst hok)
    ⟨h.holds, .inl h.voting, [], rfl, by simp⟩

/-- **Whoever is elected is the greatest live server, and nobody else becomes leader**, whenever
    somebody has taken part since the leader crashed and nothing is left to do. -/
theorem Electing.agree {first : Net} (h : R.Electing first net) (hstill : Still net)
    {new : List Event} (hlog : net.log = new ++ first.log)
    (hpart : ∃ s, ∃ e ∈ new, takesPart s e = true) :
    ∀ x ∈ R.L, ∃ srv, net.srv x = some srv ∧ srv.idLeader = R.greatest ∧
      (srv.imLeader = true ↔ x = R.greatest) := by
  intro x hx
  obtain ⟨new', hlog', hnew⟩ := h.begun
  obtain rfl := List.append_cancel_right (hlog.symm.trans hlog')
  obtain ⟨s, e, he, hpart⟩ := hpart
  obtain ⟨srv, hsrv, hleader, him⟩ :=
    elected_of_still h.progress hstill (hnew s e he hpart) x hx
  exact ⟨srv, hsrv, hleader, (h.holds.members x srv hsrv).imLeader, him⟩

/-- **Agreement.** Let the leader crash while the live replicas are in their start-up states, and
    let any of them notice it, with any interleaving of the mailboxes and of the datagrams (each
    delivered once and acknowledged in time). Whenever an election has begun and nothing is queued
    or under way, every live replica follows the greatest of them, which is leader, and no other is. -/
theorem agreement (hstart : R.StartUp net)
    (hrun : Run (step R.N) (fun net l => net.isSteady l = true) net ls net')
    (hbegun : ∃ s, .cleared s ∈ net'.log) (hstill : Still net') :
    ∀ s ∈ R.L, ∃ srv, net'.srv s = some srv ∧ srv.idLeader = R.greatest ∧
      (srv.imLeader = true ↔ s = R.greatest) := by
  have helecting := hstart.ready.electing hrun
  obtain ⟨new, hlog, -⟩ := helecting.begun
  obtain ⟨s, hs⟩ := hbegun
  rw [hlog] at hs
  have hnew := (List.mem_append.1 hs).resolve_right (hstart.log s)
  exact helecting.agree hstill hlog ⟨s, _, hnew, by simp [takesPart]⟩

/-- Replicas 2 and 3 of three servers, when leader 1 has crashed. -/
def twoReplicas : Round where
  N := 3
  l := 1
  L := {2, 3}
  nonempty := ⟨2, by decide⟩
  inRing := by decide
  gone := by decide

/-- Both replicas are connected to server 1, and are about to notice that it is gone. -/
def bothConnected : Net where
  procs := fun s =>
    if s = 2 ∨ s = 3 then
      some ⟨{ Server.replica 3 s with leaderConnection := some ⟨1, 1⟩ }, [.ping], true⟩
    else none
  boots := fun s => if 1 ≤ s ∧ s ≤ 3 then 1 else 0
  flight := []
  pongs := []
  log := []

theorem startUp_bothConnected : twoReplicas.StartUp bothConnected := by
  have hprocs : ∀ s srv, bothConnected.srv s = some srv → (s = 2 ∨ s = 3) ∧
      srv = { Server.replica 3 s with leaderConnection := some ⟨1, 1⟩ } := by
    intro s t hs
    by_cases h : s = 2 ∨ s = 3
    · exact ⟨h, by simpa [srv, bothConnected, h, eq_comm] using hs⟩
    · simp [srv, bothConnected, h] at hs
  refine ⟨fun s => ?_, fun s srv hs => ?_, fun s srv hs => ?_, fun s srv hs => ?_,
    fun s m hq => .inl ?_, rfl, by simp [bothConnected], by simp [bothConnected]⟩
  · by_cases h : s = 2 ∨ s = 3 <;> simp [live, bothConnected, twoReplicas, h]
  · obtain ⟨-, rfl⟩ := hprocs s srv hs
    exact ⟨rfl, rfl, rfl, rfl, rfl, rfl⟩
  · obtain ⟨-, rfl⟩ := hprocs s srv hs
    exact ⟨_, rfl, rfl⟩
  · obtain ⟨-, rfl⟩ := hprocs s srv hs
    simp [Server.replica, Server.lider]
  · by_cases h : s = 2 ∨ s = 3
    · simpa [Queued, mailbox, bothConnected, h] using hq
    · simp [Queued, mailbox, bothConnected, h] at hq

/-- Both replicas start an election, and the two go round at the same time. -/
def twoElections : List Label :=
  [.recv 2 .down, .recv 3 .down, .recv 2 .up, .deliver 0, .deliver 0, .recv 3 .up, .deliver 0,
    .deliver 0, .recv 2 .up, .recv 3 .up, .deliver 0, .deliver 0, .recv 2 .up, .recv 3 .up,
    .recv 2 .up, .deliver 0, .deliver 0, .recv 3 .up, .recv 2 .up, .recv 3 .up, .recv 2 .up,
    .deliver 0, .deliver 0, .recv 3 .up, .recv 2 .up, .recv 3 .up, .recv 2 .up, .recv 3 .up,
    .deliver 0, .deliver 0, .recv 2 .up, .recv 3 .up, .recv 2 .up, .recv 3 .up, .deliver 0,
    .deliver 0, .recv 2 .up, .recv 3 .up, .recv 2 .up, .deliver 0, .deliver 0, .recv 3 .up,
    .recv 2 .up, .recv 3 .up, .recv 2 .up, .recv 3 .up, .recv 2 .up, .recv 3 .up,
    .recv 2 ⟨true, some ⟨3, 1⟩⟩, .recv 3 .up, .recv 2 .up, .recv 3 .up,
    .recv 2 ⟨true, some ⟨3, 1⟩⟩, .recv 2 .up]

theorem agreement_twoElections : ∃ net : Net,
    Run (step 3) (fun net l => net.isSteady l = true) bothConnected twoElections net ∧
    ∀ s ∈ ({2, 3} : Finset ℕ), ∃ srv, net.srv s = some srv ∧ srv.idLeader = 3 ∧
      (srv.imLeader = true ↔ s = 3) := by
  obtain ⟨net, hrun, hover⟩ := exists_run_of_exec isSteady bothConnected twoElections
    (fun net => (net.mailbox 2).isEmpty && (net.mailbox 3).isEmpty && net.flight.isEmpty &&
      decide (.cleared 2 ∈ net.log))
    (show (exec (step 3) _ _ _).any _ = true by decide +kernel)
  simp only [Bool.and_eq_true, List.isEmpty_iff, decide_eq_true_eq] at hover
  obtain ⟨⟨⟨h2, h3⟩, hflight⟩, hcleared⟩ := hover
  have hholds := (startUp_bothConnected.ready.electing hrun).holds
  refine ⟨net, hrun, agreement startUp_bothConnected hrun ⟨2, hcleared⟩ ⟨fun s => ?_, hflight⟩⟩
  cases hs : net.srv s with
  | none => exact mailbox_of_dead hs
  | some srv =>
      have hmem : s ∈ ({2, 3} : Finset ℕ) := hholds.mem hs
      rcases Finset.mem_insert.1 hmem with rfl | hmem
      · exact h2
      · rw [Finset.mem_singleton.1 hmem]
        exact h3

end ConcuRide.Round
