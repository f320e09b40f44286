import ConcuRide.Network.Steps

set_option autoImplicit false

/-! # Leader uniqueness

An election elects the greatest server alive, as long as no live server above it is passed over, and
a leader that is the greatest server alive is elected again. So no two live servers are leaders
unless somebody declares itself or passes a greater server over, starts an election against a leader
that cannot win it, or joins while an election is under way that does not know of it. -/

namespace ConcuRide

open Lib

variable {N : ℕ}

/-- The election message that a message brings, or that it waits for. -/
def Msg.electionMsg : Msg → Option ElectionMsg
  | .election e => some (.election e)
  | .newLeader m => some (.newLeader m)
  | .waitForNeighborAck w => some w.serializedMsg
  | .checkIfNeighborAcked c => some c.serializedMsg
  | _ => none

@[simp] theorem electionMsg_toMsg (e : ElectionMsg) : e.toMsg.electionMsg = some e := by
  cases e <;> rfl

@[simp] theorem electionMsg_waiting (e : ElectionMsg) (q : ℕ) :
    (Server.waiting e q).electionMsg = some e := rfl

theorem Msg.electionMsg_quiet {m : Msg} (h : m.isQuiet = true) : m.electionMsg = none := by
  cases m <;> first | rfl | simp [Msg.isQuiet] at h

def Body.electionMsg : Body → Option ElectionMsg
  | .msg e => some e
  | .ack _ => none

namespace Net

variable (N : ℕ) (net : Net)

/-- The election messages that are under way or may still be repeated. -/
def outstanding : List ElectionMsg :=
  net.flight.filterMap (fun d => d.body.electionMsg) ++
    (List.range (N + 1)).flatMap fun k => (net.mailbox k).filterMap Msg.electionMsg

/-! ## When no leader is threatened -/

/-- The running servers. -/
def liveServers : List ℕ := (List.range (N + 1)).filter net.live

/-- No two running servers are leaders. -/
def OneLeader : Prop :=
  ∀ a b sa sb, net.srv a = some sa → net.srv b = some sb → sa.imLeader = true →
    sb.imLeader = true → a = b

/-! ## The invariant -/

/-- A message that is sent to `k`: an election has passed over no live server above the ids it
    carries, an announcement is about a server above all live ones. -/
def Brings (k : ℕ) : ElectionMsg → Prop
  | .election e => (serverRing N).Passed (net.live · = true) e.serverIds k
  | .newLeader m => ∀ x, net.live x = true → x ≤ m.leaderId

/-- A message that `k` repeats: an election that `k` has joined last, or an announcement. -/
def Repeats (k : ℕ) : ElectionMsg → Prop
  | .election e => (serverRing N).Collected (net.live · = true) e.serverIds k
  | .newLeader m => ∀ x, net.live x = true → x ≤ m.leaderId

def Sound (k : ℕ) : Msg → Prop
  | .election e => net.Brings N k (.election e)
  | .newLeader m => net.Brings N k (.newLeader m)
  | .waitForNeighborAck w => net.Repeats N k w.serializedMsg
  | .checkIfNeighborAcked c => net.Repeats N k c.serializedMsg
  | _ => True

/-- What keeps the leader unique. -/
structure ElectsGreatest : Prop where
  queued : ∀ k m, net.Queued k m → net.Sound N k m
  flight : ∀ d ∈ net.flight, ∀ e, d.body = .msg e → net.Brings N d.dst e
  /-- while an election is under way, the leader is the greatest server alive -/
  leaders : ∀ e ∈ net.outstanding N, ∀ k s, net.srv k = some s → s.imLeader = true →
    s.udpSender = true ∧ ∀ x, net.live x = true → x ≤ k
  unique : net.OneLeader

variable {N net} {net' : Net} {l : Label} {k s : ℕ}

theorem mem_liveServers (hv : Valid N net) {x : ℕ} :
    x ∈ net.liveServers N ↔ net.live x = true := by
  refine ⟨fun h => (List.mem_filter.1 h).2, fun h => List.mem_filter.2 ⟨?_, h⟩⟩
  obtain ⟨srv, hsrv⟩ := live_iff.1 h
  have := mem_ring.1 (hv.ids x srv hsrv).1
  exact List.mem_range.2 (by omega)

theorem mem_outstanding (hv : Valid N net) {e : ElectionMsg} :
    e ∈ net.outstanding N ↔ (∃ d ∈ net.flight, d.body = .msg e) ∨
      ∃ k m, net.Queued k m ∧ m.electionMsg = some e := by
  have hbody : ∀ d : Packet, d.body.electionMsg = some e ↔ d.body = .msg e := by
    intro d
    cases d.body <;> simp [Body.electionMsg]
  simp only [outstanding, List.mem_append, List.mem_filterMap, List.mem_flatMap, hbody]
  refine or_congr_right ⟨?_, ?_⟩
  · rintro ⟨k, -, m, hm, he⟩
    exact ⟨k, m, hm, he⟩
  · rintro ⟨k, m, hm, he⟩
    have hk : ∃ srv, net.srv k = some srv := by
      cases hsrv : net.srv k with
      | none => simp [Queued, mailbox_of_dead hsrv] at hm
      | some srv => exact ⟨srv, rfl⟩
    obtain ⟨srv, hsrv⟩ := hk
    have := mem_ring.1 (hv.ids k srv hsrv).1
    exact ⟨k, List.mem_range.2 (by omega), m, hm, he⟩

/-! ### Fewer servers alive -/

section OfLive

variable {e : ElectionMsg} {m : Msg}

end OfLive

/-! ### A server that handles no message -/

/-- What arrives at a mailbox was under way. -/
theorem Arrives.outstanding (hv : Valid N net) {m : Msg} (h : Arrives N net net' l k m)
    {e : ElectionMsg} (he : m.electionMsg = some e) : e ∈ net.outstanding N := by
  cases h with
  | posted hs hm =>
      rcases quiet_of_reaches hm with hq | rfl
      · rw [Msg.electionMsg_quiet hq] at he
        simp at he
      · simp [Msg.electionMsg] at he
  | msg hx hd hb hudp hlog =>
      subst hx
      rw [electionMsg_toMsg] at he
      obtain rfl := Option.some.inj he
      exact (mem_outstanding hv).2 (.inl ⟨_, hd, hb⟩)
  | ack | pong | silence | dial => simp [Msg.electionMsg] at he

/-- Unless a server handles a message, no election message is added to those under way. -/
theorem Step.outstanding_le (hv : Valid N net) (hv' : Valid N net') (h : Step N net l net')
    (hrecv : ∀ s o before m after effects, l = .recv s o →
      ¬ Handles N net net' s o before m after effects)
    {e : ElectionMsg} (he : e ∈ net'.outstanding N) : e ∈ net.outstanding N := by
  rcases (mem_outstanding hv').1 he with ⟨d, hd, hb⟩ | ⟨k, x, hx, hex⟩
  · rcases h.flight_cases hd with hd | ⟨s, o, before, m, after, effects, hl, hr, -⟩ |
      ⟨d', e', -, -, -, -, rfl⟩
    · exact (mem_outstanding hv).2 (.inl ⟨d, hd, hb⟩)
    · exact absurd hr (hrecv _ _ _ _ _ _ hl)
    · simp [ackOf] at hb
  · rcases h.queued_cases hx with hx | hx | ⟨o, before, m, after, effects, hl, hr, -⟩
    · exact (mem_outstanding hv).2 (.inr ⟨k, x, hx, hex⟩)
    · exact hx.outstanding hv hex
    · exact absurd hr (hrecv _ _ _ _ _ _ hl)

section Recv

variable {o : Oracle} {before after : Server} {m : Msg} {effects : List Effect}

/-- Election messages are sent when an election starts, or when one is handled. -/
theorem Handles.calls (hr : Handles N net net' s o before m after effects) {e : ElectionMsg}
    (he : (∃ q, (q, e) ∈ datagrams effects) ∨ ∃ x ∈ selfMessages effects, x.electionMsg = some e) :
    m = .startElection ∨ ∃ e', m.electionMsg = some e' := by
  have hh := hr.handled
  generalize selfMessages effects = self at hh he
  generalize datagrams effects = dgs at hh he
  have hconn : ∀ {b : Server} {i : ℕ} {x : Msg}, x ∈ b.connecting i →
      x.electionMsg = none := by
    intro b i x hx
    rw [Server.mem_connecting hx]
    rfl
  cases hh with
  | quiet _ _ _ hself =>
      rcases he with ⟨q, he⟩ | ⟨x, hx, he⟩
      · simp at he
      · rw [Msg.electionMsg_quiet (hself x hx)] at he
        simp at he
  | startDeclare | startSend => exact .inl rfl
  | electionDeclare | electionFinish | electionForward | newLeaderOwn | newLeaderDeclare
  | newLeaderForward | wait | checkAcked | checkDeclare | checkResend => exact .inr ⟨_, rfl⟩
  | pingLost => simp [Msg.electionMsg] at he
  | _ => simp at he

/-- Handling a message leaves the same servers running. -/
theorem Handles.live_eq (hr : Handles N net net' s o before m after effects) (x : ℕ) :
    net'.live x = true ↔ net.live x = true := by
  rw [live_iff, live_iff]
  by_cases hx : x = s
  · subst hx
    exact ⟨fun _ => ⟨_, hr.srvBefore⟩, fun _ => ⟨_, hr.srvAfter⟩⟩
  · rw [(hr.others x hx).1]

theorem Handles.procs (hr : Handles N net net' s o before m after effects) :
    ∃ p rest, net.procs s = some p ∧ p.srv = before ∧ p.mailbox = m :: rest := by
  obtain ⟨p, hp, rfl⟩ := srv_eq_some.1 hr.srvBefore
  obtain ⟨rest, hbox, -⟩ := hr.mailbox
  exact ⟨p, rest, hp, rfl, (mailbox_of_procs hp).symm.trans hbox⟩

/-- The greatest id is not below any other. -/
theorem le_greatestId {ids : List ℕ} {i : ℕ} (hi : i ∈ ids) : i ≤ Server.greatestId ids := by
  have hfold : ∀ (ids : List ℕ) (a : ℕ),
      a ≤ ids.foldl (fun leaderId id => if id > leaderId then id else leaderId) a ∧
        ∀ i ∈ ids, i ≤ ids.foldl (fun leaderId id => if id > leaderId then id else leaderId) a := by
    intro ids
    induction ids with
    | nil => exact fun a => ⟨le_refl a, by simp⟩
    | cons id ids ih =>
        intro a
        obtain ⟨hle, hall⟩ := ih (if id > a then id else a)
        have hmax : a ≤ (if id > a then id else a) ∧ id ≤ if id > a then id else a := by
          split <;> omega
        simp only [List.foldl_cons, List.forall_mem_cons]
        exact ⟨hmax.1.trans hle, hmax.2.trans hle, hall⟩
  exact (hfold ids 0).2 i hi

/-- The greatest id is one of the ids. -/
theorem greatestId_mem {ids : List ℕ} (hne : ids ≠ []) : Server.greatestId ids ∈ ids := by
  have hfold : ∀ (ids : List ℕ) (a : ℕ),
      ids.foldl (fun leaderId id => if id > leaderId then id else leaderId) a = a ∨
        ids.foldl (fun leaderId id => if id > leaderId then id else leaderId) a ∈ ids := by
    intro ids
    induction ids with
    | nil => exact fun a => .inl rfl
    | cons id ids ih =>
        intro a
        rw [List.foldl_cons, List.mem_cons]
        rcases ih (if id > a then id else a) with heq | hmem
        · rw [heq]
          split
          · exact .inr (.inl rfl)
          · exact .inl rfl
        · exact .inr (.inr hmem)
  rcases hfold ids 0 with hzero | hmem
  · -- then all ids are 0
    obtain ⟨id, hid⟩ := List.exists_mem_of_ne_nil ids hne
    have hle : id ≤ Server.greatestId ids := le_greatestId hid
    have hgreatest : Server.greatestId ids = 0 := hzero
    rwa [show Server.greatestId ids = id by omega]
  · exact hmem

/-- An election message under way was under way before, or is sent with the message handled. -/
theorem Handles.outstanding_cases (hv : Valid N net) (hv' : Valid N net')
    (hr : Handles N net net' s o before m after effects) {e : ElectionMsg}
    (he : e ∈ net'.outstanding N) : e ∈ net.outstanding N ∨
      (∃ q, (q, e) ∈ datagrams effects) ∨ ∃ x ∈ selfMessages effects, x.electionMsg = some e := by
  rcases (mem_outstanding hv').1 he with ⟨d, hd, hb⟩ | ⟨k, x, hx, hex⟩
  · rw [hr.flight] at hd
    rcases List.mem_append.1 hd with hd | hd
    · exact .inl ((mem_outstanding hv).2 (.inl ⟨d, hd, hb⟩))
    · obtain ⟨-, -, -, e', hb', hmem⟩ := mem_packets hd
      obtain rfl := Body.msg.inj (hb.symm.trans hb')
      exact .inr (.inl ⟨_, hmem⟩)
  · rcases hr.queued_cases hx with hx | ⟨-, hx⟩
    · exact .inl ((mem_outstanding hv).2 (.inr ⟨k, x, hx, hex⟩))
    · exact .inr (.inr ⟨x, hx, hex⟩)

/-- A server that becomes leader is announced, and the greatest server alive. -/
theorem Handles.becomesLeader (hv : Valid N net) (hg : net.ElectsGreatest N)
    (hr : Handles N net net' s o before m after effects) (him : after.imLeader = true)
    (hnot : before.imLeader = false) :
    after.udpSender = true ∧ (∀ x, net.live x = true → x ≤ s) ∧
      ∃ e, e ∈ net.outstanding N := by
  rcases hr.handled.imLeader_cases him with hold | ⟨e, rfl, heq⟩
  · simp [hnot] at hold
  · refine ⟨?_, fun x hx => ?_, .newLeader e, ?_⟩
    · rw [hr.handled.udpSender]
      exact hv.udp_of_queued hr.srvBefore hr.queued rfl (by simp)
    · exact (hg.queued s _ hr.queued x hx).trans_eq (heq.trans (hv.ids s before hr.srvBefore).2.1)
    · exact (mem_outstanding hv).2 (.inr ⟨s, _, hr.queued, rfl⟩)

end Recv

/-! ## In every run -/

end Net

end ConcuRide
