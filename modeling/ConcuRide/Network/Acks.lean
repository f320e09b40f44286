import ConcuRide.Network.Steps

set_option autoImplicit false

/-! # Acknowledgements and the messages they stand for

A server repeats a message until it finds the sequence number of the message among the numbers that
were acknowledged to it. Acknowledgements are recorded by number only, and the announcement of
another server is passed on under the number of that server: when a server has sent two messages
under one number, the acknowledgement of one stops the other. -/

namespace ConcuRide.Net

open Lib

variable {N : ℕ} {net net' : Net} {l : Label}

/-- Whoever stopped repeating a message had that very message acknowledged by somebody. -/
def StopsAreAcked (net : Net) : Prop :=
  ∀ s m, .stopped s m ∈ net.log → ∃ session dst, .delivered s session dst m ∈ net.log

/-- The step is not the one that finds an acknowledged number under which the server has sent
    another message, too. -/
def numberIsOwn (net : Net) : Label → Bool
  | .recv s _ =>
    match net.mailbox s with
    | .checkIfNeighborAcked c :: _ =>
      net.log.all fun
        | .sent src m => !(decide (src = s) && decide (m.sequenceNumber = c.sequenceNumber)) ||
            decide (m = c.serializedMsg)
        | _ => true
    | _ => true
  | _ => true

/-- What is recorded as acknowledged, and what is still on the way to be, was sent and delivered. -/
structure AcksOk (net : Net) : Prop where
  wait : ∀ k w, net.Queued k (.waitForNeighborAck w) → .sent k w.serializedMsg ∈ net.log
  check : ∀ k c, net.Queued k (.checkIfNeighborAcked c) → .sent k c.serializedMsg ∈ net.log
  queued : ∀ k a, net.Queued k (.neighborAck a) → ∃ session dst m,
    .delivered k session dst m ∈ net.log ∧ m.sequenceNumber = a.sequenceNumber
  msg : ∀ d ∈ net.flight, ∀ e, d.body = .msg e → .sent d.src e ∈ net.log
  ack : ∀ d ∈ net.flight, ∀ a, d.body = .ack a → ∃ session dst m,
    .delivered d.dst session dst m ∈ net.log ∧ m.sequenceNumber = a.sequenceNumber
  recorded : ∀ k s, net.srv k = some s → ∀ n ∈ s.messageReceivedAck, ∃ session dst m,
    .delivered k session dst m ∈ net.log ∧ m.sequenceNumber = n
  delivered : ∀ k session dst m, .delivered k session dst m ∈ net.log → .sent k m ∈ net.log

theorem acksOk_start (i : ℕ) : AcksOk (start N i) where
  wait := fun _ _ h => absurd h not_queued_start
  check := fun _ _ h => absurd h not_queued_start
  queued := fun _ _ h => absurd h not_queued_start
  msg := fun d hd => by simp [start] at hd
  ack := fun d hd => by simp [start] at hd
  recorded := fun k s hs n hn => by
    rw [srv_start] at hs
    split at hs
    · obtain rfl := Option.some.inj hs
      simp [Server.lider] at hn
    · simp at hs
  delivered := fun _ _ _ _ h => by simp [start] at h

theorem acksOk_step (hv : Valid N net) (ha : AcksOk net) (hstep : net.step N l = some net') :
    AcksOk net' := by
  have h := step_cases hstep
  -- what is known to have been acknowledged stays so
  have keep : ∀ {k n : ℕ}, (∃ session dst m, .delivered k session dst m ∈ net.log ∧
      m.sequenceNumber = n) → ∃ session dst m, .delivered k session dst m ∈ net'.log ∧
      m.sequenceNumber = n := by
    rintro k n ⟨session, dst, m, hm, hn⟩
    exact ⟨session, dst, m, h.mem_log hm, hn⟩
  constructor
  case wait =>
    intro k w hq
    rcases h.queued_cases hq with hq | hnew | ⟨o, before, m, after, effects, -, hr, hw⟩
    · exact h.mem_log (ha.wait k w hq)
    · cases hnew with
      | posted _ hm => simp [reaches, Msg.isExternal] at hm
      | @msg i d e x hx => cases e <;> simp [ElectionMsg.toMsg] at hx
    · exact hr.sent (hr.handled.wait_mem (hv.udp_of_self hr hw rfl) hw).1
  case check =>
    intro k c hq
    rcases h.queued_cases hq with hq | hnew | ⟨o, before, m, after, effects, -, hr, hc⟩
    · exact h.mem_log (ha.check k c hq)
    · cases hnew with
      | posted _ hm => simp [reaches, Msg.isExternal] at hm
      | @msg i d e x hx => cases e <;> simp [ElectionMsg.toMsg] at hx
    · have hm := hr.handled.check_mem hc
      exact h.mem_log (ha.wait k _ (hm ▸ hr.queued))
  case queued =>
    intro k a hq
    rcases h.queued_cases hq with hq | hnew | ⟨o, before, m, after, effects, -, hr, hmem⟩
    · exact keep (ha.queued k a hq)
    · cases hnew with
      | posted _ hm => simp [reaches, Msg.isExternal] at hm
      | ack hd hb => exact keep (ha.ack _ hd _ hb)
      | @msg i d e x hx => cases e <;> simp [ElectionMsg.toMsg] at hx
    · exact absurd hmem (hr.handled.ack_notMem a)
  case msg =>
    intro d hd e hb
    rcases h.flight_cases hd with hd | ⟨s, o, before, m, after, effects, -, hr, hd⟩ |
      ⟨d', e', hd', hb', -, -, rfl⟩
    · exact h.mem_log (ha.msg d hd e hb)
    · obtain ⟨hsrc, -, -, e', hb', hmem⟩ := mem_packets hd
      obtain rfl := Body.msg.inj (hb.symm.trans hb')
      rw [hsrc]
      exact hr.sent hmem
    · simp [ackOf] at hb
  case ack =>
    intro d hd a hb
    rcases h.flight_cases hd with hd | ⟨s, o, before, m, after, effects, -, hr, hd⟩ |
      ⟨d', e', hd', hb', -, hlog, rfl⟩
    · exact keep (ha.ack d hd a hb)
    · obtain ⟨-, -, -, e', hb', -⟩ := mem_packets hd
      rw [hb] at hb'
      simp at hb'
    · obtain rfl := Body.ack.inj hb
      exact ⟨d'.session, d'.dst, e', hlog ▸ List.mem_cons_self, rfl⟩
  case recorded =>
    intro k t ht n hn
    rcases h.srv_cases ht with hold | ⟨o, s, m, effects, -, hr⟩ | ⟨-, -, -, rfl⟩
    · exact keep (ha.recorded k t hold n hn)
    · rcases (hr.handled.messageReceivedAck n).1 hn with hn | ⟨a, rfl, rfl⟩
      · exact keep (ha.recorded k s hr.srvBefore n hn)
      · exact keep (ha.queued k a hr.queued)
    · simp [Server.replica, Server.lider] at hn
  case delivered =>
    intro k session dst m hm
    rcases h.log_cases hm with hm | ⟨s, o, before, m', after, effects, -, hr, hm⟩ |
      ⟨i, d, m', -, hd, hb, -, heq⟩ | ⟨s, -, heq⟩
    · exact h.mem_log (ha.delivered k session dst m hm)
    · cases hm
    · obtain ⟨rfl, rfl, rfl, rfl⟩ := Event.delivered.inj heq
      exact h.mem_log (ha.msg d hd m hb)
    · simp at heq

/-! ## When repeating stops -/

theorem stopsAreAcked_step (ha : AcksOk net) (hs : net.StopsAreAcked)
    (hok : net.numberIsOwn l = true) (hstep : net.step N l = some net') : net'.StopsAreAcked := by
  have h := step_cases hstep
  intro s m hm
  rcases h.log_cases hm with hm | ⟨s', o, before, m', after, effects, rfl, hr, hm⟩ |
    ⟨i, d, m', -, -, -, -, heq⟩ | ⟨s', -, heq⟩
  · obtain ⟨session, dst, hdel⟩ := hs s m hm
    exact ⟨session, dst, h.mem_log hdel⟩
  · cases hm with
    | @stopped c hcheck hc =>
        subst hcheck
        obtain ⟨session, dst, m, hdel, hn⟩ := ha.recorded s before hr.srvBefore _ hc
        -- the message recorded under this number is the one that is repeated
        have hown : m = c.serializedMsg := by
          obtain ⟨rest, hbox, -⟩ := hr.mailbox
          simp only [numberIsOwn, hbox, List.all_eq_true] at hok
          have := hok _ (ha.delivered s session dst m hdel)
          simpa [hn] using this
        exact ⟨session, dst, hown ▸ h.mem_log hdel⟩
  · simp at heq
  · simp at heq

/-- **Repeating stops only for an acknowledged message**, in every run (with any losses, delays,
    crashes and restarts) in which no server finds an acknowledged number under which it has sent
    another message as well. -/
theorem stops_are_acked {i : ℕ} {ls : List Label} (hi : i ∈ ring N)
    (h : Run (step N) (fun net l => net.numberIsOwn l = true) (start N i) ls net) :
    net.StopsAreAcked := by
  refine (h.invariant (P := fun net => Valid N net ∧ AcksOk net ∧ net.StopsAreAcked) ?_ ?_).2.2
  · rintro net l net' ⟨hv, ha, hs⟩ hok hst
    exact ⟨valid_step hv hst, acksOk_step hv ha hst, stopsAreAcked_step ha hs hok hst⟩
  · exact ⟨valid_start hi, acksOk_start i, fun s m hm => by simp [start] at hm⟩

/-- Server 2 starts an election, and finds it acknowledged by server 3. -/
def oneElection : List Label :=
  [.boot 2, .boot 3, .dial 2, .recv 2 .up, .crash 1, .post 2 .ping, .recv 2 .down, .recv 2 .up,
    .deliver 0, .deliver 0, .recv 2 .up, .recv 2 .up, .recv 2 .up]

theorem stops_are_acked_oneElection : ∃ net : Net, net.StopsAreAcked ∧
    .stopped 2 (.election { disconnectedLeaderId := 1, serverIds := [2], sequenceNumber := 0 })
      ∈ net.log := by
  obtain ⟨net, hrun, hstop⟩ := exists_run_of_exec numberIsOwn (start 3 1) oneElection
    (fun net => decide (.stopped 2 (.election
      { disconnectedLeaderId := 1, serverIds := [2], sequenceNumber := 0 }) ∈ net.log))
    (show (exec (step 3) _ _ _).any _ = true by decide +kernel)
  exact ⟨net, stops_are_acked (by decide) hrun, of_decide_eq_true hstop⟩

/-- Servers 2 and 3 both start an election, and both announce its result under the number 3. The
    announcement of server 2 is lost, and the one it passes on for server 3 is acknowledged. -/
def lostAnnouncement : List Label :=
  [.boot 2, .boot 3, .dial 2, .dial 3, .recv 2 .up, .recv 3 .up, .crash 1, .post 2 .ping,
    .post 3 .ping, .recv 2 .down, .recv 3 .down, .recv 2 .up, .recv 3 .up,
    -- each receives and acknowledges the election of the other, and passes it on
    .deliver 0, .deliver 0, .deliver 0, .deliver 0,
    .recv 2 .up, .recv 2 .up, .recv 3 .up, .recv 3 .up,
    .recv 2 .up, .recv 2 .up, .recv 3 .up, .recv 3 .up,
    .deliver 1, .deliver 0, .deliver 0, .deliver 0,
    -- both elections are over
    .recv 3 .up, .recv 3 .up, .deliver 0, .recv 2 .up, .recv 2 .up, .recv 2 .up, .recv 2 .up,
    .drop 1, .deliver 1, .deliver 1,
    .recv 2 .up, .recv 2 .up, .recv 2 .up, .recv 2 .up, .recv 2 .up, .recv 2 .up]

theorem not_stops_are_acked : ¬ ∀ (N i : ℕ) (ls : List Label) (net : Net), i ∈ ring N →
    Run (step N) (fun _ _ => True) (start N i) ls net → net.StopsAreAcked := by
  intro h
  let lost : ElectionMsg := .newLeader { idSender := 2, leaderId := 3, sequenceNumber := 3 }
  obtain ⟨net, hrun, hstop⟩ := exists_run_of_exec (fun _ _ => true) (start 3 1) lostAnnouncement
    (fun net => decide (.stopped 2 lost ∈ net.log) && net.log.all fun
      | .delivered src _ _ m => !(decide (src = 2) && decide (m = lost))
      | _ => true)
    (show (exec (step 3) _ _ _).any _ = true by decide +kernel)
  simp only [Bool.and_eq_true, decide_eq_true_eq, List.all_eq_true] at hstop
  obtain ⟨session, dst, hdel⟩ := h 3 1 _ net (by decide) (hrun.mono fun _ _ _ => trivial) 2 lost
    hstop.1
  simpa using hstop.2 _ hdel

end ConcuRide.Net
