import ConcuRide.Network.Acks

set_option autoImplicit false

/-! # Late acknowledgements

`Handler<NeighborAck>` takes the server that acknowledged a message off the list of the disconnected
ones, by the id in the acknowledgement. The `UdpReceiver` that builds an acknowledgement writes 0
there, and the ids of the servers begin at 1. -/

namespace ConcuRide.Net

open Lib

variable {N : ℕ} {net net' : Net} {l : Label}

/-- No acknowledgement names the server it is from. -/
structure AcksNameNobody (N : ℕ) (net : Net) : Prop where
  queued : ∀ k a, net.Queued k (.neighborAck a) → a.id = 0
  flight : ∀ d ∈ net.flight, ∀ a, d.body = .ack a → a.id = 0
  delivered : ∀ k session dst m, .delivered k session dst m ∈ net.log → dst ∈ ring N

theorem acksNameNobody_start (i : ℕ) : AcksNameNobody N (start N i) where
  queued := fun _ _ h => absurd h not_queued_start
  flight := fun d hd => by simp [start] at hd
  delivered := fun _ _ _ _ h => by simp [start] at h

theorem acksNameNobody_step (hv : Valid N net) (ha : AcksNameNobody N net)
    (hstep : net.step N l = some net') : AcksNameNobody N net' := by
  have h := step_cases hstep
  constructor
  case queued =>
    intro k a hq
    rcases h.queued_cases hq with hq | hnew | ⟨o, before, m, after, effects, -, hr, hmem⟩
    · exact ha.queued k a hq
    · cases hnew with
      | posted _ hm => simp [reaches, Msg.isExternal] at hm
      | ack hd hb => exact ha.flight _ hd _ hb
      | @msg i d e x hx => cases e <;> simp [ElectionMsg.toMsg] at hx
    · exact absurd hmem (hr.handled.ack_notMem a)
  case flight =>
    intro d hd a hb
    rcases h.flight_cases hd with hd | ⟨s, o, before, m, after, effects, -, hr, hd⟩ |
      ⟨d', e', hd', hb', -, hlog, rfl⟩
    · exact ha.flight d hd a hb
    · obtain ⟨-, -, -, e', hb', -⟩ := mem_packets hd
      rw [hb] at hb'
      simp at hb'
    · -- what the `UdpReceiver` of the destination writes
      obtain rfl := Body.ack.inj hb
      rfl
  case delivered =>
    intro k session dst m hm
    rcases h.log_cases hm with hm | ⟨s, o, before, m', after, effects, -, hr, hm⟩ |
      ⟨i, d, m', -, hd, hb, hudp, heq⟩ | ⟨s, -, heq⟩
    · exact ha.delivered k session dst m hm
    · cases hm
    · obtain ⟨rfl, rfl, rfl, rfl⟩ := Event.delivered.inj heq
      obtain ⟨p, hp⟩ := procs_of_hasUdp hudp
      exact (hv.ids d.dst p.srv (srv_eq_some.2 ⟨p, hp, rfl⟩)).1
    · simp at heq

theorem acksNameNobody_run {ok : Net → Label → Prop} {i : ℕ} {ls : List Label} (hi : i ∈ ring N)
    (h : Run (step N) ok (start N i) ls net) : AcksNameNobody N net :=
  (h.invariant (P := fun net => Valid N net ∧ AcksNameNobody N net)
    (fun _ _ _ hva _ hst => ⟨valid_step hva.1 hst, acksNameNobody_step hva.1 hva.2 hst⟩)
    ⟨valid_start hi, acksNameNobody_start i⟩).2

/-- What handling an acknowledgement makes of the list of the disconnected servers. -/
theorem Handles.neighborAck {s : ℕ} {o : Oracle} {a : NeighborAck} {before after : Server}
    {effects : List Effect}
    (h : Handles N net net' s o before (.neighborAck a) after effects) :
    after.disconnectedServers = before.disconnectedServers.filter (fun id => id ≠ a.id) := by
  have hres := h.result
  simp only [Server.handle, Server.neighborAck, Option.some.injEq, Prod.mk.injEq] at hres
  rw [← hres.1]

/-- The next message of server `s` is an acknowledgement by server `n` of a message of `s`. -/
def ackIsNext (net : Net) (s n : ℕ) : Bool :=
  match net.mailbox s with
  | .neighborAck a :: _ =>
    net.log.any fun
      | .delivered src _ dst m => src = s && dst = n && m = a.message
      | _ => false
  | _ => false

theorem ackIsNext_cases {s n : ℕ} (h : net.ackIsNext s n = true) : ∃ a rest session,
    net.mailbox s = .neighborAck a :: rest ∧ .delivered s session n a.message ∈ net.log := by
  unfold ackIsNext at h
  split at h
  · next a rest hbox =>
      obtain ⟨e, he, hack⟩ := List.any_eq_true.1 h
      split at hack
      · next src session dst m =>
          simp only [Bool.and_eq_true, decide_eq_true_eq] at hack
          obtain ⟨⟨rfl, rfl⟩, rfl⟩ := hack
          exact ⟨a, rest, session, hbox, he⟩
      · simp at hack
  · simp at h

/-- **An acknowledgement rehabilitates nobody**: when server `s` has handled the acknowledgement of
    its message by server `n`, `n` is off the list of the disconnected servers exactly when it was
    not on it before. -/
theorem late_ack_rehabilitates_iff {i : ℕ} {ls : List Label} (hi : i ∈ ring N)
    (h : Run (step N) (fun _ _ => True) (start N i) ls net) {s n : ℕ} {o : Oracle}
    {before after : Server} (hack : net.ackIsNext s n = true) (hbefore : net.srv s = some before)
    (hrecv : net.step N (.recv s o) = some net') (hafter : net'.srv s = some after) :
    n ∉ after.disconnectedServers ↔ n ∉ before.disconnectedServers := by
  obtain ⟨a, rest, session, hbox, hsent⟩ := ackIsNext_cases hack
  have ha := acksNameNobody_run hi h
  have hid : a.id = 0 := ha.queued s a (by rw [Queued, hbox]; exact List.mem_cons_self)
  have hn : n ≠ a.id := by
    have := mem_ring.1 (ha.delivered s session n a.message hsent)
    omega
  rcases (step_cases hrecv).srv_cases hafter with hsame | ⟨o', before', m, effects, -, hr⟩ |
    ⟨hl, -⟩
  · obtain rfl := Option.some.inj (hbefore.symm.trans hsame)
    exact Iff.rfl
  · obtain ⟨rest', hbox', -⟩ := hr.mailbox
    obtain ⟨rfl, -⟩ := List.cons.inj (hbox'.symm.trans hbox)
    obtain rfl := Option.some.inj (hbefore.symm.trans hr.srvBefore)
    rw [hr.neighborAck, List.mem_filter, decide_eq_true_eq, and_iff_left hn]
  · simp at hl

/-- Server 2 asks server 3 for an election, and the acknowledgement arrives in time. -/
def ackInTime : List Label :=
  [.boot 2, .boot 3, .dial 2, .recv 2 .up, .crash 1, .post 2 .ping, .recv 2 .down, .recv 2 .up,
    .deliver 0, .deliver 0, .recv 2 .up]

theorem late_ack_rehabilitates_iff_inTime : ∃ (net net' : Net) (after : Server),
    net.ackIsNext 2 3 = true ∧ net.step 3 (.recv 2 .up) = some net' ∧
      net'.srv 2 = some after ∧ 3 ∉ after.disconnectedServers := by
  obtain ⟨net, hrun, hnext⟩ := exists_run_of_exec (fun _ _ => true) (start 3 1) ackInTime
    (fun net => net.ackIsNext 2 3 && (net.srv 2).any fun (before : Server) =>
      decide (3 ∉ before.disconnectedServers) && (net.step 3 (.recv 2 .up)).any fun (net' : Net) =>
        net'.live 2)
    (show (exec (step 3) _ _ _).any _ = true by decide +kernel)
  rw [Bool.and_eq_true, Option.any_eq_true] at hnext
  obtain ⟨hack, before, hbefore, hnext⟩ := hnext
  rw [Bool.and_eq_true, Option.any_eq_true, decide_eq_true_eq] at hnext
  obtain ⟨hn, net', hrecv, hlive⟩ := hnext
  obtain ⟨after, hafter⟩ := live_iff.1 hlive
  exact ⟨net, net', after, hack, hrecv, hafter, (late_ack_rehabilitates_iff (by decide)
    (hrun.mono fun _ _ _ => trivial) hack hbefore hrecv hafter).2 hn⟩

/-- Server 2 looks for the acknowledgement before server 3 has received the election. -/
def ackTooLate : List Label :=
  [.boot 2, .boot 3, .dial 2, .recv 2 .up, .crash 1, .post 2 .ping, .recv 2 .down, .recv 2 .up,
    .recv 2 .up, .recv 2 .up, .recv 2 .up, .deliver 0, .deliver 0]

theorem not_late_ack_rehabilitates : ¬ ∀ (N i : ℕ) (ls : List Label) (net net' : Net) (s n : ℕ)
    (o : Oracle) (after : Server), i ∈ ring N →
    Run (step N) (fun _ _ => True) (start N i) ls net → net.ackIsNext s n = true →
    net.step N (.recv s o) = some net' → net'.srv s = some after →
    n ∉ after.disconnectedServers := by
  intro h
  obtain ⟨net, hrun, hnext⟩ := exists_run_of_exec (fun _ _ => true) (start 3 1) ackTooLate
    (fun net => net.ackIsNext 2 3 && (net.step 3 (.recv 2 .up)).any fun (net' : Net) =>
      (net'.srv 2).any fun (after : Server) => decide (3 ∈ after.disconnectedServers))
    (show (exec (step 3) _ _ _).any _ = true by decide +kernel)
  rw [Bool.and_eq_true, Option.any_eq_true] at hnext
  obtain ⟨hack, net', hrecv, hnext⟩ := hnext
  obtain ⟨after, hafter, hmem⟩ := Option.any_eq_true _ _ |>.1 hnext
  exact h 3 1 ackTooLate net net' 2 3 .up after (by decide) (hrun.mono fun _ _ _ => trivial) hack
    hrecv hafter (of_decide_eq_true hmem)

end ConcuRide.Net
