import Mathlib.Data.Finset.Card
import Mathlib.Order.Interval.Finset.Nat
import ConcuRide.Network.Uniqueness

set_option autoImplicit false

/-! # Copies of an election

Retries and duplicated datagrams give an election many copies, which travel on different routes.
Each copy carries its own route: the ids of the server that started it and of those that forwarded
it. A server forwards a copy only if its id is not on the route, so a copy is forwarded less often
than there are servers, wherever its initiator is. -/

namespace ConcuRide

open Lib

variable {N : ℕ}

/-- The copy was forwarded `k` times since a server started the election. -/
inductive Forwarded : Election → ℕ → Prop
  | first (s : Server) : Forwarded s.firstElection 0
  | next {e : Election} {k : ℕ} (s : Server) (h : Forwarded e k) (hid : s.id ∉ e.serverIds) :
      Forwarded (s.nextElection e) (k + 1)

theorem Forwarded.length {e : Election} {k : ℕ} (h : Forwarded e k) :
    e.serverIds.length = k + 1 := by
  induction h with
  | first s => rfl
  | next s _ _ ih => simp [Server.nextElection, ih]

theorem Forwarded.nodup {e : Election} {k : ℕ} (h : Forwarded e k) : e.serverIds.Nodup := by
  induction h with
  | first s => exact List.nodup_singleton s.id
  | next s _ hid ih =>
      refine List.nodup_append.mpr ⟨ih, List.nodup_singleton s.id, fun x hx y hy heq => ?_⟩
      rw [heq, List.mem_singleton.mp hy] at hx
      exact hid hx

theorem Forwarded.ne_nil {e : Election} {k : ℕ} (h : Forwarded e k) : e.serverIds ≠ [] := by
  intro hnil
  have hlen := h.length
  rw [hnil] at hlen
  cases hlen

/-- What handling a copy leads to: it goes no further, it is forwarded to a neighbour with the id of
    server `s` added, or it is back at `s`, which announces the greatest id on its route. -/
inductive Outcome (s : ℕ) (e : Election) : List (ℕ × ElectionMsg) → Prop
  | lost : Outcome s e []
  | forwarded (q : ℕ) {e' : Election} (hs : s ∉ e.serverIds)
      (hids : e'.serverIds = e.serverIds ++ [s]) (hk : ∀ k, Forwarded e k → Forwarded e' (k + 1)) :
      Outcome s e [(q, .election e')]
  | finished (q : ℕ) {m : NewLeader} (hs : s ∈ e.serverIds) (hm : m.leaderId ∈ e.serverIds)
      (hge : ∀ id ∈ e.serverIds, id ≤ m.leaderId) : Outcome s e [(q, .newLeader m)]

namespace Server

variable {o : Oracle} {s t : Server} {m x : Msg} {self : List Msg} {dgs : List (ℕ × ElectionMsg)}
  {e : Election}

/-- Where the `Election` a server sends, or waits for, comes from. -/
inductive Origin (s : Server) (m : Msg) (e : Election) : Prop
  | starts (he : e = s.firstElection)
  | forwards (e₀ : Election) (hm : m.electionMsg = some (.election e₀)) (hid : s.id ∉ e₀.serverIds)
      (he : e = s.nextElection e₀)
  | repeats (hm : m.electionMsg = some (.election e))

/-- The elections a server waits for. -/
theorem Handled.origin_self (h : Handled N o s m t self dgs) (hx : x ∈ self)
    (hxe : x.electionMsg = some (.election e)) : Origin s m e := by
  have hconnect : ∀ {i : ℕ}, x ∉ s.connecting i := fun hmem => by
    rw [mem_connecting hmem] at hxe
    cases hxe
  cases h with
  | quiet _ _ _ hself =>
      rw [Msg.electionMsg_quiet (hself x hx)] at hxe
      cases hxe
  | startSend q =>
      obtain rfl := List.mem_singleton.mp hx
      exact .starts (ElectionMsg.election.inj (Option.some.inj hxe)).symm
  | wait w =>
      obtain rfl := List.mem_singleton.mp hx
      exact .repeats hxe
  | checkResend c =>
      obtain rfl := List.mem_singleton.mp hx
      exact .repeats hxe
  | electionForward e₀ hid =>
      obtain rfl := List.mem_singleton.mp hx
      exact .forwards e₀ rfl hid (ElectionMsg.election.inj (Option.some.inj hxe)).symm
  | newLeaderOwn => exact absurd hx hconnect
  | newLeaderDeclare =>
      rcases List.mem_cons.mp hx with rfl | hx
      · cases hxe
      · exact absurd hx hconnect
  | newLeaderForward =>
      rcases List.mem_cons.mp hx with rfl | hx
      · cases hxe
      · exact absurd hx hconnect
  | startDeclare | checkDeclare | electionDeclare | electionFinish | pingLost =>
      obtain rfl := List.mem_singleton.mp hx
      cases hxe
  | _ => simp at hx

/-- The elections a server sends. -/
theorem Handled.origin_datagram (h : Handled N o s m t self dgs) {q : ℕ}
    (hq : (q, .election e) ∈ dgs) : Origin s m e := by
  cases h with
  | startSend =>
      split at hq
      · obtain ⟨-, he⟩ := Prod.mk.inj (List.mem_singleton.mp hq)
        exact .starts (ElectionMsg.election.inj he)
      · simp at hq
  | checkResend c =>
      split at hq
      · obtain ⟨-, he⟩ := Prod.mk.inj (List.mem_singleton.mp hq)
        exact .repeats (congrArg some he.symm)
      · simp at hq
  | electionForward e₀ hid =>
      obtain ⟨-, he⟩ := Prod.mk.inj (List.mem_singleton.mp hq)
      exact .forwards e₀ rfl hid (ElectionMsg.election.inj he)
  | electionFinish | newLeaderForward => simp at hq
  | _ => simp at hq

/-- **What becomes of a copy** that a server handles. -/
theorem Handled.outcome (h : Handled N o s (.election e) t self dgs) (he : e.serverIds ≠ []) :
    Outcome s.id e dgs := by
  cases h with
  | quiet hm => cases hm
  | electionDeclare => exact .lost
  | electionFinish _ hid _ q =>
      exact .finished q hid (Net.greatestId_mem he) fun id hmem => Net.le_greatestId hmem
  | electionForward _ hid _ q => exact .forwarded q hid rfl fun k hk => .next s hk hid

end Server

namespace Net

variable {net net' : Net} {l : Label}

/-- The servers that were started. -/
def started (N : ℕ) (net : Net) : Finset ℕ := (Finset.Icc 1 N).filter fun k => net.boots k ≠ 0

theorem started_card_le (N : ℕ) (net : Net) : (net.started N).card ≤ N := by
  have hle := Finset.card_filter_le (Finset.Icc 1 N) fun k => net.boots k ≠ 0
  rwa [Nat.card_Icc, Nat.add_sub_cancel] at hle

/-- A copy on its way: it was started and forwarded, by servers of the group. -/
structure Copied (net : Net) (e : Election) : Prop where
  forwarded : ∃ k, Forwarded e k
  booted : ∀ id ∈ e.serverIds, net.boots id ≠ 0

/-- Every election that is on its way, or is waited for, is a copy. -/
def CopiesOnly (N : ℕ) (net : Net) : Prop := ∀ e, .election e ∈ net.outstanding N → net.Copied e

theorem Copied.mono {e : Election} (h : net.Copied e) (hstep : Step N net l net') :
    net'.Copied e where
  forwarded := h.forwarded
  booted := fun id hid => by
    rcases hstep.boots_cases id with heq | ⟨-, heq, -⟩
    · rw [heq]
      exact h.booted id hid
    · rw [heq]
      exact Nat.succ_ne_zero _

/-- The elections of a server that handles a message are copies of what was on its way, with its own
    id added. -/
theorem copied_of_origin (hv : Valid N net) (hc : net.CopiesOnly N) {s : ℕ} {before : Server}
    {m : Msg} {e : Election} (hs : net.srv s = some before) (hm : net.Queued s m)
    (h : before.Origin m e) : net.Copied e := by
  obtain ⟨-, hid, -⟩ := hv.ids s before hs
  have hbooted : net.boots before.id ≠ 0 := hid ▸ hv.started s before hs
  cases h with
  | starts he =>
      subst he
      refine ⟨⟨0, .first before⟩, fun id hmem => ?_⟩
      rw [List.mem_singleton.mp hmem]
      exact hbooted
  | forwards e₀ he₀ hnew he =>
      subst he
      obtain ⟨⟨k, hk⟩, hall⟩ := hc e₀ ((mem_outstanding hv).2 (.inr ⟨s, m, hm, he₀⟩))
      refine ⟨⟨k + 1, .next before hk hnew⟩, fun id hmem => ?_⟩
      rcases List.mem_append.mp hmem with hmem | hmem
      · exact hall id hmem
      · rw [List.mem_singleton.mp hmem]
        exact hbooted
  | repeats he => exact hc e ((mem_outstanding hv).2 (.inr ⟨s, m, hm, he⟩))

theorem copiesOnly_step (hv : Valid N net) (hc : net.CopiesOnly N)
    (hstep : net.step N l = some net') : net'.CopiesOnly N := by
  have h := step_cases hstep
  have hv' := valid_step hv hstep
  intro e he
  refine Copied.mono ?_ h
  by_cases hrecv : ∃ s o before m after effects, l = .recv s o ∧
      Handles N net net' s o before m after effects
  · obtain ⟨s, o, before, m, after, effects, -, hr⟩ := hrecv
    rcases hr.outstanding_cases hv hv' he with hold | ⟨q, hq⟩ | ⟨x, hx, hxe⟩
    · exact hc e hold
    · exact copied_of_origin hv hc hr.srvBefore hr.queued (hr.handled.origin_datagram hq)
    · exact copied_of_origin hv hc hr.srvBefore hr.queued (hr.handled.origin_self hx hxe)
  · refine hc e (h.outstanding_le hv hv' (fun s o before m after effects hl hr => ?_) he)
    exact hrecv ⟨s, o, before, m, after, effects, hl, hr⟩

theorem copiesOnly_start {i : ℕ} (hi : i ∈ ring N) : (start N i).CopiesOnly N := by
  intro e he
  rcases (mem_outstanding (valid_start hi)).1 he with ⟨d, hd, -⟩ | ⟨k, m, hm, -⟩
  · simp [start] at hd
  · exact absurd hm not_queued_start

/-- A copy was forwarded less often than there are servers. -/
theorem Copied.lt_card (hv : Valid N net) {e : Election} (h : net.Copied e) {k : ℕ}
    (hk : Forwarded e k) : k + 1 ≤ (net.started N).card := by
  have hsub : e.serverIds.toFinset ⊆ net.started N := fun id hid => by
    have hboot := h.booted id (List.mem_toFinset.mp hid)
    exact Finset.mem_filter.mpr ⟨Finset.mem_Icc.mpr (hv.booted id hboot), hboot⟩
  calc k + 1 = e.serverIds.length := hk.length.symm
    _ = e.serverIds.toFinset.card := (List.toFinset_card_of_nodup hk.nodup).symm
    _ ≤ (net.started N).card := Finset.card_le_card hsub

/-- **Every copy of an election is finite and elects a participant.** In every run, with any loss,
    delay, duplication and crashes, the ids of an `Election` on its way are those of different
    servers, and it was forwarded less often than servers were started. A server that handles it
    sends it on with its own id added, or announces an id of it that is not below any other, or does
    not send it at all. -/
theorem copies_finite {ok : Net → Label → Prop} {i : ℕ} {ls : List Label} (hi : i ∈ ring N)
    (h : Run (step N) ok (start N i) ls net) :
    (∀ e, .election e ∈ net.outstanding N → e.serverIds ≠ [] ∧ e.serverIds.Nodup ∧
      (∀ id ∈ e.serverIds, id ∈ net.started N) ∧
      (∃ k, Forwarded e k) ∧
      ∀ k, Forwarded e k → k ≤ (net.started N).card - 1 ∧ k ≤ N - 1) ∧
    ∀ s o p e rest after effects, net.procs s = some p → p.mailbox = .election e :: rest →
      p.srv.handle N o (.election e) = some (after, effects) →
      Outcome s e (datagrams effects) := by
  obtain ⟨hv, hc⟩ := h.invariant (P := fun net => Valid N net ∧ net.CopiesOnly N)
    (fun _ _ _ hs _ hst => ⟨valid_step hs.1 hst, copiesOnly_step hs.1 hs.2 hst⟩)
    ⟨valid_start hi, copiesOnly_start hi⟩
  constructor
  · intro e he
    have hcopied := hc e he
    obtain ⟨k, hk⟩ := hcopied.forwarded
    refine ⟨hk.ne_nil, hk.nodup, fun id hid => ?_, ⟨k, hk⟩, fun k' hk' => ?_⟩
    · have hboot := hcopied.booted id hid
      exact Finset.mem_filter.mpr ⟨Finset.mem_Icc.mpr (hv.booted id hboot), hboot⟩
    · have hlt := hcopied.lt_card hv hk'
      have hle := started_card_le N net
      omega
  · intro s o p e rest after effects hp hbox hh
    have hqueued : net.Queued s (.election e) := by
      rw [Queued, mailbox_of_procs hp, hbox]
      exact List.mem_cons_self
    obtain ⟨k, hk⟩ := (hc e ((mem_outstanding hv).2 (.inr ⟨s, _, hqueued, rfl⟩))).forwarded
    obtain ⟨-, hid, -⟩ := hv.ids s p.srv (srv_eq_some.2 ⟨p, hp, rfl⟩)
    exact hid ▸ (Server.handle_cases hh).outcome hk.ne_nil

/-- Servers 2 and 3 lose leader 1. Server 2 starts an election, and server 3 forwards it. -/
def secondCopy : List Label :=
  [.boot 2, .boot 3, .dial 2, .dial 3, .silence 2, .recv 2 .up, .recv 2 .up, .deliver 0,
    .recv 3 .up, .recv 3 .up]

theorem copies_finite_secondCopy : ∃ (net : Net) (e : Election),
    .election e ∈ net.outstanding 3 ∧ e.serverIds = [2, 3] ∧ e.serverIds.Nodup := by
  let e : Election := { disconnectedLeaderId := 1, serverIds := [2, 3], sequenceNumber := 0 }
  obtain ⟨net, hrun, hnet⟩ := exists_run_of_exec (fun _ _ => true) (start 3 1) secondCopy
    (fun (net : Net) => decide (.election e ∈ net.outstanding 3))
    (show (exec (step 3) _ _ _).any _ = true by decide +kernel)
  have he : .election e ∈ net.outstanding 3 := of_decide_eq_true hnet
  have hcopies := (copies_finite (mem_ring.2 ⟨by decide, by decide⟩) hrun).1 e he
  exact ⟨net, e, he, rfl, hcopies.2.1⟩

end Net

end ConcuRide
