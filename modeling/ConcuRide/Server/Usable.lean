import Mathlib.Order.Interval.Finset.Nat
import ConcuRide.Lib.Run
import ConcuRide.Server.Retry

set_option autoImplicit false

/-! # The neighbour of a replica

`update_neighbor` keeps the neighbour as long as it is not held for disconnected, without a look at
the server's own id. A call that finds nobody leaves the neighbour one step further, so it leaves
the server as its own neighbour if the neighbour was the server before it. The next call then keeps
it, and the server sends an election message to itself. -/

namespace ConcuRide

open Lib

namespace Server

variable {N : ℕ} {o : Oracle} {s t c : Server} {m : Msg} {self : List Msg}
  {dgs : List (ℕ × ElectionMsg)}

/-- The state in which the handler of a message calls `update_neighbor`, if it does. -/
def calling (s : Server) : Msg → Option Server
  | .startElection => some (s.suspect s.idLeader)
  | .checkIfNeighborAcked m =>
    if m.sequenceNumber ∈ s.messageReceivedAck then none else some (s.suspect m.neighborId)
  | .election m => some (s.markDisconnected m.disconnectedLeaderId)
  | .newLeader m => if m.idSender = s.id then none else some (s.follow m.leaderId)
  | _ => none

/-- A call that returns true chooses another server of the ring, one that is not held for
    disconnected. -/
def Usable (N : ℕ) (c : Server) : Prop :=
  ∀ t, c.updateNeighbor N c.actualNeighborId = (t, true) →
    t.actualNeighborId ∈ ring N ∧ t.actualNeighborId ≠ t.id ∧
      t.actualNeighborId ∉ t.disconnectedServers

/-- The neighbour is the server before this one, and all others are held for disconnected. -/
def Stranded (N : ℕ) (c : Server) : Prop :=
  getNeighborId N c.actualNeighborId = c.id ∧
    ∀ x ∈ Finset.Icc 1 N, x ≠ c.id → x ∈ c.disconnectedServers

instance (N : ℕ) (c : Server) : Decidable (c.Stranded N) :=
  inferInstanceAs (Decidable (_ ∧ ∀ x ∈ Finset.Icc 1 N, x ≠ c.id → x ∈ c.disconnectedServers))

/-! ## One call -/

theorem usable_iff (hptr : c.actualNeighborId ∈ ring N) :
    c.Usable N ↔ (c.actualNeighborId = c.id → c.id ∈ c.disconnectedServers) := by
  constructor
  · intro husable hown
    by_contra hdisc
    have hkept : c.updateNeighbor N c.actualNeighborId = (c, true) := by
      rw [updateNeighbor, nextNeighbor, if_pos (hown ▸ hdisc)]
    exact (husable c hkept).2.1 hown
  · intro hown t ht
    obtain ⟨rfl, hfound⟩ := Prod.mk.inj ht
    have hnext : c.nextNeighbor N c.actualNeighborId
        = ((c.nextNeighbor N c.actualNeighborId).1, true) := Prod.ext rfl hfound
    have hdisc : (c.nextNeighbor N c.actualNeighborId).1 ∉ c.disconnectedServers :=
      nextNeighbor_notMem hnext
    refine ⟨nextNeighbor_mem hptr hptr, ?_, hdisc⟩
    rcases nextNeighbor_found hnext with ⟨hkept, -⟩ | ⟨-, hcand, -⟩
    · -- the neighbour is kept, and it is not the server itself
      show (c.nextNeighbor N c.actualNeighborId).1 ≠ c.id
      intro heq
      rw [heq] at hkept hdisc
      exact hdisc (hown hkept.symm)
    · exact hcand.2

/-- A call that finds nobody leaves the neighbour one step further. -/
theorem nextNeighbor_rotated {q : ℕ} (hptr : c.actualNeighborId ∈ ring N)
    (h : c.nextNeighbor N c.actualNeighborId = (q, false)) :
    q = getNeighborId N c.actualNeighborId := by
  rw [nextNeighbor] at h
  split at h
  · cases h
  · rw [scanNeighbors_eq, getNeighborId_back (getNeighborId_mapsTo N hptr)] at h
    split at h
    · cases h
    · exact (Prod.mk.inj h).1.symm

/-- **After a call** a server is its own neighbour exactly when it was stranded or its choice is of
    no use. -/
theorem nextNeighbor_eq_id (hptr : c.actualNeighborId ∈ ring N) :
    (c.nextNeighbor N c.actualNeighborId).1 = c.id ↔ c.Stranded N ∨ ¬ c.Usable N := by
  rcases hnext : c.nextNeighbor N c.actualNeighborId with ⟨q, found⟩
  cases found with
  | true =>
      constructor
      · intro hq
        right
        intro husable
        exact (husable { c with actualNeighborId := q } (by rw [updateNeighbor, hnext])).2.1 hq
      · rintro (⟨hbefore, hall⟩ | hno)
        · -- a stranded server finds nobody else
          by_contra hne
          have hq := nextNeighbor_mem_of_eq hptr hnext
          exact nextNeighbor_notMem hnext (hall q (Finset.mem_Icc.mpr (mem_ring.1 hq)) hne)
        · rw [usable_iff hptr, Classical.not_imp] at hno
          rw [nextNeighbor, hno.1, if_pos hno.2] at hnext
          exact (Prod.mk.inj hnext).1.symm
  | false =>
      obtain ⟨hdisc, hall⟩ := nextNeighbor_notFound hptr hnext
      have hrotated := nextNeighbor_rotated hptr hnext
      have husable : c.Usable N := fun t ht => by
        rw [updateNeighbor, hnext] at ht
        cases ht
      rw [show (q, false).1 = q from rfl, hrotated]
      exact ⟨fun hq => .inl ⟨hq, fun x hx => hall x (mem_ring.2 (Finset.mem_Icc.mp hx))⟩,
        fun hstranded => (hstranded.resolve_right (not_not.mpr husable)).1⟩

/-! ## One handler -/

/-- What a handler does with the neighbour: it keeps it and sends nothing, or it calls
    `update_neighbor` and sends to the neighbour it got, if it got one. -/
def Calls (N : ℕ) (s t : Server) (dgs : List (ℕ × ElectionMsg)) : Option Server → Prop
  | none => t.actualNeighborId = s.actualNeighborId ∧ dgs = []
  | some c =>
    t.actualNeighborId = (c.nextNeighbor N c.actualNeighborId).1 ∧
      ∀ d ∈ dgs, c.nextNeighbor N c.actualNeighborId = (d.1, true)

theorem calling_eq_some (h : s.calling m = some c) :
    c.id = s.id ∧ c.actualNeighborId = s.actualNeighborId := by
  cases m with
  | startElection | election =>
      obtain rfl := Option.some.inj h
      exact ⟨rfl, rfl⟩
  | checkIfNeighborAcked | newLeader =>
      simp only [calling] at h
      split at h
      · cases h
      · obtain rfl := Option.some.inj h
        exact ⟨rfl, rfl⟩
  | _ => cases h

theorem nextNeighbor_follow (leaderId p : ℕ) :
    (s.follow leaderId).nextNeighbor N p = s.nextNeighbor N p := by
  unfold nextNeighbor
  rw [scanNeighbors_eq, scanNeighbors_eq]
  rfl

theorem Handled.calls (h : Handled N o s m t self dgs) : Calls N s t dgs (s.calling m) := by
  have sends : ∀ {c : Server} {q : ℕ} {msg : ElectionMsg},
      c.nextNeighbor N c.actualNeighborId = (q, true) →
      ∀ d ∈ [(q, msg)], c.nextNeighbor N c.actualNeighborId = (d.1, true) := by
    intro c q msg hq d hd
    rw [List.mem_singleton.mp hd, hq]
  cases h with
  | quiet hm hsame =>
      have hnone : s.calling m = none := by
        cases m with
        | startElection | checkIfNeighborAcked | election | newLeader => cases hm
        | _ => rfl
      rw [hnone]
      exact ⟨hsame.actualNeighborId, rfl⟩
  | startDeclare q hq =>
      exact ⟨(congrArg Prod.fst hq).symm, by simp⟩
  | startSend q hq =>
      refine ⟨(congrArg Prod.fst hq).symm, fun d hd => ?_⟩
      split at hd
      · exact sends (c := s.suspect s.idLeader) hq d hd
      · simp at hd
  | checkAcked c hc =>
      rw [calling, if_pos hc]
      exact ⟨rfl, rfl⟩
  | checkDeclare c hc q hq =>
      rw [calling, if_neg hc]
      exact ⟨(congrArg Prod.fst hq).symm, by simp⟩
  | checkResend c hc q hq =>
      rw [calling, if_neg hc]
      refine ⟨(congrArg Prod.fst hq).symm, fun d hd => ?_⟩
      split at hd
      · exact sends (c := s.suspect c.neighborId) hq d hd
      · simp at hd
  | electionDeclare m q hq => exact ⟨(congrArg Prod.fst hq).symm, by simp⟩
  | electionFinish m _ _ q hq | electionForward m _ _ q hq =>
      exact ⟨(congrArg Prod.fst hq).symm, sends (c := s.markDisconnected m.disconnectedLeaderId) hq⟩
  | newLeaderOwn m hown =>
      rw [calling, if_pos hown]
      exact ⟨rfl, rfl⟩
  | newLeaderDeclare m hown q hq =>
      rw [← nextNeighbor_follow m.leaderId] at hq
      rw [calling, if_neg hown]
      exact ⟨(congrArg Prod.fst hq).symm, by simp⟩
  | newLeaderForward m hown _ q hq =>
      rw [← nextNeighbor_follow m.leaderId] at hq
      rw [calling, if_neg hown]
      exact ⟨(congrArg Prod.fst hq).symm, sends (c := s.follow m.leaderId) hq⟩
  | _ => exact ⟨rfl, rfl⟩

end Server

/-! ## All calls of a replica -/

/-- A replica, the state in which it called `update_neighbor` last, and the election messages it has
    sent. -/
structure Chooser where
  srv : Server
  called : Option Server
  sent : List (ℕ × ElectionMsg)

namespace Chooser

variable {N : ℕ}

def start (N id : ℕ) : Chooser := { srv := Server.replica N id, called := none, sent := [] }

/-- The replica handles a message. -/
def step (N : ℕ) (c : Chooser) (l : Oracle × Msg) : Option Chooser :=
  (c.srv.handle N l.1 l.2).map fun (t, effects) =>
    { srv := t
      called := (c.srv.calling l.2).or c.called
      sent := c.sent ++ datagrams effects }

/-- The last choice is a usable neighbour, and nothing was sent to the replica itself. -/
def ChoosesWell (N : ℕ) (c : Chooser) : Prop :=
  (∀ s, c.called = some s → s.Usable N) ∧ ∀ d ∈ c.sent, d.1 ≠ c.srv.id

/-- **A stranded server does not choose again**, unless it holds itself for disconnected. -/
def mayChoose (N : ℕ) (c : Chooser) (l : Oracle × Msg) : Bool :=
  match c.called, c.srv.calling l.2 with
  | some s, some t => !decide (s.Stranded N) || decide (t.id ∈ t.disconnectedServers)
  | _, _ => true

/-- The neighbour is a server, and it is the replica itself exactly when the last call has made it
    so. -/
structure Tracked (N : ℕ) (c : Chooser) : Prop where
  mem : c.srv.actualNeighborId ∈ ring N
  own : c.srv.actualNeighborId = c.srv.id ↔
    ∃ s, c.called = some s ∧ (s.Stranded N ∨ ¬ s.Usable N)

variable {c c' : Chooser} {l : Oracle × Msg}

/-- What a step does with the neighbour. -/
theorem step_calls (h : c.step N l = some c') : ∃ dgs, c'.srv.id = c.srv.id ∧
    (c.srv.actualNeighborId ∈ ring N → c'.srv.actualNeighborId ∈ ring N) ∧
    c'.called = (c.srv.calling l.2).or c.called ∧ c'.sent = c.sent ++ dgs ∧
    Server.Calls N c.srv c'.srv dgs (c.srv.calling l.2) := by
  obtain ⟨⟨t, effects⟩, hh, rfl⟩ := Option.map_eq_some_iff.1 h
  have hhandled := Server.handle_cases hh
  exact ⟨_, hhandled.id, hhandled.actualNeighborId_mem, rfl, rfl, hhandled.calls⟩

theorem tracked_step (ht : c.Tracked N) (h : c.step N l = some c') : c'.Tracked N := by
  obtain ⟨dgs, hid, hmem, hcalled, -, hcalls⟩ := step_calls h
  refine ⟨hmem ht.mem, ?_⟩
  cases hcall : c.srv.calling l.2 with
  | none =>
      rw [hcall] at hcalls hcalled
      rw [hcalls.1, hid, hcalled, Option.none_or]
      exact ht.own
  | some s =>
      obtain ⟨hsid, hsptr⟩ := Server.calling_eq_some hcall
      rw [hcall] at hcalls hcalled
      rw [hcalls.1, hid, hcalled, Option.some_or, ← hsid,
        Server.nextNeighbor_eq_id (hsptr ▸ ht.mem)]
      simp

theorem tracked_start {id : ℕ} (hN : 2 ≤ N) (hid : id ∈ ring N) : (start N id).Tracked N where
  mem := getNeighborId_mapsTo N hid
  own := by
    have hne : getNeighborId N id ≠ id := by
      unfold getNeighborId
      split <;> omega
    exact ⟨fun hown => absurd hown hne, fun ⟨s, hs, _⟩ => by cases hs⟩

theorem choosesWell_start (N id : ℕ) : (start N id).ChoosesWell N := by
  simp [ChoosesWell, start]

/-- A call is usable exactly when a stranded server does not make it. -/
theorem usable_iff_mayChoose (ht : c.Tracked N) (hc : c.ChoosesWell N) {s : Server}
    (hcall : c.srv.calling l.2 = some s) : s.Usable N ↔ c.mayChoose N l = true := by
  obtain ⟨hsid, hsptr⟩ := Server.calling_eq_some hcall
  rw [Server.usable_iff (hsptr ▸ ht.mem), hsid, hsptr, ht.own, mayChoose, hcall]
  cases hlast : c.called with
  | none => simp
  | some last =>
      have husable := hc.1 last hlast
      simp only [Option.some.injEq, exists_eq_left', Bool.or_eq_true, Bool.not_eq_true',
        decide_eq_false_iff_not, decide_eq_true_eq, hsid, husable, not_true_eq_false, or_false]
      exact imp_iff_not_or

theorem choosesWell_step (ht : c.Tracked N) (hc : c.ChoosesWell N) (h : c.step N l = some c') :
    c'.ChoosesWell N ↔ c.mayChoose N l = true := by
  obtain ⟨dgs, hid, -, hcalled, hsent, hcalls⟩ := step_calls h
  unfold ChoosesWell
  rw [hcalled, hsent, hid]
  cases hcall : c.srv.calling l.2 with
  | none =>
      rw [hcall] at hcalls
      have hmay : c.mayChoose N l = true := by
        rw [mayChoose, hcall]
        cases c.called <;> rfl
      rw [hcalls.2, List.append_nil, Option.none_or]
      exact ⟨fun _ => hmay, fun _ => hc⟩
  | some s =>
      obtain ⟨hsid, -⟩ := Server.calling_eq_some hcall
      rw [hcall] at hcalls
      rw [← usable_iff_mayChoose ht hc hcall, Option.some_or]
      constructor
      · intro hwell
        exact hwell.1 s rfl
      · intro husable
        refine ⟨fun s' hs' => Option.some.inj hs' ▸ husable, fun d hd => ?_⟩
        rcases List.mem_append.mp hd with hd | hd
        · exact hc.2 d hd
        · have hnext := hcalls.2 d hd
          rw [← hsid]
          have hfound : s.updateNeighbor N s.actualNeighborId
              = ({ s with actualNeighborId := d.1 }, true) := by
            rw [Server.updateNeighbor, hnext]
          exact (husable _ hfound).2.1

/-- **When a chosen neighbour is usable**: in the runs of a replica in which no stranded server
    chooses again, every `true` of `update_neighbor` leaves another server of the ring as the
    neighbour, one that is not held for disconnected, and no election message goes to the replica
    itself; and in no others. -/
theorem neighbor_usable_iff {id : ℕ} (hN : 2 ≤ N) (hid : id ∈ ring N) (ls : List (Oracle × Msg))
    (c : Chooser) :
    Run (step N) (fun c l => c.mayChoose N l = true) (start N id) ls c ↔
      Run (step N) (fun c _ => c.ChoosesWell N) (start N id) ls c ∧ c.ChoosesWell N :=
  Run.everywhere_iff (fun _ _ _ ht hst => tracked_step ht hst)
    (fun _ _ _ ht hc hst => choosesWell_step ht hc hst) (tracked_start hN hid)
    (choosesWell_start N id)

theorem neighbor_usable_iff_replica : ∃ c : Chooser, c.sent.map Prod.fst = [2] ∧
    c.ChoosesWell 3 := by
  obtain ⟨c, hrun, hsent⟩ := exists_run_of_exec (fun c l => c.mayChoose 3 l) (start 3 3)
    [(.up, .startElection)] (fun (c : Chooser) => decide (c.sent.map Prod.fst = [2]))
    (show (exec (step 3) _ _ _).any _ = true by decide +kernel)
  have hboth := (neighbor_usable_iff (by decide) (by decide) _ c).1 hrun
  exact ⟨c, of_decide_eq_true hsent, hboth.2⟩

/-- The two servers of a group lose each other. The first `StartElection` of replica 2 finds nobody,
    the second one keeps the neighbour, which is replica 2 itself. -/
def twoElections : List (Oracle × Msg) := [(.up, .startElection), (.up, .startElection)]

theorem not_neighbor_usable : ¬ ∀ (N id : ℕ) (ls : List (Oracle × Msg)) (c : Chooser), 2 ≤ N →
    id ∈ ring N → Run (step N) (fun _ _ => True) (start N id) ls c → c.ChoosesWell N := by
  intro h
  obtain ⟨c, hrun, hown⟩ := exists_run_of_exec (fun _ _ => true) (start 2 2) twoElections
    (fun (c : Chooser) => c.sent.any fun d => decide (d.1 = c.srv.id))
    (show (exec (step 2) _ _ _).any _ = true by decide +kernel)
  obtain ⟨d, hd, hself⟩ := List.any_eq_true.mp hown
  have hwell := h 2 2 _ c (by decide) (by decide) (hrun.mono fun _ _ _ => trivial)
  exact hwell.2 d hd (of_decide_eq_true hself)

end Chooser

end ConcuRide
