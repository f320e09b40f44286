import Mathlib.Data.List.Iterate
import Mathlib.Data.List.Nodup
import Mathlib.Data.Nat.ModEq
import ConcuRide.Lib.Orbit
import ConcuRide.Server.Ring

set_option autoImplicit false

/-! # The retries of an election

A server that starts an election and gets no acknowledgement holds its neighbour for disconnected
and tries the next one, until nobody is left. The neighbours it tries are one lap around the ring,
without those that were held for disconnected before. -/

namespace ConcuRide.Server

open Lib

variable {N : ℕ} {s : Server} {p q : ℕ} {before after : List ℕ}

instance (s : Server) (x : ℕ) : Decidable (s.Candidate x) :=
  inferInstanceAs (Decidable (x ∉ s.disconnectedServers ∧ x ≠ s.id))

/-! ## Scanning the ring -/

/-- A lap around the ring, from `p` on. -/
def lap (N p : ℕ) : List ℕ := List.iterate (getNeighborId N) p N

theorem getNeighborId_back (hp : p ∈ ring N) : (getNeighborId N)^[N] p = p := by
  have hp' := mem_ring.1 hp
  rw [iterate_getNeighborId hp, Nat.add_mod_right, Nat.mod_eq_of_lt (by omega)]
  omega

theorem mem_lap (hp : p ∈ ring N) : q ∈ lap N p ↔ q ∈ ring N := by
  rw [lap, List.mem_iterate]
  constructor
  · rintro ⟨m, -, rfl⟩
    exact iterate_getNeighborId_mem hp m
  · intro hq
    obtain ⟨j, hpos, hle, hj⟩ := exists_iterate_getNeighborId hp hq
    by_cases hlast : j = N
    · -- the walk of `N` steps ends where it has started
      subst hlast
      rw [getNeighborId_back hp] at hj
      exact ⟨0, hpos, hj.symm⟩
    · exact ⟨j, by omega, hj.symm⟩

theorem nodup_lap (hp : p ∈ ring N) : (lap N p).Nodup := by
  refine List.nodup_iff_injective_get.mpr fun i j hij => ?_
  have hlength : (lap N p).length = N := List.length_iterate ..
  simp only [List.get_eq_getElem] at hij
  unfold lap at hij
  rw [List.getElem_iterate, List.getElem_iterate, iterate_getNeighborId hp,
    iterate_getNeighborId hp, Nat.add_right_cancel_iff] at hij
  have hi : (i : ℕ) < N := Nat.lt_of_lt_of_eq i.isLt hlength
  have hj : (j : ℕ) < N := Nat.lt_of_lt_of_eq j.isLt hlength
  have hmod : Nat.ModEq N i j := Nat.ModEq.add_left_cancel' (p - 1) hij
  exact Fin.ext (hmod.eq_of_lt_of_lt hi hj)

/-- The scan stops at the first candidate, or where it has started. -/
theorem scanNeighbors_eq (k p : ℕ) : s.scanNeighbors N k p =
    match (List.iterate (getNeighborId N) p k).find? fun x => decide (s.Candidate x) with
    | some q => (q, true)
    | none => ((getNeighborId N)^[k] p, false) := by
  induction k generalizing p with
  | zero => rfl
  | succ k ih =>
      unfold scanNeighbors
      rw [List.iterate, Function.iterate_succ_apply]
      split
      · next hp =>
          have hcand : s.Candidate p := hp
          rw [List.find?_cons_of_pos (p := fun x => decide (s.Candidate x)) (decide_eq_true hcand)]
      · next hp =>
          have hcand : ¬ s.Candidate p := hp
          rw [List.find?_cons_of_neg (by simpa using hcand)]
          exact ih _

/-- The scan from a neighbour that is held for disconnected finds the first candidate after it, when
    there is none before it on the lap. -/
theorem nextNeighbor_turn (hp : p ∈ ring N) (hlap : lap N p = before ++ q :: after)
    (hq : s.actualNeighborId = q) (hdisc : q ∈ s.disconnectedServers)
    (hbefore : ∀ x ∈ before, ¬ s.Candidate x) : s.nextNeighbor N q =
    match after.find? fun x => decide (s.Candidate x) with
    | some q' => (q', true)
    | none => (getNeighborId N q, false) := by
  have hmem : q ∈ ring N := (mem_lap hp).1 (hlap ▸ List.mem_append_right _ List.mem_cons_self)
  have hback := getNeighborId_back (getNeighborId_mapsTo N hmem)
  have hnone : (before ++ [q]).find? (fun x => decide (s.Candidate x)) = none := by
    refine List.find?_eq_none.mpr fun x hx => ?_
    rcases List.mem_append.mp hx with hx | hx
    · simpa using hbefore x hx
    · rw [List.mem_singleton.mp hx]
      simp [Candidate, hdisc]
  rw [nextNeighbor, if_neg (by simpa [hq] using hdisc), scanNeighbors_eq,
    iterate_turn (getNeighborId_back hp) hlap, List.append_assoc, List.find?_append, hnone, hback,
    Option.or_none]

/-! ## A server that hears nothing -/

/-- A server on its own, with its mailbox and the datagrams it has sent. -/
structure Alone where
  srv : Server
  mailbox : List Msg
  sent : List (ℕ × ElectionMsg)

/-- The handlers of an election that is not answered. -/
def retry (N : ℕ) (s : Server) : Msg → Option (Server × List Effect)
  | .startElection => some (s.startElection N)
  | .waitForNeighborAck m => some (s.waitForNeighborAck m)
  | .checkIfNeighborAcked m => some (s.checkIfNeighborAcked N m)
  | _ => none

theorem handle_of_retry {m : Msg} {r : Server × List Effect} (h : s.retry N m = some r)
    (o : Oracle) : s.handle N o m = some r := by
  cases m with
  | startElection | waitForNeighborAck | checkIfNeighborAcked => exact h
  | _ => cases h

namespace Alone

/-- The server handles the next message of its mailbox, if it is one of the election. -/
def step (N : ℕ) (c : Alone) : Option Alone :=
  match c.mailbox with
  | [] => none
  | m :: rest => (c.srv.retry N m).map fun (t, effects) =>
    { srv := t, mailbox := rest ++ selfMessages effects, sent := c.sent ++ datagrams effects }

/-- The server after `n` steps. -/
def follow (N : ℕ) : ℕ → Alone → Option Alone
  | 0, c => some c
  | n + 1, c => (c.step N).bind (follow N n)

theorem follow_succ {n : ℕ} {c c' : Alone} {r : Option Alone} (hstep : c.step N = some c')
    (h : follow N n c' = r) : follow N (n + 1) c = r := by
  rw [follow, hstep]
  exact h

end Alone

/-- The `CheckIfNeighborAcked` of a message sent to `q`. -/
def checking (msg : ElectionMsg) (q : ℕ) : Msg :=
  .checkIfNeighborAcked
    { neighborId := q, serializedMsg := msg, sequenceNumber := msg.sequenceNumber }

variable {msg : ElectionMsg} (sent : List (ℕ × ElectionMsg))

/-- A step does what the handler can do. -/
theorem step_handled {m : Msg} (hm : (s.retry N m).isSome = true) :
    ∃ t self dgs, Handled N .up s m t self dgs ∧
      Alone.step N { srv := s, mailbox := [m], sent := sent } =
        some { srv := t, mailbox := self, sent := sent ++ dgs } := by
  obtain ⟨⟨t, effects⟩, hr⟩ := Option.isSome_iff_exists.mp hm
  exact ⟨t, _, _, handle_cases (handle_of_retry hr .up), by simp [Alone.step, hr]⟩

theorem step_wait : Alone.step N { srv := s, mailbox := [waiting msg q], sent := sent } =
    some { srv := s, mailbox := [checking msg q], sent := sent } := by
  obtain ⟨t, self, dgs, hh, hstep⟩ := step_handled sent (m := waiting msg q) rfl
  rw [hstep]
  cases hh with
  | quiet hm => cases hm
  | wait => rw [List.append_nil]; rfl

/-- The message goes to the next neighbour. -/
theorem step_resend {q' : ℕ} (hudp : s.udpSender = true)
    (hack : msg.sequenceNumber ∉ s.messageReceivedAck)
    (hnext : (s.suspect q).nextNeighbor N s.actualNeighborId = (q', true)) :
    Alone.step N { srv := s, mailbox := [checking msg q], sent := sent } =
      some
        { srv := { s.suspect q with actualNeighborId := q' }
          mailbox := [waiting msg q']
          sent := sent ++ [(q', msg)] } := by
  obtain ⟨t, self, dgs, hh, hstep⟩ := step_handled sent (m := checking msg q) rfl
  rw [hstep]
  cases hh with
  | quiet hm => cases hm
  | checkAcked _ hc => exact absurd hc hack
  | checkDeclare _ _ q'' hq'' => cases hnext.symm.trans hq''
  | checkResend _ _ q'' hq'' =>
      obtain ⟨rfl, -⟩ := Prod.mk.inj (hnext.symm.trans hq'')
      rw [if_pos hudp]
      rfl

/-- Nobody is left. -/
theorem step_declare {q' : ℕ} (hack : msg.sequenceNumber ∉ s.messageReceivedAck)
    (hnext : (s.suspect q).nextNeighbor N s.actualNeighborId = (q', false)) :
    ∃ t, Alone.step N { srv := s, mailbox := [checking msg q], sent := sent } =
      some { srv := t, mailbox := [.newLeader s.selfDeclared], sent := sent } := by
  obtain ⟨t, self, dgs, hh, hstep⟩ := step_handled sent (m := checking msg q) rfl
  rw [hstep]
  cases hh with
  | quiet hm => cases hm
  | checkAcked _ hc => exact absurd hc hack
  | checkDeclare => exact ⟨_, by rw [List.append_nil]⟩
  | checkResend _ _ q'' hq'' => cases hnext.symm.trans hq''

/-- The chain has ended: the server has declared itself leader, and waits for nothing. -/
def Alone.Ended (id : ℕ) (c : Alone) : Prop :=
  ∃ k, c.mailbox = [.newLeader { idSender := id, leaderId := id, sequenceNumber := k }]

theorem Alone.Ended.step {id : ℕ} {c : Alone} (h : c.Ended id) : c.step N = none := by
  obtain ⟨k, hbox⟩ := h
  simp [Alone.step, hbox, retry]

theorem candidate_of_suspect {x : ℕ} (h : (s.suspect q).Candidate x) : s.Candidate x :=
  ⟨fun hmem => h.1 (List.mem_append_left _ hmem), h.2⟩

theorem filter_suspect {l : List ℕ} (hq : q ∉ l) :
    l.filter (fun x => decide ((s.suspect q).Candidate x))
      = l.filter fun x => decide (s.Candidate x) := by
  refine List.filter_congr fun x hx => decide_eq_decide.mpr ?_
  have hne : x ≠ q := fun heq => hq (heq ▸ hx)
  simp only [Candidate, suspect, List.mem_append, List.mem_singleton, hne, or_false]

/-- The first candidate of a list, and those that follow it. -/
theorem filter_first {l : List ℕ} (hbefore : ∀ x ∈ before, ¬ s.Candidate x) (hq : s.Candidate q) :
    (before ++ q :: l).filter (fun x => decide (s.Candidate x))
      = q :: l.filter fun x => decide (s.Candidate x) := by
  rw [List.filter_append, List.filter_cons, if_pos (decide_eq_true hq),
    List.filter_eq_nil_iff.mpr (by simpa using hbefore), List.nil_append]

/-- **The rest of the lap.** A server that waits in vain for its neighbour `q`, and has no candidate
    before it on the lap, tries the candidates after it, in their order. -/
theorem follow_retries (hp : p ∈ ring N) (hudp : s.udpSender = true)
    (hack : msg.sequenceNumber ∉ s.messageReceivedAck) (hlap : lap N p = before ++ q :: after)
    (hq : s.actualNeighborId = q) (hbefore : ∀ x ∈ before, ¬ s.Candidate x) :
    ∃ n c, Alone.follow N n { srv := s, mailbox := [waiting msg q], sent := sent } = some c ∧
      c.Ended s.id ∧
      c.sent = sent ++ (after.filter fun x => decide (s.Candidate x)).map (·, msg) := by
  induction hlen : after.length using Nat.strong_induction_on
    generalizing s before q after sent with
  | _ len ih =>
      have hnodup := nodup_lap hp
      rw [hlap, List.nodup_append] at hnodup
      have hafter : q ∉ after := (List.nodup_cons.mp hnodup.2.1).1
      have hgone : ∀ x ∈ before, ¬ (s.suspect q).Candidate x := fun x hx hcand =>
        hbefore x hx (candidate_of_suspect hcand)
      have hturn := nextNeighbor_turn (s := s.suspect q) hp hlap hq (by simp [suspect]) hgone
      rw [← filter_suspect hafter]
      cases hfind : after.find? fun x => decide ((s.suspect q).Candidate x) with
      | none =>
          rw [hfind] at hturn
          obtain ⟨t, hstep⟩ := step_declare sent (q := q) hack (by rw [hq]; exact hturn)
          refine ⟨2, _, Alone.follow_succ (step_wait _) (Alone.follow_succ hstep rfl), ⟨_, rfl⟩, ?_⟩
          rw [List.filter_eq_nil_iff.mpr (List.find?_eq_none.mp hfind), List.map_nil,
            List.append_nil]
      | some q' =>
          rw [hfind] at hturn
          obtain ⟨hcand, pre, post, rfl, hpre⟩ := List.find?_eq_some_iff_append.mp hfind
          have hresend := step_resend sent (q := q) hudp hack (by rw [hq]; exact hturn)
          have hlap' : lap N p = (before ++ q :: pre) ++ q' :: post := by simpa using hlap
          have hpre' : ∀ x ∈ pre, ¬ (s.suspect q).Candidate x := by simpa using hpre
          have htried : ∀ x ∈ before ++ q :: pre, ¬ (s.suspect q).Candidate x := by
            intro x hx
            rcases List.mem_append.mp hx with hx | hx
            · exact hgone x hx
            · rcases List.mem_cons.mp hx with rfl | hx
              · simp [Candidate, suspect]
              · exact hpre' x hx
          have hlen' : post.length < len := by
            simp only [← hlen, List.length_append, List.length_cons]
            omega
          obtain ⟨n, c, hfollow, hend, hsent⟩ := @ih post.length hlen'
            { s.suspect q with actualNeighborId := q' } q' (before ++ q :: pre) post
            (sent ++ [(q', msg)]) hudp hack hlap' rfl htried rfl
          refine ⟨n + 2, c,
            Alone.follow_succ (step_wait _) (Alone.follow_succ hresend hfollow), hend, ?_⟩
          rw [hsent, filter_first hpre' (of_decide_eq_true hcand), List.append_assoc]
          rfl

/-! ## The whole chain -/

/-- The servers an election that is not answered is sent to: one lap from the neighbour on. -/
def targets (N : ℕ) (s : Server) : List ℕ :=
  (lap N s.actualNeighborId).filter fun x =>
    decide (x ≠ s.id ∧ x ≠ s.idLeader ∧ x ∉ s.disconnectedServers)

theorem mem_targets (hptr : s.actualNeighborId ∈ ring N) {x : ℕ} : x ∈ targets N s ↔
    x ∈ ring N ∧ x ≠ s.id ∧ x ≠ s.idLeader ∧ x ∉ s.disconnectedServers := by
  rw [targets, List.mem_filter, mem_lap hptr, decide_eq_true_eq]

theorem targets_eq : targets N s =
    (lap N s.actualNeighborId).filter fun x => decide ((s.suspect s.idLeader).Candidate x) := by
  refine List.filter_congr fun x _ => decide_eq_decide.mpr ?_
  simp only [Candidate, suspect, List.mem_append, List.mem_singleton]
  tauto

theorem step_start (hudp : s.udpSender = true)
    (hnext : (s.suspect s.idLeader).nextNeighbor N s.actualNeighborId = (q, true)) :
    Alone.step N { srv := s, mailbox := [.startElection], sent := sent } =
      some
        { srv := { s.suspect s.idLeader with
            actualNeighborId := q, sequenceNumber := s.sequenceNumber + 2 }
          mailbox := [waiting (.election s.firstElection) q]
          sent := sent ++ [(q, .election s.firstElection)] } := by
  obtain ⟨t, self, dgs, hh, hstep⟩ := step_handled (N := N) (s := s) sent (m := .startElection) rfl
  rw [hstep]
  cases hh with
  | quiet hm => cases hm
  | startDeclare _ hq => cases hnext.symm.trans hq
  | startSend _ hq =>
      obtain ⟨rfl, -⟩ := Prod.mk.inj (hnext.symm.trans hq)
      rw [if_pos hudp]

theorem step_startDeclare (hnext : (s.suspect s.idLeader).nextNeighbor N s.actualNeighborId
      = (q, false)) :
    ∃ t, Alone.step N { srv := s, mailbox := [.startElection], sent := sent } =
      some { srv := t, mailbox := [.newLeader s.selfDeclared], sent := sent } := by
  obtain ⟨t, self, dgs, hh, hstep⟩ := step_handled (N := N) (s := s) sent (m := .startElection) rfl
  rw [hstep]
  cases hh with
  | quiet hm => cases hm
  | startDeclare => exact ⟨_, by rw [List.append_nil]⟩
  | startSend _ hq => cases hnext.symm.trans hq

/-- The chain of a server that finds the first candidate of the lap. -/
theorem follow_start (hptr : s.actualNeighborId ∈ ring N) (hudp : s.udpSender = true)
    (hack : s.sequenceNumber ∉ s.messageReceivedAck)
    (hlap : lap N s.actualNeighborId = before ++ q :: after)
    (hbefore : ∀ x ∈ before, ¬ (s.suspect s.idLeader).Candidate x)
    (hq : (s.suspect s.idLeader).Candidate q)
    (hnext : (s.suspect s.idLeader).nextNeighbor N s.actualNeighborId = (q, true)) :
    ∃ n c, Alone.follow N n { srv := s, mailbox := [.startElection], sent := [] } = some c ∧
      c.Ended s.id ∧ c.sent = (targets N s).map (·, .election s.firstElection) := by
  obtain ⟨n, c, hfollow, hend, hsent⟩ := @follow_retries N
    { s.suspect s.idLeader with actualNeighborId := q, sequenceNumber := s.sequenceNumber + 2 }
    _ q before after (.election s.firstElection) [(q, .election s.firstElection)] hptr hudp hack
    hlap rfl hbefore
  refine ⟨n + 1, c, Alone.follow_succ (step_start [] hudp hnext) hfollow, hend, ?_⟩
  rw [hsent, targets_eq, hlap, filter_first hbefore hq]
  rfl

/-- The chain of a server that starts an election. -/
theorem follow_startElection (hptr : s.actualNeighborId ∈ ring N)
    (hne : s.actualNeighborId ≠ s.id) (hudp : s.udpSender = true)
    (hack : s.sequenceNumber ∉ s.messageReceivedAck) :
    ∃ n c, Alone.follow N n { srv := s, mailbox := [.startElection], sent := [] } = some c ∧
      c.Ended s.id ∧ c.sent = (targets N s).map (·, .election s.firstElection) := by
  have hlap : ∃ rest, lap N s.actualNeighborId = [] ++ s.actualNeighborId :: rest := by
    obtain ⟨n, rfl⟩ := Nat.exists_eq_succ_of_ne_zero (ring_pos hptr).ne'
    exact ⟨_, rfl⟩
  obtain ⟨rest, hlap⟩ := hlap
  by_cases hdisc : s.actualNeighborId ∈ (s.suspect s.idLeader).disconnectedServers
  · have hturn := nextNeighbor_turn (s := s.suspect s.idLeader) hptr hlap rfl hdisc (by simp)
    have hfirst : ¬ (s.suspect s.idLeader).Candidate s.actualNeighborId := fun hcand =>
      hcand.1 hdisc
    cases hfind : rest.find? fun x => decide ((s.suspect s.idLeader).Candidate x) with
    | none =>
        rw [hfind] at hturn
        obtain ⟨t, hstep⟩ := step_startDeclare [] hturn
        refine ⟨1, _, Alone.follow_succ hstep rfl, ⟨_, rfl⟩, ?_⟩
        rw [targets_eq, hlap, List.nil_append, List.filter_cons, if_neg (by simpa using hfirst),
          List.filter_eq_nil_iff.mpr (List.find?_eq_none.mp hfind)]
        rfl
    | some q =>
        rw [hfind] at hturn
        obtain ⟨hcand, pre, post, rfl, hpre⟩ := List.find?_eq_some_iff_append.mp hfind
        refine @follow_start N s q (s.actualNeighborId :: pre) post hptr hudp hack hlap ?_
          (of_decide_eq_true hcand) hturn
        intro x hx
        rcases List.mem_cons.mp hx with rfl | hx
        · exact hfirst
        · simpa using hpre x hx
  · exact follow_start hptr hudp hack hlap (by simp) ⟨hdisc, hne⟩ (if_pos hdisc)

/-- **The retry chain covers the ring.** A server that starts an election with its UDP port open,
    and hears nothing while it handles the messages of the election, sends the `Election` to every
    server but itself, the lost leader and those it held for disconnected, once each and in the
    order of the ring from its neighbour on. Then it sends itself one `NewLeader`, and the chain
    stops. -/
theorem retries_cover_ring (hptr : s.actualNeighborId ∈ ring N) (hne : s.actualNeighborId ≠ s.id)
    (hudp : s.udpSender = true) (hack : s.sequenceNumber ∉ s.messageReceivedAck) :
    (∃ n c, Alone.follow N n { srv := s, mailbox := [.startElection], sent := [] } = some c ∧
      c.sent = (targets N s).map (·, .election s.firstElection) ∧
      (∃ k, c.mailbox = [.newLeader { idSender := s.id, leaderId := s.id, sequenceNumber := k }]) ∧
      c.step N = none) ∧
    (targets N s).Nodup ∧ ∀ x, x ∈ targets N s ↔
      x ∈ ring N ∧ x ≠ s.id ∧ x ≠ s.idLeader ∧ x ∉ s.disconnectedServers := by
  obtain ⟨n, c, hfollow, hend, hsent⟩ := follow_startElection hptr hne hudp hack
  exact ⟨⟨n, c, hfollow, hsent, hend, hend.step⟩, (nodup_lap hptr).filter _, fun x =>
    mem_targets hptr⟩

theorem retries_cover_ring_fourAndTwo :
    targets 5 { replica 5 3 with disconnectedServers := [5, 3, 5] } = [4, 2] ∧
    ∃ n c, Alone.follow 5 n
        { srv := { replica 5 3 with disconnectedServers := [5, 3, 5] }
          mailbox := [.startElection]
          sent := [] } = some c ∧ c.sent.map Prod.fst = [4, 2] := by
  have htargets : targets 5 { replica 5 3 with disconnectedServers := [5, 3, 5] } = [4, 2] := by
    decide
  obtain ⟨⟨n, c, hfollow, hsent, -⟩, -⟩ := @retries_cover_ring 5
    { replica 5 3 with disconnectedServers := [5, 3, 5] } (by decide) (by decide) rfl (by decide)
  refine ⟨htargets, n, c, hfollow, ?_⟩
  rw [hsent, htargets]
  rfl

end ConcuRide.Server
