import ConcuRide.Network.Steps

set_option autoImplicit false

/-! # Deposed leaders

`NewLeader`, the end of an election and `SetLeader` replace `id_leader` in whatever state a server
is, and nothing ever takes `im_leader` back. A leader that handles a message that names another
leader is left with both. -/

namespace ConcuRide

open Lib

/-- The leader a server takes over when it handles `m`. -/
def Server.named (N : ℕ) (s : Server) : Msg → Option ℕ
  | .newLeader m => some m.leaderId
  | .setLeader m => some m.idLeader
  | .election m =>
    if s.id ∈ m.serverIds ∧
        ((s.markDisconnected m.disconnectedLeaderId).nextNeighbor N s.actualNeighborId).2 then
      some (greatestId m.serverIds)
    else none
  | _ => none

/-- A server that leads takes itself for the leader. -/
def Server.StandsFirm (s : Server) : Prop := s.imLeader = true → s.idLeader = s.id

/-- **What a handler does to the leader of a server.** -/
theorem Server.Handled.named {N : ℕ} {o : Oracle} {s t : Server} {m : Msg} {self : List Msg}
    {data : List (ℕ × ElectionMsg)} (h : s.Handled N o m t self data) :
    t.id = s.id ∧ t.idLeader = (s.named N m).getD s.idLeader ∧
      (s.imLeader = true → t.imLeader = true) ∧
      (t.imLeader = true → s.imLeader = true ∨ t.idLeader = t.id) := by
  have keeps : ∀ {b : Bool}, b = true → b = true := fun h => h
  cases h with
  | quiet hm hsame =>
      have hnamed : s.named N m = none := by
        cases m <;> simp [Msg.isQuiet] at hm <;> rfl
      rw [hnamed, hsame.id, hsame.idLeader, hsame.imLeader]
      exact ⟨rfl, rfl, keeps, .inl⟩
  | electionDeclare m q hq =>
      have hnamed : s.named N (.election m) = none := if_neg (by simp [hq])
      exact ⟨rfl, by rw [hnamed]; rfl, keeps, .inl⟩
  | electionFinish m hid hudp q hq =>
      have hnamed : s.named N (.election m) = some (greatestId m.serverIds) :=
        if_pos ⟨hid, by rw [hq]⟩
      exact ⟨rfl, by rw [hnamed]; rfl, keeps, .inl⟩
  | electionForward m hid hudp q hq =>
      have hnamed : s.named N (.election m) = none := if_neg fun h => hid h.1
      exact ⟨rfl, by rw [hnamed]; rfl, keeps, .inl⟩
  | newLeaderOwn m | newLeaderDeclare m | newLeaderForward m =>
      refine ⟨rfl, rfl, fun him => ?_, fun him => ?_⟩
      · simp [Server.follow, him]
      · simpa [Server.follow] using him
  | _ => exact ⟨rfl, rfl, keeps, .inl⟩

theorem Server.Handled.standsFirm_iff {N : ℕ} {o : Oracle} {s t : Server} {m : Msg}
    {self : List Msg} {data : List (ℕ × ElectionMsg)} (h : s.Handled N o m t self data)
    (hs : s.StandsFirm) :
    t.StandsFirm ↔ (s.imLeader = true → ∀ x, s.named N m = some x → x = s.id) := by
  obtain ⟨hid, hleader, hstays, hnew⟩ := h.named
  constructor
  · intro ht him x hx
    rw [← hid, ← ht (hstays him), hleader, hx]
    rfl
  · intro hnamed him
    rcases hnew him with him' | hown
    · rw [hleader, hid]
      cases hx : s.named N m with
      | none => exact hs him'
      | some x => exact hnamed him' x hx
    · exact hown

namespace Net

variable {N : ℕ} {net net' : Net} {l : Label}

/-- Every leader takes itself for the leader. -/
def LeadersStandFirm (net : Net) : Prop := ∀ k s, net.srv k = some s → s.StandsFirm

/-- No leader handles a message that names another one. -/
def keepsLeading (N : ℕ) (net : Net) : Label → Bool
  | .recv s _ =>
    match net.mailbox s with
    | m :: _ => (net.srv s).all fun srv =>
      !srv.imLeader || (srv.named N m).all fun x => decide (x = srv.id)
    | [] => true
  | _ => true

theorem keepsLeading_recv {s : ℕ} {o : Oracle} {srv : Server} {m : Msg} {rest : List Msg}
    (hs : net.srv s = some srv) (hbox : net.mailbox s = m :: rest) :
    net.keepsLeading N (.recv s o) = true ↔
      (srv.imLeader = true → ∀ x, srv.named N m = some x → x = srv.id) := by
  simp only [keepsLeading, hbox, hs, Option.all_some, Bool.or_eq_true, Bool.not_eq_true',
    Option.all_eq_true, decide_eq_true_eq]
  cases srv.imLeader <;> simp

/-- A message that names a leader does not end the process. -/
theorem named_of_panic (hv : Valid N net) {s : ℕ} {o : Oracle} {srv : Server} {m : Msg}
    (hs : net.srv s = some srv) (hq : net.Queued s m) (hpanic : srv.handle N o m = none) :
    srv.named N m = none := by
  cases hudp : srv.udpSender with
  | true => exact absurd hpanic (Server.handle_ne_none hudp)
  | false =>
      obtain ⟨-, -, hquiet⟩ := hv.noUdp s srv hs hudp
      rcases hquiet m hq with hm | rfl
      · cases m <;> simp [Msg.isQuiet] at hm <;> rfl
      · rfl

/-- **One step**: the leaders stand firm after it exactly when none of them handles a message that
    names another leader. -/
theorem leadersStandFirm_step (hv : Valid N net) (hf : net.LeadersStandFirm)
    (hstep : net.step N l = some net') :
    net'.LeadersStandFirm ↔ net.keepsLeading N l = true := by
  have h := step_cases hstep
  constructor
  · intro hf'
    cases h with
    | @recv s o p m rest t effects hp hbox hans hh =>
        have hr := handles hp hbox hans hh
        rw [keepsLeading_recv hr.srvBefore ((mailbox_of_procs hp).trans hbox)]
        exact (hr.handled.standsFirm_iff (hf s p.srv hr.srvBefore)).1 (hf' s t hr.srvAfter)
    | @panic s o p m rest hp hbox hh =>
        have hs : net.srv s = some p.srv := srv_eq_some.2 ⟨p, hp, rfl⟩
        have hmail : net.mailbox s = m :: rest := (mailbox_of_procs hp).trans hbox
        have hq : net.Queued s m := by rw [Queued, hmail]; exact List.mem_cons_self
        rw [keepsLeading_recv hs hmail, named_of_panic hv hs hq hh]
        intro _ x hx
        cases hx
    | _ => rfl
  · intro hok k t ht
    rcases h.srv_cases ht with hold | ⟨o, before, m, effects, rfl, hr⟩ | ⟨-, -, -, rfl⟩
    · exact hf k t hold
    · obtain ⟨rest, hbox, -⟩ := hr.mailbox
      rw [keepsLeading_recv hr.srvBefore hbox] at hok
      exact (hr.handled.standsFirm_iff (hf k before hr.srvBefore)).2 hok
    · intro him
      cases him

theorem leadersStandFirm_start (i : ℕ) : (start N i).LeadersStandFirm := by
  intro k s hs him
  rw [srv_start] at hs
  split at hs
  · obtain rfl := Option.some.inj hs
    rfl
  · cases hs

/-- **When leaders stand firm**: a run with timely acknowledgements (and any crashes, elections and
    restarts) in which no leader handles a message that names another one is one in which every
    leader takes itself for the leader in every state, and the other way round. -/
theorem leaders_stand_firm_iff {i : ℕ} (hi : i ∈ ring N) (ls : List Label) (net : Net) :
    Run (step N) (fun net l => net.timely l = true ∧ net.keepsLeading N l = true) (start N i) ls
        net ↔
      Run (step N) (fun net l => net.timely l = true ∧ net.LeadersStandFirm) (start N i) ls net ∧
        net.LeadersStandFirm :=
  Run.always_iff (fun _ _ _ hv hst => valid_step hv hst)
    (fun _ _ _ hv hf hst => leadersStandFirm_step hv hf hst) (valid_start hi)
    (leadersStandFirm_start i)

/-- Leader 1 crashes, and server 4 is elected. -/
def fourElected : List Label :=
  [.boot 2, .boot 3, .boot 4, .dial 2, .dial 3, .dial 4, .recv 2 .up, .recv 3 .up, .recv 4 .up,
    .crash 1, .post 4 .ping, .recv 4 .down, .recv 4 .up, .deliver 0, .deliver 0, .recv 2 .up,
    .post 3 .ping, .deliver 0, .deliver 0, .recv 3 .down, .recv 3 .up, .deliver 0, .deliver 0,
    .recv 4 .up, .recv 4 .up, .recv 4 .up]

theorem leaders_stand_firm_iff_fourElected : ∃ net : Net, net.LeadersStandFirm ∧
    Run (step 4) (fun net l => net.timely l = true ∧ net.LeadersStandFirm) (start 4 1)
      fourElected net := by
  obtain ⟨net, hrun, -⟩ := exists_run_of_exec (fun net l => net.timely l && net.keepsLeading 4 l)
    (start 4 1) fourElected (fun _ => true)
    (show (exec (step 4) _ _ _).any _ = true by decide +kernel)
  have hboth := (leaders_stand_firm_iff (N := 4) (i := 1) (by decide) fourElected net).1
    (hrun.mono fun _ _ h => Bool.and_eq_true_iff.1 h)
  exact ⟨net, hboth.2, hboth.1⟩

/-- Server 4 crashes as soon as it has sent its announcement to server 2. Server 3, which has heard
    of the crash of leader 1 by itself, starts another election and wins it, and then the
    announcement of server 4 arrives. -/
def lateAnnouncement : List Label :=
  fourElected ++ [.crash 4, .recv 3 .up, .recv 3 .up, .recv 3 .up, .recv 3 .up, .recv 3 .up,
    .recv 3 .up,
    -- the election of server 3
    .deliver 1, .deliver 1, .recv 2 .up, .recv 2 .up, .recv 2 .up, .recv 2 .up,
    .deliver 1, .deliver 1, .recv 3 .up, .recv 3 .up, .recv 3 .up,
    .deliver 1, .deliver 1, .recv 2 .up, .recv 2 .up, .recv 2 .up,
    .deliver 1, .deliver 1, .recv 3 .up, .recv 3 .up, .recv 3 .up, .recv 3 .up,
    -- the announcement of server 4
    .deliver 0, .recv 2 .up, .recv 2 .up, .recv 2 .up, .recv 2 .up, .recv 2 .up,
    .deliver 0, .recv 3 .up, .recv 3 .up]

theorem not_leaders_stand_firm : ¬ ∀ (N i : ℕ) (ls : List Label) (net : Net), i ∈ ring N →
    Run (step N) (fun net l => net.timely l = true) (start N i) ls net →
    net.LeadersStandFirm := by
  intro h
  obtain ⟨net, hrun, hboth⟩ := exists_run_of_exec timely (start 4 1) lateAnnouncement
    (fun net => (net.srv 3).any fun (s : Server) =>
      s.imLeader && decide (s.id = 3) && decide (s.idLeader = 4))
    (show (exec (step 4) _ _ _).any _ = true by decide +kernel)
  obtain ⟨s, hs, hboth⟩ := Option.any_eq_true _ _ |>.1 hboth
  simp only [Bool.and_eq_true, decide_eq_true_eq] at hboth
  obtain ⟨⟨him, hid⟩, hleader⟩ := hboth
  have hfirm := h 4 1 _ net (by decide) hrun 3 s hs him
  rw [hleader, hid] at hfirm
  cases hfirm

end Net

end ConcuRide
