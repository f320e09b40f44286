import ConcuRide.Network.Steps

set_option autoImplicit false

/-! # Whom a replica follows

A replica knows its leader twice: by `id_leader` and by the connection it opened. `StartElection`
trusts the first to name the server at the other end of the second. The two part in two places:
replica 1 records `leader_id = 1` for a connection to server 2, and an announcement replaces
`id_leader` under a connection that is still there. -/

namespace ConcuRide

open Lib

/-- `id_leader` names the server the replica is connected to. -/
def Server.Follows (s : Server) : Prop :=
  ∀ c, s.leaderConnection = some c → s.idLeader = c.server

/-- Once server `s` has handled `m`, `id_leader` names another leader than before only if the
    connection to that one is gone. -/
def Server.leavesFirst (N : ℕ) (s : Server) : Msg → Bool
  | .newLeader m => s.leaderConnection.isNone || decide (m.leaderId = s.idLeader)
  | .election m =>
    decide (s.id ∉ m.serverIds) || s.leaderConnection.isNone ||
      decide (s.idLeader = m.disconnectedLeaderId) || decide (greatestId m.serverIds = s.idLeader) ||
      !((s.markDisconnected m.disconnectedLeaderId).nextNeighbor N s.actualNeighborId).2
  | _ => true

namespace Net

variable {N : ℕ} {net net' : Net} {l : Label}

/-- The processes of `servidor_lider` with the given ids. -/
def startAll (N : ℕ) (leaders : List ℕ) : Net where
  procs := fun s => if s ∈ leaders then some ⟨Server.lider N s, [], false⟩ else none
  boots := fun s => if s ∈ leaders then 1 else 0
  flight := []
  pongs := []
  log := []

/-- **The old leader is left first**: replica 1 finds no server listening as server 2, and no server
    takes over the leader of an announcement, or of the election it ends, under a connection to
    another one. -/
def leavesFirst (N : ℕ) (net : Net) : Label → Bool
  | .recv s _ =>
    match net.mailbox s with
    | m :: _ => (net.srv s).all fun srv => srv.leavesFirst N m
    | [] => true
  | .dial s => decide (s ≠ 1) || !net.listening 2
  | _ => true

/-- What `main` tells its server about the connection it opened. -/
theorem dialLeader_names {listening : ℕ → Bool} {id k leaderId : ℕ}
    (h : dialLeader N listening id = some (k, leaderId))
    (hok : (decide (id ≠ 1) || !listening 2) = true) : leaderId = k := by
  have others : (connectToServerLeader (fun k => decide (k ≠ id) && listening k) N).map
      (fun k => (k, k)) = some (k, leaderId) → leaderId = k := by
    intro h
    obtain ⟨x, -, hx⟩ := Option.map_eq_some_iff.1 h
    obtain ⟨rfl, rfl⟩ := Prod.mk.inj hx
    rfl
  unfold dialLeader at h
  by_cases hid : 1 = id
  · have htwo : listening 2 = false := by simpa [hid.symm] using hok
    simp only [if_pos hid, htwo] at h
    exact others h
  · simp only [if_neg hid] at h
    split at h
    · obtain ⟨rfl, rfl⟩ := Prod.mk.inj (Option.some.inj h)
      rfl
    · exact others h

/-- The invariant: every server follows the one it is connected to, and so does every connection
    that waits to be set. -/
structure AllFollow (net : Net) : Prop where
  servers : ∀ k s, net.srv k = some s → s.Follows
  waiting : ∀ k m, net.Queued k (.setLeader m) → m.idLeader = m.leaderConnection.server

/-- A handled message keeps a server with its connection. -/
theorem follows_handled {o : Oracle} {s t : Server} {m : Msg} {self : List Msg}
    {dgs : List (ℕ × ElectionMsg)} (h : s.Handled N o m t self dgs) (hs : s.Follows)
    (hset : ∀ x, m = .setLeader x → x.idLeader = x.leaderConnection.server)
    (hconn : m = .connectToServer → ∀ c, o.stream = some c → s.idLeader = c.server)
    (hleave : s.leavesFirst N m = true) : t.Follows := by
  have keeps : ∀ {t' : Server}, t'.idLeader = s.idLeader →
      t'.leaderConnection = s.leaderConnection → t'.Follows := by
    intro t' hleader hc c hsome
    rw [hleader]
    exact hs c (hc ▸ hsome)
  have drops : ∀ {t' : Server}, t'.leaderConnection = none → t'.Follows := by
    intro t' hnone c hsome
    rw [hnone] at hsome
    cases hsome
  -- an announcement under a connection names the leader the connection is to
  have announced : ∀ {x : NewLeader} {t' : Server}, m = .newLeader x → t'.idLeader = x.leaderId →
      t'.leaderConnection = s.leaderConnection → t'.Follows := by
    intro x t' hx hleader hc
    subst hx
    simp only [Server.leavesFirst, Bool.or_eq_true, decide_eq_true_eq,
      Option.isNone_iff_eq_none] at hleave
    rcases hleave with hnone | heq
    · exact drops (hc.trans hnone)
    · exact keeps (hleader.trans heq) hc
  -- an election drops the connection to the leader it names and no other
  have marked : ∀ {leader : ℕ} {t' : Server}, t'.idLeader = s.idLeader →
      t'.leaderConnection = (s.markDisconnected leader).leaderConnection → t'.Follows := by
    intro leader t' hleader hc
    by_cases heq : s.idLeader = leader
    · refine drops (hc.trans ?_)
      simp [Server.markDisconnected, heq]
    · refine keeps hleader (hc.trans ?_)
      simp [Server.markDisconnected, heq]
  cases h with
  | quiet _ hsame => exact keeps hsame.idLeader hsame.leaderConnection
  | setLeader x =>
      intro c hc
      obtain rfl := Option.some.inj hc
      exact hset x rfl
  | pingLost => exact drops rfl
  | electionDeclare e | electionForward e => exact marked rfl rfl
  | electionFinish e hid hudp q hq =>
      simp only [Server.leavesFirst, hid, hq, not_true_eq_false, decide_false, Bool.false_or,
        Bool.not_true, Bool.or_false, Bool.or_eq_true, decide_eq_true_eq,
        Option.isNone_iff_eq_none] at hleave
      rcases hleave with (hnone | heq) | heq
      · refine drops ?_
        simp [Server.markDisconnected, hnone]
      · refine drops ?_
        simp [Server.markDisconnected, heq]
      · exact marked heq rfl
  | newLeaderOwn x | newLeaderDeclare x | newLeaderForward x => exact announced rfl rfl rfl
  | connected c ho =>
      intro c' hc
      obtain rfl := Option.some.inj hc
      exact hconn rfl _ ho
  | _ => exact keeps rfl rfl

/-- The queue of a server only gets a `SetLeader` from `main`. -/
theorem setLeader_not_self {o : Oracle} {s t : Server} {m : Msg} {self : List Msg}
    {dgs : List (ℕ × ElectionMsg)} (h : s.Handled N o m t self dgs) (x : SetLeader) :
    Msg.setLeader x ∉ self := by
  intro hx
  have hconnecting : ∀ {b : Server} {i : ℕ}, Msg.setLeader x ∉ b.connecting i := fun hmem => by
    cases Server.mem_connecting hmem
  cases h with
  | quiet _ _ _ hself => cases hself _ hx
  | newLeaderOwn => exact hconnecting hx
  | newLeaderDeclare | newLeaderForward =>
      rcases List.mem_cons.1 hx with hx | hx
      · cases hx
      · exact hconnecting hx
  | _ => simp [Server.waiting] at hx

theorem allFollow_step (hf : net.AllFollow) (hok : net.leavesFirst N l = true)
    (hstep : net.step N l = some net') : net'.AllFollow := by
  have hs := step_cases hstep
  constructor
  case servers =>
    intro k t ht
    rcases hs.srv_cases ht with hold | ⟨o, before, m, effects, rfl, hr⟩ | ⟨rfl, -, -, rfl⟩
    · exact hf.servers k t hold
    · obtain ⟨rest, hbox, -⟩ := hr.mailbox
      refine follows_handled hr.handled (hf.servers k before hr.srvBefore) ?_ ?_ ?_
      · rintro x rfl
        exact hf.waiting k x hr.queued
      · rintro rfl c ho
        have hans := hr.answers
        simp only [answers, ho, Option.all_some, Bool.and_eq_true, decide_eq_true_eq] at hans
        rw [hans.1]
      · simpa [leavesFirst, hbox, hr.srvBefore] using hok
    · intro c hc
      cases hc
  case waiting =>
    intro k m hq
    rcases hs.queued_cases hq with hold | harr | ⟨o, before, m', after, effects, rfl, hr, hself⟩
    · exact hf.waiting k m hold
    · cases harr with
      | posted hsrv hm => simp [reaches, Msg.isExternal] at hm
      | msg hx =>
          rename_i e _ _ _ _
          cases e <;> cases hx
      | dial hsrv hudp hk => exact dialLeader_names hk hok
    · exact absurd hself (setLeader_not_self hr.handled m)

theorem allFollow_startAll (leaders : List ℕ) : (startAll N leaders).AllFollow where
  servers := fun k s hs c hc => by
    simp only [srv, startAll] at hs
    split at hs
    · obtain rfl := Option.some.inj hs
      cases hc
    · cases hs
  waiting := fun k m hq => by
    simp only [Queued, mailbox, startAll] at hq
    split at hq <;> cases hq

/-- **Every replica follows the server it is connected to**, in every run of start-ups, crashes and
    elections in which the old leader is left first. -/
theorem follows_connection {leaders : List ℕ} {ls : List Label}
    (h : Run (step N) (fun net l => net.leavesFirst N l = true) (startAll N leaders) ls net) :
    ∀ s srv c, net.srv s = some srv → srv.leaderConnection = some c → srv.idLeader = c.server := by
  have hall : net.AllFollow := h.invariant
    (fun _ _ _ hf hok hst => allFollow_step hf hok hst) (allFollow_startAll leaders)
  exact fun s srv c hs hc => hall.servers s srv hs c hc

/-- Servers 2 and 3 join leader 1, which crashes, and 3 is elected. -/
def joinsSuccessor : List Label :=
  [.boot 2, .boot 3, .dial 2, .dial 3, .recv 3 .up, .recv 2 .up, .crash 1, .post 2 .ping,
    .recv 2 .down, .recv 2 .up, .deliver 0, .deliver 0, .recv 3 .up, .deliver 0, .deliver 0,
    .recv 3 .up, .recv 3 .up, .recv 3 .up, .recv 2 .up, .recv 2 .up, .recv 2 .up, .deliver 0,
    .deliver 0, .recv 3 .up, .deliver 0, .deliver 0, .recv 3 .up, .recv 3 .up, .recv 3 .up,
    .recv 2 .up, .recv 2 .up, .recv 2 .up, .recv 2 .up, .recv 2 .up, .recv 2 ⟨true, some ⟨3, 1⟩⟩]

theorem follows_connection_joinsSuccessor : ∃ (net : Net) (srv : Server), net.srv 2 = some srv ∧
    srv.leaderConnection = some ⟨3, 1⟩ ∧ srv.idLeader = 3 := by
  obtain ⟨net, hrun, hconn⟩ := exists_run_of_exec (leavesFirst 3) (startAll 3 [1]) joinsSuccessor
    (fun (net : Net) => (net.srv 2).any fun (srv : Server) =>
      decide (srv.leaderConnection = some ⟨3, 1⟩))
    (show (exec (step 3) _ _ _).any _ = true by decide +kernel)
  obtain ⟨srv, hs, hc⟩ := Option.any_eq_true _ _ |>.1 hconn
  have hc := of_decide_eq_true hc
  exact ⟨net, srv, hs, hc, follows_connection hrun 2 srv _ hs hc⟩

/-- Replica 1 connects to server 2, and calls its leader 1. -/
theorem not_follows_connection :
    ¬ ∀ (N : ℕ) (leaders : List ℕ) (ls : List Label) (net : Net),
      Run (step N) (fun _ _ => True) (startAll N leaders) ls net →
      ∀ s srv c, net.srv s = some srv → srv.leaderConnection = some c →
        srv.idLeader = c.server := by
  intro h
  obtain ⟨net, hrun, hconn⟩ := exists_run_of_exec (fun _ _ => true) (startAll 2 [2])
    [.boot 1, .dial 1, .recv 1 .up]
    (fun (net : Net) => (net.srv 1).any fun (srv : Server) =>
      decide (srv.leaderConnection = some ⟨2, 1⟩ ∧ srv.idLeader = 1))
    (show (exec (step 2) _ _ _).any _ = true by decide +kernel)
  obtain ⟨srv, hs, hc⟩ := Option.any_eq_true _ _ |>.1 hconn
  obtain ⟨hc, hleader⟩ := of_decide_eq_true hc
  have := h 2 [2] _ net (hrun.mono fun _ _ _ => trivial) 1 srv _ hs hc
  rw [hleader] at this
  cases this

end Net

end ConcuRide
