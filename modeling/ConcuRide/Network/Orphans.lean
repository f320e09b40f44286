import ConcuRide.Lib.History
import ConcuRide.Network.Steps

set_option autoImplicit false

/-! # Replicas without a leader

A replica drops the connection to its leader when it finds the leader gone, or learns of it from an
election. What it does about it is in its mailbox, until it is leader itself, is connected to the
new leader, or leaves the matter to others: once the others have its message and no leader has been
announced to it, or once the leader that was cannot be reached. -/

namespace ConcuRide.Net

open Lib

variable {N : ℕ} {net net' : Net} {l : Label} {s : ℕ}

/-- Replica `s` has handled the `SetLeader` of its start-up. -/
def Joined (net : Net) (s : ℕ) : Prop := .joined s ∈ since (.booted s) net.log

/-- The past since replica `s` last dropped its leader connection. -/
def sinceCleared (net : Net) (s : ℕ) : List Event := since (.cleared s) net.log

/-- Messages of which one is waiting while a server takes part in an election. -/
def isElectionMsg : Msg → Bool
  | .startElection | .election _ | .newLeader _ | .waitForNeighborAck _
  | .checkIfNeighborAcked _ | .connectToServer => true
  | _ => false

/-- Nothing that concerns the election is in the mailbox of `s`, and no election datagram is under
    way. -/
def Settled (net : Net) (s : ℕ) : Prop :=
  (∀ m, net.Queued s m → isElectionMsg m = false) ∧
    ∀ d ∈ net.flight, ∀ e, d.body ≠ .msg e

/-- Something in the mailbox of `s` will find it a leader. -/
inductive Pursues (net : Net) (s : ℕ) : Prop
  | start (h : net.Queued s .startElection)
  | waiting {w : WaitForNeighborAck} (h : net.Queued s (.waitForNeighborAck w))
      (hsent : .sent s w.serializedMsg ∈ net.sinceCleared s)
  | checking {c : CheckIfNeighborAcked} (h : net.Queued s (.checkIfNeighborAcked c))
      (hsent : .sent s c.serializedMsg ∈ net.sinceCleared s)
  | elected {m : NewLeader} (h : net.Queued s (.newLeader m)) (hm : m.leaderId = s)
  | connecting (h : net.Queued s .connectToServer)

/-- Since it dropped its leader connection, `s` has left the matter to others: it gave up connecting
    to the leader they elected, or it stopped repeating a message it had sent them and has handled
    no `NewLeader`. -/
inductive LeftToOthers (net : Net) (s : ℕ) : Prop
  | gaveUp (h : .gaveUp s ∈ net.sinceCleared s)
  | acked {m : ElectionMsg} (hsent : .sent s m ∈ net.sinceCleared s)
      (hstopped : .stopped s m ∈ net.sinceCleared s)
      (hunheard : ∀ m, .heard s m ∉ net.sinceCleared s)

/-- Since it dropped its leader connection, `s` stopped repeating a message it had sent. -/
def Stopped (net : Net) (s : ℕ) : Prop :=
  ∃ m, .sent s m ∈ net.sinceCleared s ∧ .stopped s m ∈ net.sinceCleared s

/-- What a replica without a leader does until one is announced to it: it looks for one, gives up
    connecting to it, or has stopped repeating its message. -/
def Seeks (net : Net) (s : ℕ) : Prop :=
  net.Pursues s ∨ .gaveUp s ∈ net.sinceCleared s ∨ net.Stopped s

/-- What it does once one is announced to it, unless it is itself: it connects to it or has given
    up. -/
def Connects (net : Net) (s : ℕ) : Prop :=
  (∃ m, .heard s m ∈ net.sinceCleared s) →
    net.Queued s .connectToServer ∨ .gaveUp s ∈ net.sinceCleared s

/-- A replica that is not leader and has none does something about it. -/
def NoOrphans (net : Net) : Prop :=
  ∀ s srv, net.srv s = some srv → net.Joined s → srv.imLeader = false →
    srv.leaderConnection = none → net.Seeks s ∧ net.Connects s

/-! ## A server that handles no message -/

/-- What a step adds to the past of a server that handles no message. -/
theorem Step.sinceCleared_append (h : Step N net l net')
    (hrecv : ∀ o before m after effects, l = .recv s o →
      ¬ Handles N net net' s o before m after effects) {e : Event} (he : e ∈ net.sinceCleared s) :
    e ∈ net'.sinceCleared s := by
  obtain ⟨new, hlog, hnew⟩ := h.log_append
  unfold sinceCleared
  rw [hlog]
  refine mem_since_append he fun hin => ?_
  rcases hnew _ hin with ⟨s', o, before, m, after, effects, hl, hr, hrem⟩ | ⟨i, d, m, -, -, -, -, heq⟩ |
    ⟨s', -, heq⟩
  · cases hrem with
    | cleared => exact hrecv _ _ _ _ _ hl hr
  · simp at heq
  · simp at heq

/-- Nobody is told of a leader who handles no message. -/
theorem Step.heard_of (h : Step N net l net')
    (hrecv : ∀ o before m after effects, l = .recv s o →
      ¬ Handles N net net' s o before m after effects) {m : NewLeader}
    (he : .heard s m ∈ net'.sinceCleared s) : .heard s m ∈ net.sinceCleared s := by
  obtain ⟨new, hlog, hnew⟩ := h.log_append
  unfold sinceCleared at he
  rw [hlog] at he
  rcases mem_of_mem_since_append he with hin | hin
  · rcases hnew _ hin with ⟨s', o, before, m', after, effects, hl, hr, hrem⟩ |
      ⟨i, d, m', -, -, -, -, heq⟩ | ⟨s', -, heq⟩
    · cases hrem with
      | heard => exact absurd hr (hrecv _ _ _ _ _ hl)
    · simp at heq
    · simp at heq
  · exact hin

theorem Step.joined_of (h : Step N net l net')
    (hrecv : ∀ o before m after effects, l = .recv s o →
      ¬ Handles N net net' s o before m after effects) (hj : net'.Joined s) : net.Joined s := by
  obtain ⟨new, hlog, hnew⟩ := h.log_append
  unfold Joined at hj
  rw [hlog] at hj
  rcases mem_of_mem_since_append hj with hin | hin
  · rcases hnew _ hin with ⟨s', o, before, m, after, effects, hl, hr, hrem⟩ | ⟨i, d, m, -, -, -, -, heq⟩ |
      ⟨s', -, heq⟩
    · cases hrem with
      | joined => exact absurd hr (hrecv _ _ _ _ _ hl)
    · simp at heq
    · simp at heq
  · exact hin

/-- A replica that keeps its mailbox and its past keeps on looking for a leader. -/
theorem Pursues.mono (h : net.Pursues s) (hq : ∀ m, net.Queued s m → net'.Queued s m)
    (hlog : ∀ e ∈ net.sinceCleared s, e ∈ net'.sinceCleared s) : net'.Pursues s := by
  cases h with
  | start h => exact .start (hq _ h)
  | waiting h hsent => exact .waiting (hq _ h) (hlog _ hsent)
  | checking h hsent => exact .checking (hq _ h) (hlog _ hsent)
  | elected h hm => exact .elected (hq _ h) hm
  | connecting h => exact .connecting (hq _ h)

theorem Seeks.mono (h : net.Seeks s) (hq : ∀ m, net.Queued s m → net'.Queued s m)
    (hlog : ∀ e ∈ net.sinceCleared s, e ∈ net'.sinceCleared s) : net'.Seeks s := by
  rcases h with hp | hg | ⟨m, hsent, hstopped⟩
  · exact .inl (hp.mono hq hlog)
  · exact .inr (.inl (hlog _ hg))
  · exact .inr (.inr ⟨m, hlog _ hsent, hlog _ hstopped⟩)

/-! ## A server that handles a message -/

section Recv

variable {o : Oracle} {before after : Server} {m : Msg} {effects : List Effect}

theorem Handles.sent_sinceCleared (hr : Handles N net net' s o before m after effects) {q : ℕ}
    {e : ElectionMsg} (he : (q, e) ∈ datagrams effects) : .sent s e ∈ net'.sinceCleared s := by
  unfold sinceCleared
  rw [hr.log, List.append_assoc, List.append_assoc]
  refine mem_since_of_mem (List.mem_map.2 ⟨(q, e), he, rfl⟩) fun hin => ?_
  obtain ⟨d, -, hd⟩ := List.mem_map.1 hin
  simp at hd

/-- As long as the connection is not dropped, the past since it was dropped only grows. -/
theorem Handles.sinceCleared_append (hr : Handles N net net' s o before m after effects)
    (hkept : before.leaderConnection = none) {e : Event}
    (he : e ∈ handledEvents s o before m ∨ e ∈ net.sinceCleared s) : e ∈ net'.sinceCleared s := by
  have hnone : clearedEvents s before after = [] := by simp [clearedEvents, hkept]
  have hnew : .cleared s ∉ sentEvents s effects ++ clearedEvents s before after ++
      handledEvents s o before m := by
    intro hin
    cases remembered_of_mem hin with
    | cleared hbefore => exact hbefore hkept
  unfold sinceCleared
  rw [hr.log]
  rcases he with he | he
  · exact mem_since_of_mem (List.mem_append_right _ he) hnew
  · exact mem_since_append he hnew

theorem Handles.joined_of (hr : Handles N net net' s o before m after effects)
    (hj : net'.Joined s) : net.Joined s ∨ ∃ m', m = .setLeader m' := by
  unfold Joined at hj
  rw [hr.log] at hj
  rcases mem_of_mem_since_append hj with hin | hin
  · cases remembered_of_mem hin with
    | joined hm => exact .inr ⟨_, hm⟩
  · exact .inl hin

/-- A server that is called to declare itself leader. -/
theorem Handles.declared (hv : Valid N net)
    (hr : Handles N net net' s o before m after effects)
    (h : .newLeader before.selfDeclared ∈ selfMessages effects) : net'.Pursues s :=
  .elected (hr.self_queued h) (hv.ids s before hr.srvBefore).2.1

/-- A server that is told of a leader without having one becomes it or connects to it. -/
theorem Handles.connects_of_newLeader (hv : Valid N net) {msg : NewLeader}
    (hr : Handles N net net' s o before (.newLeader msg) after effects)
    (hnone : before.leaderConnection = none) :
    after.imLeader = true ∨ net'.Queued s .connectToServer := by
  have hid : before.id = s := (hv.ids s before hr.srvBefore).2.1
  have hh := hr.handled
  generalize hself : selfMessages effects = self at hh
  generalize datagrams effects = dgs at hh
  by_cases hleader : msg.leaderId = before.id
  · left
    cases hh with
    | quiet hm => simp [Msg.isQuiet] at hm
    | newLeaderOwn | newLeaderDeclare | newLeaderForward => simp [Server.follow, hleader]
  · right
    have hconnecting : .connectToServer ∈ before.connecting msg.leaderId := by
      rw [Server.connecting, if_pos ⟨hleader, hnone⟩]
      exact List.mem_singleton_self _
    refine hr.self_queued ?_
    rw [hself]
    cases hh with
    | quiet hm => simp [Msg.isQuiet] at hm
    | newLeaderOwn => exact hconnecting
    | newLeaderDeclare | newLeaderForward => exact List.mem_cons_of_mem _ hconnecting

/-- A server that handles its `ConnectToServer` is connected or has given up. -/
theorem Handles.gaveUp_of_connectToServer
    (hr : Handles N net net' s o before .connectToServer after effects)
    (hnone : before.leaderConnection = none) :
    after.leaderConnection ≠ none ∨ .gaveUp s ∈ net'.sinceCleared s := by
  have hh := hr.handled
  generalize selfMessages effects = self at hh
  generalize datagrams effects = dgs at hh
  cases hh with
  | quiet hm => simp [Msg.isQuiet] at hm
  | connectFailed ho =>
      exact .inr (hr.sinceCleared_append hnone (.inl (by simp [handledEvents, ho])))
  | connected => exact .inl (by simp)

/-- **A replica to which a leader is announced connects to it**, or gives up. -/
theorem Handles.connects (hv : Valid N net) (hr : Handles N net net' s o before m after effects)
    (hnone : before.leaderConnection = none) (him : after.imLeader = false)
    (hafter : after.leaderConnection = none) (h : net.Connects s) : net'.Connects s := by
  rintro ⟨msg, hheard⟩
  by_cases hm : ∃ msg', m = .newLeader msg'
  · obtain ⟨msg', rfl⟩ := hm
    rcases hr.connects_of_newLeader hv hnone with hleader | hq
    · exact absurd (hleader.symm.trans him) (by simp)
    · exact .inl hq
  · -- the announcement was handled before
    have hold : .heard s msg ∈ net.sinceCleared s := by
      unfold sinceCleared at hheard
      rw [hr.log] at hheard
      rcases mem_of_mem_since_append hheard with hin | hin
      · cases remembered_of_mem hin with
        | heard heq => exact absurd ⟨_, heq⟩ hm
      · exact hin
    rcases h ⟨msg, hold⟩ with hq | hg
    · by_cases heq : m = .connectToServer
      · subst heq
        exact (hr.gaveUp_of_connectToServer hnone).elim (absurd hafter) .inr
      · exact .inl (hr.still_queued hq (Ne.symm heq))
    · exact .inr (hr.sinceCleared_append hnone (.inr hg))

/-- **A replica without a leader goes on looking for one**, becomes leader, is connected, gives up
    or stops repeating its message. -/
theorem Handles.pursues (hv : Valid N net)
    (hr : Handles N net net' s o before m after effects)
    (hnone : before.leaderConnection = none) (him : after.imLeader = false)
    (hafter : after.leaderConnection = none) (h : net.Pursues s) : net'.Seeks s := by
  have hid : before.id = s := (hv.ids s before hr.srvBefore).2.1
  have hold : ∀ {e}, e ∈ net.sinceCleared s → e ∈ net'.sinceCleared s := fun he =>
    hr.sinceCleared_append hnone (.inr he)
  have hh := hr.handled
  generalize hself : selfMessages effects = self at hh
  generalize hdg : datagrams effects = dgs at hh
  cases h with
  | start hq =>
      by_cases hm : m = .startElection
      · have hudp : before.udpSender = true :=
          hv.udp_of_queued hr.srvBefore hq rfl (by simp)
        subst hm
        cases hh with
        | quiet hm => simp [Msg.isQuiet] at hm
        | startDeclare => exact .inl (hr.declared hv (hself ▸ List.mem_cons_self))
        | startSend q =>
            rw [if_pos hudp] at hdg
            refine .inl (.waiting (hr.self_queued (hself ▸ List.mem_cons_self)) ?_)
            exact hr.sent_sinceCleared (hdg ▸ List.mem_cons_self)
      · exact .inl (.start (hr.still_queued hq (Ne.symm hm)))
  | @waiting w hq hsent =>
      by_cases hm : m = .waitForNeighborAck w
      · subst hm
        cases hh with
        | quiet hm => simp [Msg.isQuiet] at hm
        | wait =>
            exact .inl (.checking (hr.self_queued (hself ▸ List.mem_cons_self)) (hold hsent))
      · exact .inl (.waiting (hr.still_queued hq (Ne.symm hm)) (hold hsent))
  | @checking c hq hsent =>
      by_cases hm : m = .checkIfNeighborAcked c
      · subst hm
        cases hh with
        | quiet hm => simp [Msg.isQuiet] at hm
        | checkAcked _ hc =>
            refine .inr (.inr ⟨_, hold hsent, ?_⟩)
            exact hr.sinceCleared_append hnone (.inl (by simp [handledEvents, hc]))
        | checkDeclare => exact .inl (hr.declared hv (hself ▸ List.mem_cons_self))
        | checkResend =>
            exact .inl (.waiting (hr.self_queued (hself ▸ List.mem_cons_self)) (hold hsent))
      · exact .inl (.checking (hr.still_queued hq (Ne.symm hm)) (hold hsent))
  | @elected msg hq hmsg =>
      by_cases hm : m = .newLeader msg
      · subst hm
        -- the server becomes leader
        cases hh with
        | quiet hm => simp [Msg.isQuiet] at hm
        | newLeaderOwn | newLeaderDeclare | newLeaderForward =>
            simp [Server.follow, hmsg, hid] at him
      · exact .inl (.elected (hr.still_queued hq (Ne.symm hm)) hmsg)
  | connecting hq =>
      by_cases hm : m = .connectToServer
      · subst hm
        exact .inr (.inl ((hr.gaveUp_of_connectToServer hnone).resolve_left (absurd hafter)))
      · exact .inl (.connecting (hr.still_queued hq (Ne.symm hm)))

/-- The connection to the leader is dropped: with it the search for a leader begins, and no leader
    has been announced. -/
theorem Handles.seeks_of_dropped (hv : Valid N net)
    (hr : Handles N net net' s o before m after effects) (hsome : before.leaderConnection ≠ none)
    (hafter : after.leaderConnection = none) : net'.Seeks s ∧ net'.Connects s := by
  constructor
  · left
    rcases hr.handled.dropped hsome hafter with hse | hdecl | ⟨msg, q, hw, hd⟩
    · exact .start (hr.self_queued hse)
    · exact hr.declared hv hdecl
    · cases msg with
      | election e => exact .waiting (hr.self_queued hw) (hr.sent_sinceCleared hd)
      | newLeader e => exact .waiting (hr.self_queued hw) (hr.sent_sinceCleared hd)
  · rintro ⟨msg, hheard⟩
    have hcleared : clearedEvents s before after = [.cleared s] := by
      rw [clearedEvents, if_pos]
      simp [Option.isSome_iff_ne_none.2 hsome, hafter]
    unfold sinceCleared at hheard
    rw [hr.log, hcleared, List.append_assoc, List.append_assoc] at hheard
    rcases mem_of_mem_since_append hheard with hin | hin
    · obtain ⟨d, -, hd⟩ := List.mem_map.1 hin
      cases hd
    · rw [List.singleton_append, since_cons_self] at hin
      cases hin

/-- A replica that handles a message and is then neither leader nor connected does something about
    it. -/
theorem Handles.noOrphan (hv : Valid N net) (h : NoOrphans net)
    (hr : Handles N net net' s o before m after effects) (hj : net'.Joined s)
    (him : after.imLeader = false) (hafter : after.leaderConnection = none) :
    net'.Seeks s ∧ net'.Connects s := by
  rcases hr.joined_of hj with hj | ⟨m', rfl⟩
  · by_cases hnone : before.leaderConnection = none
    · have himBefore : before.imLeader = false := by
        cases hleader : before.imLeader with
        | false => rfl
        | true => exact absurd ((hr.handled.imLeader hleader).symm.trans him) (by simp)
      obtain ⟨hseeks, hconnects⟩ := h s before hr.srvBefore hj himBefore hnone
      refine ⟨?_, hr.connects hv hnone him hafter hconnects⟩
      rcases hseeks with hp | hg | ⟨msg, hsent, hstopped⟩
      · exact hr.pursues hv hnone him hafter hp
      · exact .inr (.inl (hr.sinceCleared_append hnone (.inr hg)))
      · exact .inr (.inr ⟨msg, hr.sinceCleared_append hnone (.inr hsent),
          hr.sinceCleared_append hnone (.inr hstopped)⟩)
    · exact hr.seeks_of_dropped hv hnone hafter
  · have hh := hr.handled
    generalize selfMessages effects = self at hh
    generalize datagrams effects = dgs at hh
    cases hh with
    | quiet hm => simp [Msg.isQuiet] at hm
    | setLeader => simp at hafter

end Recv

/-! ## In every run -/

theorem noOrphans_start (i : ℕ) : NoOrphans (start N i) := by
  intro s srv _ hj
  simp [Joined, start, since] at hj

theorem noOrphans_step (hv : Valid N net) (h : NoOrphans net) (hstep : net.step N l = some net') :
    NoOrphans net' := by
  have hst := step_cases hstep
  intro s t ht hj him hlc
  by_cases hrecv : ∃ o before m after effects,
      l = .recv s o ∧ Handles N net net' s o before m after effects
  · obtain ⟨o, before, m, after, effects, -, hr⟩ := hrecv
    obtain rfl := Option.some.inj (hr.srvAfter.symm.trans ht)
    exact hr.noOrphan hv h hj him hlc
  · have hno : ∀ o before m after effects, l = .recv s o →
        ¬ Handles N net net' s o before m after effects :=
      fun o before m after effects hl hr => hrecv ⟨o, before, m, after, effects, hl, hr⟩
    rcases hst.srv_cases ht with hs | ⟨o, before, m, effects, hl, hr⟩ | ⟨rfl, -, -, -⟩
    · have hlog := fun (e : Event) he => hst.sinceCleared_append (s := s) hno (e := e) he
      have hq : ∀ m, net.Queued s m → net'.Queued s m := by
        intro m hm
        rcases hst.mailbox_cases s with hbox | ⟨-, hdead | ⟨-, hdead⟩⟩ | ⟨x, -, hbox⟩ |
          ⟨o, before, m', after, effects, hl, hr⟩
        · rw [Queued, hbox]
          exact hm
        · simp [hdead] at ht
        · simp [hdead] at hs
        · rw [Queued, hbox]
          exact List.mem_append_left _ hm
        · exact absurd hr (hno _ _ _ _ _ hl)
      obtain ⟨hseeks, hconnects⟩ := h s t hs (hst.joined_of hno hj) him hlc
      refine ⟨hseeks.mono hq hlog, ?_⟩
      rintro ⟨m, hheard⟩
      exact (hconnects ⟨m, hst.heard_of hno hheard⟩).imp (hq _) (hlog _)
    · exact absurd hr (hno _ _ _ _ _ hl)
    · -- a replica that has just been started has not joined yet
      cases hst with
      | boot => simp [Joined, Net.boot, since] at hj

theorem noOrphans_run {ok : Net → Label → Prop} {i : ℕ} {ls : List Label} (hi : i ∈ ring N)
    (h : Run (step N) ok (start N i) ls net) : NoOrphans net :=
  (h.invariant (P := fun net => Valid N net ∧ NoOrphans net)
    (fun _ _ _ hvo _ hst => ⟨valid_step hvo.1 hst, noOrphans_step hvo.1 hvo.2 hst⟩)
    ⟨valid_start hi, noOrphans_start i⟩).2

/-- Nobody looks for a leader when nothing of an election is left. -/
theorem Settled.not_pursues (h : net.Settled s) : ¬ net.Pursues s := by
  intro hp
  cases hp with
  | start hq => exact absurd (h.1 _ hq) (by simp [isElectionMsg])
  | waiting hq => exact absurd (h.1 _ hq) (by simp [isElectionMsg])
  | checking hq => exact absurd (h.1 _ hq) (by simp [isElectionMsg])
  | elected hq => exact absurd (h.1 _ hq) (by simp [isElectionMsg])
  | connecting hq => exact absurd (h.1 _ hq) (by simp [isElectionMsg])

/-- **No orphaned replica.** Once nothing of an election is left in its mailbox and on its way, a
    replica is leader, or has one, or has left the matter to others: it could not connect to the new
    leader, or the others have its message and it has not heard of a new leader. -/
theorem no_orphaned_replica {i : ℕ} {ls : List Label} (hi : i ∈ ring N)
    (h : Run (step N) (fun _ _ => True) (start N i) ls net) {srv : Server}
    (hs : net.srv s = some srv) (hj : net.Joined s) (hset : net.Settled s) :
    srv.imLeader = true ∨ srv.leaderConnection ≠ none ∨ net.LeftToOthers s := by
  cases him : srv.imLeader with
  | true => exact .inl rfl
  | false =>
      refine .inr (Classical.or_iff_not_imp_left.2 fun hlc => ?_)
      obtain ⟨hseeks, hconnects⟩ := noOrphans_run hi h s srv hs hj him (not_not.1 hlc)
      rcases hseeks with hp | hg | ⟨m, hsent, hstopped⟩
      · exact absurd hp hset.not_pursues
      · exact .gaveUp hg
      · by_cases hheard : ∃ m, .heard s m ∈ net.sinceCleared s
        · rcases hconnects hheard with hq | hg
          · exact absurd (.connecting hq) hset.not_pursues
          · exact .gaveUp hg
        · exact .acked hsent hstopped fun m hm => hheard ⟨m, hm⟩

/-- Replica `s` has joined, is not leader and has none, and nothing is left to handle. -/
def stranded (s : ℕ) (net : Net) : Bool :=
  (net.srv s).any (fun srv => !srv.imLeader && srv.leaderConnection.isNone) &&
    decide (.joined s ∈ since (.booted s) net.log) && (net.mailbox s).isEmpty &&
    net.flight.isEmpty

theorem of_stranded (h : stranded s net = true) :
    ∃ srv, net.srv s = some srv ∧ net.Joined s ∧ net.Settled s ∧ srv.imLeader = false ∧
      srv.leaderConnection = none := by
  simp only [stranded, Bool.and_eq_true, Option.any_eq_true, Bool.not_eq_true', decide_eq_true_eq,
    List.isEmpty_iff, Option.isNone_iff_eq_none] at h
  obtain ⟨⟨⟨⟨srv, hs, him, hlc⟩, hj⟩, hbox⟩, hflight⟩ := h
  refine ⟨srv, hs, hj, ⟨fun m hm => ?_, fun d hd => ?_⟩, him, hlc⟩
  · simp [Queued, hbox] at hm
  · simp [hflight] at hd

/-- Server 2 calls an election, and server 3 crashes when it has acknowledged the message. -/
def goneNeighbor : List Label :=
  [.boot 2, .boot 3, .dial 2, .dial 3, .recv 2 .up, .recv 3 .up, .crash 1, .post 2 .ping,
    .recv 2 .down, .recv 2 .up, .deliver 0, .crash 3, .deliver 0,
    .recv 2 .up, .recv 2 .up, .recv 2 .up]

theorem no_orphaned_replica_goneNeighbor : ∃ net : Net, stranded 2 net = true ∧
    .gaveUp 2 ∉ net.log ∧ net.LeftToOthers 2 := by
  obtain ⟨net, hrun, hst⟩ := exists_run_of_exec (fun _ _ => true) (start 3 1) goneNeighbor
    (fun net => stranded 2 net && decide (.gaveUp 2 ∉ net.log))
    (show (exec (step 3) _ _ _).any _ = true by decide +kernel)
  rw [Bool.and_eq_true, decide_eq_true_eq] at hst
  obtain ⟨srv, hs, hj, hset, him, hlc⟩ := of_stranded hst.1
  rcases no_orphaned_replica (by decide) (hrun.mono fun _ _ _ => trivial) hs hj hset with h | h | h
  · simp [him] at h
  · exact absurd hlc h
  · exact ⟨net, hst.1, hst.2, h⟩

/-- Server 2 calls an election that server 3 wins, hears of it, and finds server 3 gone. -/
def goneLeader : List Label :=
  [.boot 2, .boot 3, .dial 2, .dial 3, .recv 2 .up, .recv 3 .up, .crash 1, .post 2 .ping,
    .recv 2 .down, .recv 2 .up,
    .deliver 0, .recv 3 .up, .deliver 1, .deliver 0, .recv 2 .up, .recv 2 .up, .deliver 0,
    .recv 3 .up, .recv 3 .up, .deliver 0, .recv 3 .up, .recv 3 .up, .deliver 0,
    .recv 2 .up, .recv 2 .up, .deliver 0, .deliver 0, .crash 3,
    .recv 2 .up, .recv 2 .up, .recv 2 .up, .recv 2 .up, .recv 2 .up]

theorem not_no_orphaned_replica : ¬ ∀ (N i : ℕ) (ls : List Label) (net : Net) (s : ℕ)
    (srv : Server), i ∈ ring N → Run (step N) (fun _ _ => True) (start N i) ls net →
    net.srv s = some srv → net.Joined s → net.Settled s →
    srv.imLeader = true ∨ srv.leaderConnection ≠ none := by
  intro h
  obtain ⟨net, hrun, hst⟩ := exists_run_of_exec (fun _ _ => true) (start 3 1) goneLeader
    (stranded 2) (show (exec (step 3) _ _ _).any _ = true by decide +kernel)
  obtain ⟨srv, hs, hj, hset, him, hlc⟩ := of_stranded hst
  rcases h 3 1 _ net 2 srv (by decide) (hrun.mono fun _ _ _ => trivial) hs hj hset with h | h
  · simp [him] at h
  · exact h hlc

end ConcuRide.Net
