import ConcuRide.Network.Round

set_option autoImplicit false

/-! # The steps of an election

What a server does with a message during an election (`Round.Turn`), and that every step preserves
`Round.Holds`. -/

namespace ConcuRide.Round

open Net

variable {R : Round} {net net' : Net} {l : Label} {s k q : ℕ} {o : Oracle}
  {before after : Server} {m : Msg} {effects : List Effect}

/-! ## What lasts when a message is handled -/

/-- A message for a live server is acknowledged before the server asks. -/
theorem acked_of_timely (hr : Handles R.N net net' s o before m after effects)
    (htimely : net.timely (.recv s o) = true) {c : CheckIfNeighborAcked}
    (hm : m = .checkIfNeighborAcked c) (hway : net.onItsWay s c = true) :
    c.sequenceNumber ∈ before.messageReceivedAck := by
  subst hm
  obtain ⟨rest, hbox, -⟩ := hr.mailbox
  simpa [timely, hbox, hway, hr.srvBefore] using htimely

theorem Holds.spares (h : R.Holds net) (hr : Handles R.N net net' s o before m after effects)
    (htimely : net.timely (.recv s o) = true) : R.Spares before m where
  start := fun hm => by
    subst hm
    rw [h.starts s before hr.srvBefore hr.queued]
    exact R.gone
  check := fun c hm hc hin => by
    have hway : R.Awaits net s c := by
      subst hm
      exact h.queued s _ hr.queued
    exact hc (acked_of_timely hr htimely hm (hway.live hin))
  election := fun e hm => by
    subst hm
    have hin : R.Incoming net s e := h.queued s _ hr.queued
    exact hin.leader ▸ R.gone
  state := fun state hm => by
    subst hm
    exact h.queued s _ hr.queued

theorem isUp_handles (hr : Handles R.N net net' s o before m after effects) {x session : ℕ}
    (hx : net.isUp x session = true) : net'.isUp x session = true := by
  simp only [isUp, Bool.and_eq_true, hr.boots] at hx ⊢
  exact ⟨(hr.live_eq x).2 hx.1, hx.2⟩

theorem released_handles (hr : Handles R.N net net' s o before m after effects)
    (hm : ∀ m', m ≠ .setLeader m') (hx : Released net k) : Released net' k := by
  obtain ⟨srv, hsrv, hup⟩ := hx
  by_cases hks : k = s
  swap
  · exact ⟨srv, (hr.others k hks).1.trans hsrv, fun c hc => isUp_handles hr (hup c hc)⟩
  subst hks
  obtain rfl := Option.some.inj (hsrv.symm.trans hr.srvBefore)
  refine ⟨after, hr.srvAfter, fun c hc => isUp_handles hr ?_⟩
  have hh := hr.handled
  generalize selfMessages effects = self at hh
  generalize datagrams effects = dgs at hh
  cases hh with
  | quiet _ hsame => exact hup c (hsame.leaderConnection ▸ hc)
  | setLeader m => exact absurd rfl (hm m)
  | pingLost => simp at hc
  | electionDeclare | electionFinish | electionForward =>
      simp only [Server.markDisconnected] at hc
      split at hc
      · simp at hc
      · exact hup c hc
  | connected c' ho =>
      obtain rfl := Option.some.inj hc
      have hans := hr.answers
      simp only [answers, ho, Option.all_some, Bool.and_eq_true, decide_eq_true_eq] at hans
      obtain ⟨t, ht, -⟩ := listening_iff.1 hans.2
      simp [isUp, hans.1, live_iff.2 ⟨t, ht⟩]
  | _ => exact hup c hc

/-- A server whose connection is up, or gone, starts no election. -/
theorem not_starts_of_released (hr : Handles R.N net net' s o before m after effects)
    (hx : Released net s) : .startElection ∉ selfMessages effects := by
  intro hself
  obtain ⟨srv, hsrv, hup⟩ := hx
  obtain rfl := Option.some.inj (hsrv.symm.trans hr.srvBefore)
  have hh := hr.handled
  generalize selfMessages effects = self at hh hself
  generalize datagrams effects = dgs at hh
  cases hh with
  | quiet _ _ _ hquiet => exact absurd (hquiet _ hself) (by simp [Msg.isQuiet])
  | pingLost c hc him ho =>
      have hans := hr.answers
      simp [answers, ho, hc, hup c hc] at hans
  | newLeaderOwn => exact absurd (Server.mem_connecting hself) (by simp)
  | newLeaderDeclare | newLeaderForward =>
      rcases List.mem_cons.1 hself with hself | hself
      · simp [Server.waiting] at hself
      · exact absurd (Server.mem_connecting hself) (by simp)
  | _ => simp [Server.waiting] at hself

theorem onItsWay_mono (hboots : net'.boots = net.boots) {c : CheckIfNeighborAcked}
    (hflight : ∀ d ∈ net.flight, d = ⟨s, net.boots s, c.neighborId, .msg c.serializedMsg⟩ →
      d ∈ net'.flight ∨ .delivered s (net.boots s) c.neighborId c.serializedMsg ∈ net'.log)
    (hlog : ∀ e ∈ net.log, e ∈ net'.log) (h : net.onItsWay s c = true) :
    net'.onItsWay s c = true := by
  simp only [onItsWay, Bool.or_eq_true, List.any_eq_true, decide_eq_true_eq, hboots] at h ⊢
  rcases h with ⟨d, hd, hdeq⟩ | ⟨e, he, heq⟩
  · rcases hflight d hd hdeq with hd' | hdel
    · exact .inl ⟨d, hd', hdeq⟩
    · exact .inr ⟨_, hdel, rfl⟩
  · exact .inr ⟨e, hlog e he, heq⟩

theorem Holds.later_handles (h : R.Holds net)
    (hr : Handles R.N net net' s o before m after effects)
    (htimely : net.timely (.recv s o) = true) : R.Later net net' where
  released := fun x hx => by
    refine released_handles hr (fun m' hm => ?_) hx
    subst hm
    exact h.queued s _ hr.queued
  begun := fun x hx => by
    refine ⟨released_handles hr (fun m' hm => ?_) hx.1, fun hq => ?_⟩
    · subst hm
      exact h.queued s _ hr.queued
    · rcases hr.queued_cases hq with hq | ⟨rfl, hself⟩
      · exact hx.2 hq
      · exact not_starts_of_released hr hx.1 hself
  linked := fun x hx => by
    obtain ⟨srv, hsrv, hin⟩ := hx
    by_cases hxs : x = s
    · subst hxs
      obtain rfl := Option.some.inj (hsrv.symm.trans hr.srvBefore)
      have hkeep := ((h.members x _ hr.srvBefore).looks.handled hr.handled
        (h.spares hr htimely)).2 hin
      exact ⟨after, hr.srvAfter, hkeep ▸ hin⟩
    · exact ⟨srv, (hr.others x hxs).1.trans hsrv, hin⟩
  onItsWay := fun x c hway => by
    refine onItsWay_mono hr.boots (fun d hd _ => .inl ?_) (fun e he => ?_) hway
    · rw [hr.flight]
      exact List.mem_append_left _ hd
    · rw [hr.log]
      exact List.mem_append_right _ he

/-! ## What a server does with a message -/

/-- Two states that agree on the leader. -/
def SameLeader (s t : Server) : Prop := t.idLeader = s.idLeader ∧ t.imLeader = s.imLeader

/-- **What a server does during the election** with the message it handles: its state before and
    after, what it sends to its own mailbox and the datagrams it sends. -/
inductive Turn (R : Round) (net net' : Net) (s : ℕ) (before after : Server) :
    Msg → List Msg → List (ℕ × ElectionMsg) → Prop
  | idle {m : Msg} {self : List Msg} (hm : m.electionMsg = none) (hstart : m ≠ .startElection)
      (hsame : SameLeader before after)
      (hself : ∀ x ∈ self, x.electionMsg = none ∧ x ≠ .startElection ∧ R.Expected net' s x) :
      Turn R net net' s before after m self []
  | lose (hnew : ¬ Released net s) (hreleased : Released net' s) (hsame : SameLeader before after)
      (hleader : before.idLeader = R.l) :
      Turn R net net' s before after .ping [.startElection] []
  | declare {m : Msg} {n : NewLeader}
      (hm : m = .startElection ∨ ∃ c, m = .checkIfNeighborAcked c ∧ c.neighborId ∉ R.L)
      (hsame : SameLeader before after) (halone : ∀ x ∈ R.L, x = s) (hsender : n.idSender = s)
      (hn : R.Announces net' n) : Turn R net net' s before after m [.newLeader n] []
  | send {m : Msg} {e : Election} {q : ℕ} (hm : m = .startElection ∨ ∃ e', m = .election e')
      (hsame : SameLeader before after) (hheld : R.Held net' s e) (haims : R.Aims s q)
      (hfree : q ∉ before.disconnectedServers ++ [R.l])
      (hptr : after.actualNeighborId = q) (hseq : e.sequenceNumber = before.sequenceNumber)
      (hlt : before.sequenceNumber < after.sequenceNumber) :
      Turn R net net' s before after m [Server.waiting (.election e) q] [(q, .election e)]
  | wait (w : WaitForNeighborAck) (hsame : after = before) :
      Turn R net net' s before after (.waitForNeighborAck w)
        [.checkIfNeighborAcked
          { neighborId := w.neighborId
            serializedMsg := w.serializedMsg
            sequenceNumber := w.sequenceNumber }] []
  | stop (c : CheckIfNeighborAcked) (hc : c.sequenceNumber ∈ before.messageReceivedAck)
      (hsame : SameLeader before after) :
      Turn R net net' s before after (.checkIfNeighborAcked c) [] []
  | resend {c : CheckIfNeighborAcked} {e : Election} {q : ℕ} (hdead : c.neighborId ∉ R.L)
      (he : c.serializedMsg = .election e) (hsame : SameLeader before after)
      (hheld : R.Held net' s e) (haims : R.Aims s q) (hptr : after.actualNeighborId = q) :
      Turn R net net' s before after (.checkIfNeighborAcked c)
        [.waitForNeighborAck
          { serializedMsg := c.serializedMsg
            neighborId := q
            sequenceNumber := c.sequenceNumber }] [(q, c.serializedMsg)]
  | finish {e : Election} {n : NewLeader} {q : ℕ} (hbegun : Begun net s)
      (hn : R.Announces net' n) (hsender : n.idSender = s) (hq : q ∈ R.L) (hnear : R.Near s q)
      (hleader : after.idLeader = R.greatest) (him : after.imLeader = before.imLeader) :
      Turn R net net' s before after (.election e) [Server.waiting (.newLeader n) q]
        [(q, .newLeader n)]
  | own {n : NewLeader} {conn : List Msg} (hconn : ∀ x ∈ conn, x = .connectToServer)
      (hn : R.Announces net' n) (hsender : n.idSender = s) (hleader : after.idLeader = R.greatest)
      (him : after.imLeader = (before.imLeader || decide (R.greatest = s))) :
      Turn R net net' s before after (.newLeader n) conn []
  | pass {n : NewLeader} {q : ℕ} {conn : List Msg} (hconn : ∀ x ∈ conn, x = .connectToServer)
      (hn : R.Announces net' n) (hsender : n.idSender ≠ s) (hq : q ∈ R.L) (hnear : R.Near s q)
      (hleader : after.idLeader = R.greatest)
      (him : after.imLeader = (before.imLeader || decide (R.greatest = s))) :
      Turn R net net' s before after (.newLeader n) (Server.waiting (.newLeader n) q :: conn)
        [(q, .newLeader n)]

section Turn

variable (h : R.Holds net) (hr : Handles R.N net net' s o before m after effects)
include h hr

/-- A server that handles its `StartElection` will start no other. -/
theorem Holds.begun (hm : m = .startElection) (hself : .startElection ∉ selfMessages effects)
    (hlater : R.Later net net') : Begun net' s := by
  subst hm
  refine ⟨hlater.released s (h.queued s _ hr.queued), fun hq => ?_⟩
  obtain ⟨rest, hbox, hbox'⟩ := hr.mailbox
  rw [Queued, hbox'] at hq
  rcases List.mem_append.1 hq with hq | hq
  · have horder := h.order s
    rw [hbox, List.pairwise_cons] at horder
    exact horder.1 _ hq rfl rfl
  · exact hself hq

/-- The only live server declares itself leader. -/
theorem Holds.announces_alone (halone : ∀ x ∈ R.L, x = s) (hreleased : Released net' s) :
    R.Announces net' before.selfDeclared where
  leader := by
    rw [halone _ R.greatest_mem]
    exact (h.members s before hr.srvBefore).looks.id
  sender := by
    have hlooks := (h.members s before hr.srvBefore).looks
    have hid : before.selfDeclared.idSender = s := hlooks.id
    exact hid ▸ hlooks.mem
  closed := ⟨fun x hx => halone x hx ▸ hreleased,
    .inr fun x hx y hy => (halone x hx).trans (halone y hy).symm⟩

/-- A server that has handled an election has dropped the crashed leader. -/
theorem Holds.released_election {e : Election} (hm : m = .election e)
    (hlc : after.leaderConnection =
      (before.markDisconnected e.disconnectedLeaderId).leaderConnection)
    (hlater : R.Later net net') : Released net' s := by
  subst hm
  have hin : R.Incoming net s e := h.queued s _ hr.queued
  have hmember := h.members s before hr.srvBefore
  rcases hmember.idLeader with hl | ⟨-, hclosed⟩
  · refine ⟨after, hr.srvAfter, fun c hc => ?_⟩
    rw [hlc, Server.markDisconnected, hin.leader, hl] at hc
    simp at hc
  · exact hlater.released s (hclosed.released s hmember.looks.mem)

/-- **What a server can do during the election.** -/
theorem Holds.turn (htimely : net.timely (.recv s o) = true) :
    R.Turn net net' s before after m (selfMessages effects) (datagrams effects) := by
  have hlater := h.later_handles hr htimely
  have hspares := h.spares hr htimely
  obtain ⟨hlooks, hudp, hleader, -⟩ := h.members s before hr.srvBefore
  have hexpected : R.Expected net s m := h.queued s m hr.queued
  have hself : ∀ x ∈ selfMessages effects, ∀ state, x ≠ .updateNetworkState state :=
    fun x hx => (Server.isRegistry_of_self hr.result hx).2
  have hans := hr.answers
  have hqueued := hr.queued
  have hafter := hr.srvAfter
  have hdeclared := h.announces_alone hr
  have hbegun := fun hm hself => h.begun hr hm hself hlater
  have hreleased := fun {e} hm hlc => h.released_election hr (e := e) hm hlc hlater
  -- of two neighbours, a live one is the one a linked server has
  have hlink : R.Linked net s → before.actualNeighborId ∈ R.L := by
    rintro ⟨srv, hsrv, hin⟩
    obtain rfl := Option.some.inj (hsrv.symm.trans hr.srvBefore)
    exact hin
  have hh := hr.handled
  generalize selfMessages effects = self at hh hself hbegun ⊢
  generalize datagrams effects = dgs at hh ⊢
  cases hh with
  | quiet hm hsame _ hquiet =>
      refine .idle (Msg.electionMsg_quiet hm) ?_ ⟨hsame.idLeader, hsame.imLeader⟩ fun x hx => ?_
      · rintro rfl
        simp [Msg.isQuiet] at hm
      · refine ⟨Msg.electionMsg_quiet (hquiet x hx), ?_,
          expected_of_quiet (hquiet x hx) (hself x hx)⟩
        rintro rfl
        simpa [Msg.isQuiet] using hquiet _ hx
  | setLeader => exact hexpected.elim
  | pingIdle => exact .idle rfl (by simp) ⟨rfl, rfl⟩ (by simp)
  | pingLost c hc him ho =>
      have hnew : ¬ Released net s := by
        rintro ⟨srv, hsrv, hup⟩
        obtain rfl := Option.some.inj (hsrv.symm.trans hr.srvBefore)
        simp [answers, ho, hc, hup c hc] at hans
      refine .lose hnew ⟨_, hafter, by simp⟩ ⟨rfl, rfl⟩ ?_
      exact hleader.resolve_right fun hclosed => hnew (hclosed.2.released s hlooks.mem)
  | startDeclare q hq =>
      obtain ⟨-, -, halone⟩ := (hlooks.suspect (hspares.start rfl)).notFound hq
      exact .declare (.inl rfl) ⟨rfl, rfl⟩ halone hlooks.id
        (hdeclared halone (hlater.released s hexpected))
  | startSend q hq =>
      have hl := h.starts s before hr.srvBefore hqueued
      obtain ⟨haims, -⟩ := (hlooks.suspect (hspares.start rfl)).found hq
      have hheld : R.Held net' s before.firstElection := by
        refine ⟨hl, ⟨s, hlooks.mem, hbegun rfl (by simp [Server.waiting]), ?_⟩, fun x hx => ?_⟩
        · rw [Server.firstElection, hlooks.id]
          exact Gathered.start hlooks.mem
        · obtain rfl : x = s := (List.mem_singleton.1 hx).trans hlooks.id
          exact ⟨hlater.released x hexpected, fun hne => absurd rfl hne⟩
      have hfree := Server.nextNeighbor_notMem hq
      rw [hl] at hfree
      rw [if_pos hudp]
      exact .send (.inl rfl) ⟨rfl, rfl⟩ hheld haims hfree rfl rfl (by simp)
  | wait w => exact .wait w rfl
  | checkAcked c hc => exact .stop c hc ⟨rfl, rfl⟩
  | checkDeclare c hc q hq =>
      have hdead := hspares.check c rfl hc
      obtain ⟨-, -, halone⟩ := (hlooks.suspect hdead).notFound hq
      obtain ⟨e, -, hheld⟩ := hexpected.dead hdead
      refine .declare (.inr ⟨c, rfl, hdead⟩) ⟨rfl, rfl⟩ halone hlooks.id
        (hdeclared halone ?_)
      obtain ⟨a, ha, ⟨hbegun, -⟩, -⟩ := hheld.lap
      exact hlater.released s (halone a ha ▸ hbegun)
  | checkResend c hc q hq =>
      have hdead := hspares.check c rfl hc
      obtain ⟨haims, -⟩ := (hlooks.suspect hdead).found hq
      obtain ⟨e, he, hheld⟩ := hexpected.dead hdead
      rw [if_pos hudp]
      exact .resend hdead he ⟨rfl, rfl⟩ (hheld.later hlater) haims rfl
  | electionDeclare e q hq =>
      obtain ⟨-, hptr, halone⟩ := (hlooks.markDisconnected (hspares.election e rfl)).notFound hq
      exact absurd (hlink (Incoming.linked_of_alone hexpected halone)) hptr
  | electionFinish e hin _ q hq =>
      rw [hlooks.id] at hin
      obtain ⟨hback, hall, hclosed, hlinked⟩ := Incoming.complete hexpected hin
      obtain ⟨haims, hkeep⟩ := (hlooks.markDisconnected (hspares.election e rfl)).found hq
      obtain rfl := hkeep (hlink hlinked)
      refine .finish hback ⟨greatestId_eq hall, ?_, hclosed.later hlater⟩ hlooks.id
        (hlink hlinked) (haims.near (hlink hlinked)) (greatestId_eq hall) rfl
      exact (show (before.announcement e).idSender = s from hlooks.id) ▸ hlooks.mem
  | electionForward e hnew _ q hq =>
      rw [hlooks.id] at hnew
      have hincoming : R.Incoming net s e := hexpected
      obtain ⟨haims, -⟩ := (hlooks.markDisconnected (hspares.election e rfl)).found hq
      have hheld : R.Held net' s (before.nextElection e) := by
        rw [Server.nextElection, hlooks.id]
        exact (hincoming.later hlater).join hlooks.mem hnew (hreleased rfl rfl) _
      have hfree := Server.nextNeighbor_notMem hq
      rw [hincoming.leader] at hfree
      exact .send (.inr ⟨e, rfl⟩) ⟨rfl, rfl⟩ hheld haims hfree rfl rfl (by simp)
  | newLeaderOwn n hown =>
      have hn : R.Announces net n := hexpected
      rw [hlooks.id] at hown
      exact .own (fun x hx => Server.mem_connecting hx) (hn.later hlater) hown hn.leader
        (by simp [Server.follow, hn.leader, hlooks.id])
  | newLeaderDeclare n hown q hq =>
      have hn : R.Announces net n := hexpected
      rw [hlooks.id] at hown
      obtain ⟨-, hptr, -⟩ := hlooks.notFound hq
      exact absurd (hlink (hn.linked hlooks.mem hown)) hptr
  | newLeaderForward n hown _ q hq =>
      have hn : R.Announces net n := hexpected
      rw [hlooks.id] at hown
      obtain ⟨haims, hkeep⟩ := hlooks.found hq
      have hptr := hlink (hn.linked hlooks.mem hown)
      obtain rfl := hkeep hptr
      exact .pass (fun x hx => Server.mem_connecting hx) (hn.later hlater) hown hptr
        (haims.near hptr) hn.leader
        (by simp [Server.follow, hn.leader, hlooks.id])
  | ack a => exact .idle rfl (by simp) ⟨rfl, rfl⟩ (by simp)
  | connectFailed => exact .idle rfl (by simp) ⟨rfl, rfl⟩ (by simp)
  | connected c => exact .idle rfl (by simp) ⟨rfl, rfl⟩ (by simp)

end Turn

/-! ## What a turn leaves behind -/

section AfterTurn

variable {self : List Msg} {dgs : List (ℕ × ElectionMsg)}

theorem Turn.leader (ht : R.Turn net net' s before after m self dgs) :
    SameLeader before after ∨ (after.idLeader = R.greatest ∧ R.Closed net' ∧
      (after.imLeader = true → before.imLeader = true ∨ s = R.greatest)) := by
  cases ht with
  | idle _ _ hsame | lose _ _ hsame | declare _ hsame | send _ hsame | stop _ _ hsame
  | resend _ _ hsame => exact .inl hsame
  | wait _ hsame => exact .inl ⟨by rw [hsame], by rw [hsame]⟩
  | finish _ hn _ _ _ hleader him => exact .inr ⟨hleader, hn.closed, fun h => .inl (him ▸ h)⟩
  | own _ hn _ hleader him | pass _ hn _ _ _ hleader him =>
      refine .inr ⟨hleader, hn.closed, fun h => ?_⟩
      rw [him, Bool.or_eq_true, decide_eq_true_eq] at h
      exact h.imp_right Eq.symm

/-- Only a server that loses its leader sends itself a `StartElection`. -/
theorem Turn.starts (ht : R.Turn net net' s before after m self dgs)
    (hself : .startElection ∈ self) :
    self = [.startElection] ∧ ¬ Released net s ∧ before.idLeader = R.l ∧
      SameLeader before after := by
  cases ht with
  | idle _ _ _ hidle => exact absurd rfl (hidle _ hself).2.1
  | lose hnew _ hsame hleader => exact ⟨rfl, hnew, hleader, hsame⟩
  | own hconn => exact absurd (hconn _ hself) (by simp)
  | pass hconn =>
      rcases List.mem_cons.1 hself with hself | hself
      · simp [Server.waiting] at hself
      · exact absurd (hconn _ hself) (by simp)
  | _ => simp [Server.waiting] at hself

/-- A server that turns to the new leader has no `StartElection` in its mailbox. -/
theorem Turn.sameLeader_of_start (ht : R.Turn net net' s before after m self dgs)
    {rest : List Msg} (hbox : net.mailbox s = m :: rest)
    (horder : (net.mailbox s).Pairwise fun x y => precedesNoStart x = true → y ≠ .startElection)
    (hmem : .startElection ∈ rest) : SameLeader before after := by
  rw [hbox, List.pairwise_cons] at horder
  cases ht with
  | idle _ _ hsame | lose _ _ hsame | declare _ hsame | send _ hsame | stop _ _ hsame
  | resend _ _ hsame => exact hsame
  | wait _ hsame => exact ⟨by rw [hsame], by rw [hsame]⟩
  | finish hbegun =>
      refine absurd ?_ hbegun.2
      rw [Queued, hbox]
      exact List.mem_cons_of_mem _ hmem
  | own | pass => exact absurd rfl (horder.1 _ hmem rfl)

theorem Turn.brings (ht : R.Turn net net' s before after m self dgs) (hs : s ∈ R.L)
    (hafter : net'.srv s = some after) {e : ElectionMsg} (he : (q, e) ∈ dgs) (hq : q ∈ R.L) :
    R.Brings net' q e := by
  cases ht with
  | send _ _ hheld haims _ hptr =>
      obtain ⟨rfl, rfl⟩ := Prod.mk.inj (List.mem_singleton.1 he)
      exact hheld.send hs haims hq ⟨after, hafter, hptr ▸ hq⟩
  | resend _ heq _ hheld haims hptr =>
      obtain ⟨rfl, rfl⟩ := Prod.mk.inj (List.mem_singleton.1 he)
      rw [heq]
      exact hheld.send hs haims hq ⟨after, hafter, hptr ▸ hq⟩
  | finish _ hn | pass _ hn =>
      obtain ⟨rfl, rfl⟩ := Prod.mk.inj (List.mem_singleton.1 he)
      exact hn
  | _ => simp at he

theorem Turn.expected (ht : R.Turn net net' s before after m self dgs)
    (hm : R.Expected net' s m)
    (hway : ∀ q e n, (q, e) ∈ dgs → q ∈ R.L → net'.onItsWay s
      { serializedMsg := e, neighborId := q, sequenceNumber := n } = true)
    {x : Msg} (hx : x ∈ self) : R.Expected net' s x := by
  cases ht with
  | idle _ _ _ hself => exact (hself x hx).2.2
  | lose _ hreleased =>
      obtain rfl := List.mem_singleton.1 hx
      exact hreleased
  | declare _ _ _ _ hn =>
      obtain rfl := List.mem_singleton.1 hx
      exact hn
  | send _ _ hheld =>
      obtain rfl := List.mem_singleton.1 hx
      exact ⟨rfl, hway _ _ _ (List.mem_singleton.2 rfl), fun _ => ⟨_, rfl, hheld⟩⟩
  | wait =>
      obtain rfl := List.mem_singleton.1 hx
      exact hm
  | stop => simp at hx
  | resend _ he _ hheld =>
      obtain rfl := List.mem_singleton.1 hx
      have hnumber := Awaits.number hm
      exact ⟨hnumber, hway _ _ _ (List.mem_singleton.2 rfl), fun _ => ⟨_, he, hheld⟩⟩
  | finish _ _ _ hq =>
      obtain rfl := List.mem_singleton.1 hx
      exact ⟨rfl, hway _ _ _ (List.mem_singleton.2 rfl), fun hdead => absurd hq hdead⟩
  | own hconn =>
      obtain rfl := hconn x hx
      trivial
  | pass hconn _ _ hq =>
      rcases List.mem_cons.1 hx with rfl | hx
      · exact ⟨rfl, hway _ _ _ (List.mem_singleton.2 rfl), fun hdead => absurd hq hdead⟩
      · obtain rfl := hconn x hx
        trivial

end AfterTurn

/-! ## Every step preserves the invariant -/

/-- The datagram to a live server is under way. -/
theorem Holds.sent (h : R.Holds net) (hr : Handles R.N net net' s o before m after effects)
    {e : ElectionMsg} (he : (q, e) ∈ datagrams effects) (hq : q ∈ R.L) :
    ⟨s, net.boots s, q, .msg e⟩ ∈ net'.flight := by
  rw [hr.flight]
  refine List.mem_append_right _ (List.mem_map.2 ⟨(q, e), ?_, rfl⟩)
  exact List.mem_filter.2 ⟨he, h.hasUdp hq⟩

theorem Holds.handles (h : R.Holds net) (hr : Handles R.N net net' s o before m after effects)
    (htimely : net.timely (.recv s o) = true) : R.Holds net' := by
  have hlater := h.later_handles hr htimely
  have hmember := h.members s before hr.srvBefore
  have ht := h.turn hr htimely
  obtain ⟨rest, hbox, hbox'⟩ := hr.mailbox
  constructor
  case servers =>
    intro k hk
    by_cases hks : k = s
    · exact ⟨after, hks ▸ hr.srvAfter⟩
    · rw [(hr.others k hks).1]
      exact h.servers k hk
  case members =>
    intro k t hk
    rcases hr.srv_cases hk with ⟨rfl, rfl⟩ | ⟨-, hold⟩
    · refine ⟨(hmember.looks.handled hr.handled (h.spares hr htimely)).1,
        hr.handled.udpSender.trans hmember.udpSender, ?_, ?_⟩
      · rcases ht.leader with hsame | ⟨hleader, hclosed, -⟩
        · rw [hsame.1]
          exact (hmember.later hlater).idLeader
        · exact .inr ⟨hleader, hclosed⟩
      · intro him
        rcases ht.leader with hsame | ⟨-, -, hnew⟩
        · exact hmember.imLeader (hsame.2 ▸ him)
        · exact (hnew him).elim hmember.imLeader id
    · exact (h.members k t hold).later hlater
  case order =>
    intro k
    by_cases hks : k = s
    · subst hks
      have horder := h.order k
      rw [hbox, List.pairwise_cons] at horder
      rw [hbox', List.pairwise_append]
      refine ⟨horder.2, ?_, fun x hx y hy hblocks hstart => ?_⟩
      · by_cases hself : .startElection ∈ selfMessages effects
        · rw [(ht.starts hself).1]
          exact List.pairwise_singleton _ _
        · exact List.pairwise_of_forall_mem_list fun x _ y hy _ hstart => hself (hstart ▸ hy)
      · -- a server that has yet to lose its leader has started no election and heard of none
        have hnew := (ht.starts (hstart ▸ hy)).2.1
        have hexpected := h.queued k x (by rw [Queued, hbox]; exact List.mem_cons_of_mem _ hx)
        cases x with
        | startElection => exact hnew hexpected
        | newLeader n => exact hnew (Announces.closed hexpected |>.released k hmember.looks.mem)
        | _ => simp [precedesNoStart] at hblocks
    · rw [(hr.others k hks).2]
      exact h.order k
  case starts =>
    intro k t hk hq
    rcases hr.srv_cases hk with ⟨rfl, rfl⟩ | ⟨hks, hold⟩
    · rw [Queued, hbox'] at hq
      rcases List.mem_append.1 hq with hrest | hself
      · rw [(ht.sameLeader_of_start hbox (h.order k) hrest).1]
        refine h.starts k before hr.srvBefore ?_
        rw [Queued, hbox]
        exact List.mem_cons_of_mem _ hrest
      · obtain ⟨-, -, hleader, hsame⟩ := ht.starts hself
        exact hsame.1.trans hleader
    · rw [Queued, (hr.others k hks).2] at hq
      exact h.starts k t hold hq
  case queued =>
    intro k x hq
    rcases hr.queued_cases hq with hq | ⟨rfl, hself⟩
    · exact (h.queued k x hq).later hlater
    · refine ht.expected ((h.queued k m hr.queued).later hlater) (fun q e n he hq => ?_) hself
      simp only [onItsWay, hr.boots, Bool.or_eq_true, List.any_eq_true, decide_eq_true_eq]
      exact .inl ⟨_, h.sent hr he hq, rfl⟩
  case flight =>
    intro d hd
    rw [hr.flight] at hd
    rcases List.mem_append.1 hd with hd | hd
    · exact h.flight d hd
    · obtain ⟨hsrc, -, hudp, -⟩ := mem_packets hd
      obtain ⟨t, hdst, -⟩ := hasUdp_iff.1 hudp
      exact ⟨hsrc ▸ hmember.looks.mem, h.mem hdst⟩
  case msg =>
    intro d hd e hb
    rw [hr.flight] at hd
    rcases List.mem_append.1 hd with hd | hd
    · exact (h.msg d hd e hb).later hlater
    · obtain ⟨-, -, hudp, e', hb', he⟩ := mem_packets hd
      obtain rfl := Body.msg.inj (hb.symm.trans hb')
      obtain ⟨t, hdst, -⟩ := hasUdp_iff.1 hudp
      exact ht.brings hmember.looks.mem hr.srvAfter he (h.mem hdst)
  case ack =>
    intro d hd a hb
    rw [hr.flight] at hd
    rcases List.mem_append.1 hd with hd | hd
    · exact h.ack d hd a hb
    · obtain ⟨-, -, -, e, hb', -⟩ := mem_packets hd
      simp [hb] at hb'
  case pongs =>
    intro line hline
    rw [hr.pongs] at hline
    rcases List.mem_append.1 hline with hline | hline
    · exact h.pongs line hline
    · rw [(hr.pongLine hline).2]
      exact hmember.looks.dead

/-! ### Messages that arrive -/

/-- A message that reaches a server from outside is quiet, or a `Ping`. -/
theorem expected_of_reaches {srv : Server} (hm : reaches srv m = true) :
    R.Expected net s m ∧ m ≠ .startElection := by
  have hstate : ∀ state, m ≠ .updateNetworkState state := by
    rintro state rfl
    simp [reaches, Msg.isExternal] at hm
  rcases quiet_of_reaches hm with hquiet | rfl
  · refine ⟨expected_of_quiet hquiet hstate, ?_⟩
    rintro rfl
    simp [Msg.isQuiet] at hquiet
  · exact ⟨trivial, by simp⟩

section Arrival

variable (hstep : Step R.N net l net') (hsteady : net.isSteady l = true)
  (hrecv : ∀ s o, l ≠ .recv s o)
include hstep hsteady hrecv

theorem srv_arrival (k : ℕ) : net'.srv k = net.srv k := by
  cases hstep with
  | recv | panic => exact absurd rfl (hrecv _ _)
  | post | deliverAck | pongArrives => exact srv_enqueue
  | deliverMsg => exact srv_received
  | deliverLost | pongLost => rfl
  | drop | duplicate | silence | crash | boot | dial | dialFailed =>
      simp [isSteady, timely] at hsteady

theorem boots_arrival : net'.boots = net.boots := by
  funext k
  rcases hstep.boots_cases k with heq | ⟨rfl, -⟩
  · exact heq
  · simp [isSteady] at hsteady

/-- A mailbox stays as it is, or a message arrives. -/
theorem mailbox_arrival (k : ℕ) : net'.mailbox k = net.mailbox k ∨
    ∃ x, Arrives R.N net net' l k x ∧ net'.mailbox k = net.mailbox k ++ [x] := by
  rcases hstep.mailbox_cases k with heq | ⟨heq, hgone⟩ | hnew | ⟨o, _, _, _, _, hl, -⟩
  · exact .inl heq
  · rcases hgone with hdead | ⟨rfl, -⟩
    · rw [srv_arrival hstep hsteady hrecv] at hdead
      exact .inl (heq.trans (mailbox_of_dead hdead).symm)
    · simp [isSteady] at hsteady
  · exact .inr hnew
  · exact absurd hl (hrecv k o)

theorem Holds.expected_arrival (h : R.Holds net) {x : Msg} (hx : Arrives R.N net net' l k x) :
    R.Expected net k x ∧ x ≠ .startElection := by
  cases hx with
  | posted _ hm => exact expected_of_reaches hm
  | ack hd hb => exact ⟨h.ack _ hd _ hb, by simp⟩
  | @msg i d e x hx hd hb =>
      subst hx
      have hbrings := h.msg d hd e hb
      cases e with
      | election => exact ⟨hbrings, by simp [ElectionMsg.toMsg]⟩
      | newLeader => exact ⟨hbrings, by simp [ElectionMsg.toMsg]⟩
  | pong hline => exact ⟨h.pongs _ hline, by simp⟩
  | silence | dial => simp [isSteady] at hsteady

theorem queued_arrival {x : Msg} (hx : net.Queued k x) : net'.Queued k x := by
  rcases mailbox_arrival hstep hsteady hrecv k with heq | ⟨y, -, heq⟩
  · rwa [Queued, heq]
  · rw [Queued, heq]
    exact List.mem_append_left _ hx

/-- A datagram is still under way, or has arrived. -/
theorem Holds.flight_arrival (h : R.Holds net) {d : Packet} (hd : d ∈ net.flight)
    {e : ElectionMsg} (hb : d.body = .msg e) : d ∈ net'.flight ∨
      (.delivered d.src d.session d.dst e ∈ net'.log ∧ net'.Queued d.dst e.toMsg) := by
  -- all datagrams but the `i`-th stay where they are
  have stays : ∀ {i : ℕ} {d' : Packet}, net.flight[i]? = some d' → d ≠ d' →
      d ∈ net.flight.eraseIdx i := by
    intro i d' hi hne
    obtain ⟨j, hj⟩ := List.getElem?_of_mem hd
    refine List.mem_eraseIdx_iff_getElem?.2 ⟨j, fun heq => hne ?_, hj⟩
    rw [heq, hi] at hj
    exact (Option.some.inj hj).symm
  cases hstep with
  | recv | panic => exact absurd rfl (hrecv _ _)
  | post | pongArrives | pongLost => exact .inl hd
  | @deliverLost i d' hi hudp =>
      refine .inl (stays hi ?_)
      rintro rfl
      rw [h.hasUdp (h.flight d hd).2] at hudp
      simp at hudp
  | @deliverAck i d' a hi hudp hb' =>
      refine .inl (stays hi ?_)
      rintro rfl
      rw [hb] at hb'
      simp at hb'
  | @deliverMsg i d' e' hi hudp hb' =>
      by_cases heq : d = d'
      · subst heq
        obtain rfl := Body.msg.inj (hb.symm.trans hb')
        obtain ⟨p, hp⟩ := procs_of_hasUdp hudp
        refine .inr ⟨List.mem_cons_self, ?_⟩
        rw [Queued, mailbox_received hp, if_pos rfl]
        exact List.mem_append_right _ (List.mem_singleton.2 rfl)
      · exact .inl (List.mem_append_left _ (stays hi heq))
  | drop | duplicate | silence | crash | boot | dial | dialFailed =>
      simp [isSteady, timely] at hsteady

theorem isUp_arrival (x session : ℕ) : net'.isUp x session = net.isUp x session := by
  have hlive : net'.live x = net.live x := by
    rw [Bool.eq_iff_iff, live_iff, live_iff, srv_arrival hstep hsteady hrecv]
  rw [isUp, isUp, hlive, boots_arrival hstep hsteady hrecv]

theorem released_arrival (x : ℕ) : Released net' x ↔ Released net x := by
  simp only [Released, srv_arrival hstep hsteady hrecv, isUp_arrival hstep hsteady hrecv]

theorem Holds.later_arrival (h : R.Holds net) : R.Later net net' where
  released := fun x hx => (released_arrival hstep hsteady hrecv x).2 hx
  begun := fun x hx => by
    refine ⟨(released_arrival hstep hsteady hrecv x).2 hx.1, fun hq => hx.2 ?_⟩
    rcases mailbox_arrival hstep hsteady hrecv x with heq | ⟨y, hy, heq⟩
    · rwa [Queued, heq] at hq
    · rw [Queued, heq] at hq
      rcases List.mem_append.1 hq with hq | hq
      · exact hq
      · obtain rfl := List.mem_singleton.1 hq
        exact absurd rfl (h.expected_arrival hstep hsteady hrecv hy).2
  linked := fun x ⟨srv, hsrv, hin⟩ =>
    ⟨srv, (srv_arrival hstep hsteady hrecv x).trans hsrv, hin⟩
  onItsWay := fun x c hway => by
    refine onItsWay_mono (boots_arrival hstep hsteady hrecv) (fun d hd hdeq => ?_)
      (fun e he => hstep.mem_log he) hway
    subst hdeq
    exact (h.flight_arrival hstep hsteady hrecv hd rfl).imp_right And.left

theorem Holds.arrival (h : R.Holds net) : R.Holds net' := by
  have hlater := h.later_arrival hstep hsteady hrecv
  have hsrv := srv_arrival hstep hsteady hrecv
  constructor
  case servers =>
    intro k hk
    rw [hsrv]
    exact h.servers k hk
  case members => exact fun k t hk => (h.members k t (hsrv k ▸ hk)).later hlater
  case order =>
    intro k
    rcases mailbox_arrival hstep hsteady hrecv k with heq | ⟨x, hx, heq⟩
    · rw [heq]
      exact h.order k
    · rw [heq, List.pairwise_append]
      refine ⟨h.order k, List.pairwise_singleton _ _, fun y _ z hz _ => ?_⟩
      rw [List.mem_singleton.1 hz]
      exact (h.expected_arrival hstep hsteady hrecv hx).2
  case starts =>
    intro k t hk hq
    refine h.starts k t (hsrv k ▸ hk) ?_
    rcases mailbox_arrival hstep hsteady hrecv k with heq | ⟨x, hx, heq⟩
    · rwa [Queued, heq] at hq
    · rw [Queued, heq] at hq
      rcases List.mem_append.1 hq with hq | hq
      · exact hq
      · exact absurd (List.mem_singleton.1 hq).symm (h.expected_arrival hstep hsteady hrecv hx).2
  case queued =>
    intro k x hq
    rcases mailbox_arrival hstep hsteady hrecv k with heq | ⟨y, hy, heq⟩
    · rw [Queued, heq] at hq
      exact (h.queued k x hq).later hlater
    · rw [Queued, heq] at hq
      rcases List.mem_append.1 hq with hq | hq
      · exact (h.queued k x hq).later hlater
      · obtain rfl := List.mem_singleton.1 hq
        exact (h.expected_arrival hstep hsteady hrecv hy).1.later hlater
  case flight =>
    intro d hd
    rcases hstep.flight_cases hd with hd | ⟨s, o, -, -, -, -, hl, -⟩ | ⟨d', e, hd', -, -, -, rfl⟩
    · exact h.flight d hd
    · exact absurd hl (hrecv s o)
    · exact ⟨(h.flight d' hd').2, (h.flight d' hd').1⟩
  case msg =>
    intro d hd e hb
    rcases hstep.flight_cases hd with hd | ⟨s, o, -, -, -, -, hl, -⟩ | ⟨d', e', -, -, -, -, rfl⟩
    · exact (h.msg d hd e hb).later hlater
    · exact absurd hl (hrecv s o)
    · simp [ackOf] at hb
  case ack =>
    intro d hd a hb
    rcases hstep.flight_cases hd with hd | ⟨s, o, -, -, -, -, hl, -⟩ | ⟨d', e', -, -, -, -, rfl⟩
    · exact h.ack d hd a hb
    · exact absurd hl (hrecv s o)
    · obtain rfl := Body.ack.inj hb
      rfl
  case pongs =>
    intro line hline
    rcases hstep.pongs_cases hline with hline | ⟨s, o, -, -, -, -, hl, -⟩
    · exact h.pongs line hline
    · exact absurd hl (hrecv s o)

end Arrival

/-- A step of the election: a server handles a message, or a message arrives. -/
theorem Holds.step_cases (h : R.Holds net) (hstep : net.step R.N l = some net') :
    (∃ s o before m after effects, l = .recv s o ∧
      Handles R.N net net' s o before m after effects) ∨
    (Step R.N net l net' ∧ ∀ s o, l ≠ .recv s o) := by
  cases l with
  | recv s o =>
      cases Net.step_cases hstep with
      | recv hp hbox hans hh => exact .inl ⟨_, _, _, _, _, _, rfl, Net.handles hp hbox hans hh⟩
      | panic hp hbox hh =>
          have hmember := h.members s _ (srv_eq_some.2 ⟨_, hp, rfl⟩)
          exact absurd hh (Server.handle_ne_none hmember.udpSender)
  | _ => exact .inr ⟨Net.step_cases hstep, by simp⟩

/-- **Every step of the election preserves the invariant.** -/
theorem Holds.step (h : R.Holds net) (hstep : net.step R.N l = some net')
    (hsteady : net.isSteady l = true) : R.Holds net' := by
  rcases h.step_cases hstep with ⟨s, o, before, m, after, effects, rfl, hr⟩ | ⟨hs, hrecv⟩
  · simp only [isSteady, Bool.and_true] at hsteady
    exact h.handles hr hsteady
  · exact h.arrival hs hsteady hrecv

end ConcuRide.Round
