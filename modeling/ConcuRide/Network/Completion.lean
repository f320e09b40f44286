import Mathlib.Data.Prod.Lex
import ConcuRide.Network.Termination

set_option autoImplicit false

/-! # Elections succeed

A server that has sent an election message sleeps for 300 ms before it asks whether it was
acknowledged. When that is enough for the datagram to arrive and for its acknowledgement to come
back, and no server comes or goes, no acknowledgement is late (`Prompt.isSteady`), and whatever has
begun can be brought to its end: as long as something is left to do, a datagram can arrive or a
server can handle a message, and what is left becomes less. -/

namespace ConcuRide

/-- Nothing that server `s` has sent is on its way, and no acknowledgement to it. -/
def Net.answered (net : Net) (s : ℕ) : Bool :=
  net.flight.all fun d =>
    match d.body with
    | .msg _ => decide (d.src ≠ s)
    | .ack _ => decide (d.dst ≠ s)

/-- A step while no server comes or goes, without loss, where the sleep of `WaitForNeighborAck` is
    longer than the way of a datagram and of its acknowledgement. -/
def Net.isPrompt (net : Net) : Label → Bool
  | .recv s _ =>
    match net.mailbox s with
    | .waitForNeighborAck _ :: _ => net.answered s
    | _ => true
  | .post _ _ | .deliver _ | .pongArrives _ => true
  | _ => false

/-- Such a step, when nothing reaches the servers from outside any more. -/
def Net.isUnattended (net : Net) (l : Label) : Bool :=
  net.isPrompt l &&
    match l with
    | .post _ _ => false
    | _ => true

namespace Round

open Lib Net

variable {R : Round} {net net' : Net} {l : Label} {s q k : ℕ} {o : Oracle}
  {before after srv : Server} {m : Msg} {effects : List Effect} {box rest : List Msg}

/-! ## Acknowledgements in time -/

/-- The number `k` is acknowledged, when the messages of `box` have been handled. -/
def Acked (srv : Server) (box : List Msg) (k : ℕ) : Prop :=
  k ∈ srv.messageReceivedAck ∨ ∃ a, .neighborAck a ∈ box ∧ a.sequenceNumber = k

/-- The datagram that brings `e` from `s` to `q` is on its way, or its acknowledgement is, or that
    has arrived. -/
inductive Answering (net : Net) (s q : ℕ) (e : ElectionMsg) : Prop
  | sent (h : ⟨s, net.boots s, q, .msg e⟩ ∈ net.flight)
  | answered {d : Packet} {a : NeighborAck} (hd : d ∈ net.flight) (hdst : d.dst = s)
      (hb : d.body = .ack a) (hk : a.sequenceNumber = e.sequenceNumber)
  | arrived {srv : Server} (hs : net.srv s = some srv)
      (h : Acked srv (net.mailbox s) e.sequenceNumber)

/-- What a server waits for from a live neighbour is being answered, and is acknowledged before the
    server asks; nothing has ever arrived at a dead one. -/
structure Prompt (R : Round) (net : Net) : Prop where
  waited : ∀ s w, net.Queued s (.waitForNeighborAck w) → w.neighborId ∈ R.L →
    Answering net s w.neighborId w.serializedMsg
  asked : ∀ s srv xs c ys, net.srv s = some srv →
    net.mailbox s = xs ++ .checkIfNeighborAcked c :: ys → c.neighborId ∈ R.L →
      Acked srv xs c.sequenceNumber
  dead : ∀ s ∈ R.L, ∀ q, q ∉ R.L → ∀ m, .delivered s (net.boots s) q m ∉ net.log

theorem Acked.mono {box' : List Msg} (h : Acked srv box k) (hbox : ∀ x ∈ box, x ∈ box') :
    Acked srv box' k :=
  h.imp_right fun ⟨a, ha, hk⟩ => ⟨a, hbox _ ha, hk⟩

/-- What waits to be acknowledged is, once the first message has been handled. -/
theorem Acked.handled {N : ℕ} {self : List Msg} {dgs : List (ℕ × ElectionMsg)}
    (h : Acked before (m :: rest) k) (hh : before.Handled N o m after self dgs) :
    Acked after rest k := by
  rcases h with hk | ⟨a, ha, rfl⟩
  · exact .inl ((hh.messageReceivedAck k).2 (.inl hk))
  · rcases List.mem_cons.1 ha with rfl | ha
    · exact .inl ((hh.messageReceivedAck _).2 (.inr ⟨a, rfl, rfl⟩))
    · exact .inr ⟨a, ha, rfl⟩

/-- An answer that is not on its way any more has arrived. -/
theorem Answering.acked {e : ElectionMsg} (h : Answering net s q e)
    (hanswered : net.answered s = true) (hs : net.srv s = some srv) :
    Acked srv (net.mailbox s) e.sequenceNumber := by
  rw [Net.answered, List.all_eq_true] at hanswered
  cases h with
  | sent hd => simpa using hanswered _ hd
  | answered hd hdst hb =>
      have hd := hanswered _ hd
      rw [hb] at hd
      simp [hdst] at hd
  | arrived hs' hk =>
      obtain rfl := Option.some.inj (hs.symm.trans hs')
      exact hk

/-- **No acknowledgement is late.** -/
theorem Prompt.timely (h : R.Prompt net) (hh : R.Holds net) (o : Oracle) :
    net.timely (.recv s o) = true := by
  rw [Net.timely]
  split
  · next c rest hbox =>
      cases hsrv : net.srv s with
      | none =>
          rw [mailbox_of_dead hsrv] at hbox
          cases hbox
      | some srv =>
          by_cases hlive : c.neighborId ∈ R.L
          · rcases h.asked s srv [] c rest hsrv hbox hlive with hk | ⟨a, ha, -⟩
            · simp [hk]
            · cases ha
          · have hnot : net.onItsWay s c = false := by
              rw [← Bool.not_eq_true, onItsWay, Bool.or_eq_true, List.any_eq_true,
                List.any_eq_true, not_or]
              constructor
              · rintro ⟨d, hd, heq⟩
                obtain rfl := of_decide_eq_true heq
                exact hlive (hh.flight _ hd).2
              · rintro ⟨e, he, heq⟩
                obtain rfl := of_decide_eq_true heq
                exact h.dead s (hh.mem hsrv) _ hlive _ he
            simp [hnot]
  · rfl

theorem Prompt.isSteady (h : R.Prompt net) (hh : R.Holds net) (hok : net.isPrompt l = true) :
    net.isSteady l = true := by
  cases l with
  | recv s o =>
      simp [Net.isSteady, h.timely hh o]
  | post | deliver | pongArrives => rfl
  | drop | duplicate | silence | crash | boot | dial => cases hok

/-! ### A message is handled -/

theorem Prompt.handles (h : R.Prompt net) (hh : R.Holds net)
    (hr : Handles R.N net net' s o before m after effects)
    (hok : net.isPrompt (.recv s o) = true) : R.Prompt net' := by
  obtain ⟨rest, hbox, hbox'⟩ := hr.mailbox
  have hsrv : ∀ {k : ℕ} {t : Server}, k ≠ s → net'.srv k = some t → net.srv k = some t :=
    fun hk ht => (hr.others _ hk).1 ▸ ht
  -- what is being answered still is
  have still : ∀ {k q : ℕ} {e : ElectionMsg}, Answering net k q e → Answering net' k q e := by
    intro k q e hans
    cases hans with
    | sent hd =>
        refine .sent ?_
        rw [hr.flight, hr.boots]
        exact List.mem_append_left _ hd
    | answered hd hdst hb hk =>
        refine .answered ?_ hdst hb hk
        rw [hr.flight]
        exact List.mem_append_left _ hd
    | @arrived t ht hk =>
        by_cases hks : k = s
        · subst hks
          obtain rfl := Option.some.inj (ht.symm.trans hr.srvBefore)
          rw [hbox] at hk
          refine .arrived hr.srvAfter ?_
          rw [hbox']
          exact (hk.handled hr.handled).mono fun x hx => List.mem_append_left _ hx
        · rw [← (hr.others k hks).1] at ht
          rw [← (hr.others k hks).2] at hk
          exact .arrived ht hk
  -- a question is asked when the server has waited for the answer
  have new : ∀ {rest : List Msg} {c : CheckIfNeighborAcked}, net.mailbox s = m :: rest →
      .checkIfNeighborAcked c ∈ selfMessages effects → c.neighborId ∈ R.L →
        Acked after rest c.sequenceNumber := by
    intro rest c hbox hc hlive
    have hm := hr.handled.check_mem hc
    subst hm
    have hanswered : net.answered s = true := by
      simpa [isPrompt, hbox] using hok
    have hacked := (h.waited s _ hr.queued hlive).acked hanswered hr.srvBefore
    have hnumber : R.Awaits net s c := hh.queued s _ hr.queued
    rw [hbox, ← hnumber.number] at hacked
    exact hacked.handled hr.handled
  constructor
  case waited =>
    intro k w hq hlive
    rcases hr.queued_cases hq with hq | ⟨rfl, hself⟩
    · exact still (h.waited k w hq hlive)
    · have hudp := (hh.members k before hr.srvBefore).udpSender
      refine .sent ?_
      rw [hr.boots]
      exact hh.sent hr (hr.handled.wait_mem hudp hself).1 hlive
  case asked =>
    intro k t xs c ys ht hmail hlive
    by_cases hks : k = s
    · subst hks
      obtain rfl := Option.some.inj (ht.symm.trans hr.srvAfter)
      rw [hbox'] at hmail
      rcases List.append_eq_append_iff.1 hmail with ⟨zs, rfl, hself⟩ | ⟨zs, rfl, htail⟩
      · have hc : .checkIfNeighborAcked c ∈ selfMessages effects :=
          hself ▸ List.mem_append_right zs List.mem_cons_self
        exact (new hbox hc hlive).mono fun x hx => List.mem_append_left _ hx
      · cases zs with
        | nil =>
            have hc : .checkIfNeighborAcked c ∈ selfMessages effects := by
              rw [List.nil_append] at htail
              exact htail ▸ List.mem_cons_self
            rw [List.append_nil] at hbox
            exact new hbox hc hlive
        | cons z zs =>
            obtain ⟨rfl, -⟩ := List.cons.inj htail
            refine (h.asked k before (m :: xs) c zs hr.srvBefore ?_ hlive).handled hr.handled
            rw [hbox, List.cons_append]
    · rw [(hr.others k hks).2] at hmail
      exact h.asked k t xs c ys (hsrv hks ht) hmail hlive
  case dead =>
    intro k hk q hq e he
    rw [hr.boots] at he
    rw [hr.log] at he
    rcases List.mem_append.1 he with he | he
    · rcases remembered_of_mem he
    · exact h.dead k hk q hq e he

/-! ### A message arrives -/

/-- The datagrams that stay, when the `i`-th arrives. -/
theorem mem_eraseIdx_of_ne {flight : List Packet} {i : ℕ} {d d' : Packet}
    (hi : flight[i]? = some d') (hd : d ∈ flight) (hne : d ≠ d') : d ∈ flight.eraseIdx i := by
  obtain ⟨j, hj⟩ := List.getElem?_of_mem hd
  refine List.mem_eraseIdx_iff_getElem?.2 ⟨j, fun heq => hne ?_, hj⟩
  rw [heq, hi] at hj
  exact (Option.some.inj hj).symm

section Arrival

variable (hstep : Step R.N net l net') (hsteady : net.isSteady l = true)
  (hrecv : ∀ s o, l ≠ .recv s o)
include hstep hsteady hrecv

/-- What is being answered still is when something arrives. -/
theorem Answering.arrival {e : ElectionMsg} (h : Answering net s q e) (hh : R.Holds net)
    (hs : s ∈ R.L) (hq : q ∈ R.L) : Answering net' s q e := by
  obtain ⟨srv, hsrv⟩ := hh.servers s hs
  have hsrv' : net'.srv s = some srv := (srv_arrival hstep hsteady hrecv s).trans hsrv
  have sent : ⟨s, net.boots s, q, .msg e⟩ ∈ net'.flight → Answering net' s q e := fun hd =>
    .sent (by rwa [boots_arrival hstep hsteady hrecv])
  cases h with
  | arrived ht hk =>
      rw [← srv_arrival hstep hsteady hrecv] at ht
      exact .arrived ht (hk.mono fun x hx => queued_arrival hstep hsteady hrecv hx)
  | sent hd =>
      cases hstep with
      | recv | panic => exact absurd rfl (hrecv _ _)
      | post | pongArrives | pongLost => exact .sent hd
      | @deliverLost i d' hi hudp =>
          refine sent (mem_eraseIdx_of_ne hi hd ?_)
          rintro rfl
          rw [hh.hasUdp hq] at hudp
          cases hudp
      | @deliverAck i d' a hi hudp hb =>
          refine sent (mem_eraseIdx_of_ne hi hd ?_)
          rintro rfl
          cases hb
      | @deliverMsg i d' e' hi hudp hb =>
          by_cases heq : ⟨s, net.boots s, q, .msg e⟩ = d'
          · subst heq
            obtain rfl := Body.msg.inj hb
            -- the datagram arrives, and is acknowledged at once
            refine .answered (d := net.ackOf ⟨s, net.boots s, q, .msg e⟩ e) ?_ rfl rfl rfl
            rw [received, if_pos (hh.hasUdp hs)]
            exact List.mem_append_right _ List.mem_cons_self
          · exact sent (List.mem_append_left _ (mem_eraseIdx_of_ne hi hd heq))
      | drop | duplicate | silence | crash | boot | dial | dialFailed =>
          simp [isSteady, timely] at hsteady
  | @answered d a hd hdst hb hk =>
      cases hstep with
      | recv | panic => exact absurd rfl (hrecv _ _)
      | post | pongArrives | pongLost => exact .answered hd hdst hb hk
      | @deliverLost i d' hi hudp =>
          refine .answered (mem_eraseIdx_of_ne hi hd ?_) hdst hb hk
          rintro rfl
          rw [hdst, hh.hasUdp hs] at hudp
          cases hudp
      | @deliverAck i d' a' hi hudp hb' =>
          by_cases heq : d = d'
          · subst heq
            obtain rfl := Body.ack.inj (hb.symm.trans hb')
            obtain ⟨p, hp⟩ := procs_of_hasUdp hudp
            have hmail : ({ net with flight := net.flight.eraseIdx i }.enqueue d.dst
                (.neighborAck a)).mailbox s = net.mailbox s ++ [.neighborAck a] :=
              (mailbox_enqueue hp).trans (if_pos hdst.symm)
            refine .arrived hsrv' (.inr ⟨a, ?_, hk⟩)
            rw [hmail]
            exact List.mem_append_right _ List.mem_cons_self
          · exact .answered (mem_eraseIdx_of_ne hi hd heq) hdst hb hk
      | @deliverMsg i d' e' hi hudp hb' =>
          refine .answered (List.mem_append_left _ (mem_eraseIdx_of_ne hi hd ?_)) hdst hb hk
          rintro rfl
          rw [hb] at hb'
          cases hb'
      | drop | duplicate | silence | crash | boot | dial | dialFailed =>
          simp [isSteady, timely] at hsteady

theorem Prompt.arrival (h : R.Prompt net) (hh : R.Holds net) : R.Prompt net' := by
  -- nobody is sent a wait or a question
  have fresh : ∀ {k : ℕ} {x : Msg}, Arrives R.N net net' l k x → awaited x = none := by
    intro k x hx
    cases hx with
    | posted _ hm =>
        rcases quiet_of_reaches hm with hquiet | rfl
        · exact awaited_of_quiet hquiet
        · rfl
    | @msg i d e x hx => cases e <;> simp [hx, ElectionMsg.toMsg, awaited]
    | ack | pong | silence | dial => rfl
  have hsrv : ∀ {k : ℕ} {t : Server}, net'.srv k = some t → net.srv k = some t := fun ht =>
    (srv_arrival hstep hsteady hrecv _).symm.trans ht
  constructor
  case waited =>
    intro k w hq hlive
    have hold : net.Queued k (.waitForNeighborAck w) := by
      rcases mailbox_arrival hstep hsteady hrecv k with heq | ⟨x, hx, heq⟩
      · rwa [Queued, heq] at hq
      · rw [Queued, heq] at hq
        rcases List.mem_append.1 hq with hq | hq
        · exact hq
        · obtain rfl := List.mem_singleton.1 hq
          cases fresh hx
    obtain ⟨t, ht⟩ : ∃ t, net.srv k = some t := by
      cases ht : net.srv k with
      | some t => exact ⟨t, rfl⟩
      | none =>
          rw [Queued, mailbox_of_dead ht] at hold
          cases hold
    exact (h.waited k w hold hlive).arrival hstep hsteady hrecv hh (hh.mem ht) hlive
  case asked =>
    intro k t xs c ys ht hmail hlive
    rcases mailbox_arrival hstep hsteady hrecv k with heq | ⟨x, hx, heq⟩
    · exact h.asked k t xs c ys (hsrv ht) (heq.symm.trans hmail) hlive
    · rw [heq] at hmail
      rcases List.eq_nil_or_concat ys with rfl | ⟨ys, y, rfl⟩
      · obtain ⟨-, hlast⟩ := List.append_inj' hmail rfl
        obtain rfl := (List.cons.inj hlast).1
        cases fresh hx
      · rw [List.concat_eq_append, ← List.cons_append, ← List.append_assoc] at hmail
        obtain ⟨hinit, -⟩ := List.append_inj' hmail rfl
        exact h.asked k t xs c ys (hsrv ht) hinit hlive
  case dead =>
    intro k hk q hq e he
    rw [boots_arrival hstep hsteady hrecv] at he
    obtain ⟨new, hlog, hnew⟩ := hstep.log_append
    rw [hlog] at he
    rcases List.mem_append.1 he with he | he
    · rcases hnew _ he with ⟨s, o, _, _, _, _, hl, -⟩ | ⟨i, d, m, -, hd, -, -, heq⟩ | ⟨s, -, heq⟩
      · exact hrecv s o hl
      · obtain ⟨-, -, rfl, -⟩ := Event.delivered.inj heq
        exact hq (hh.flight d hd).2
      · cases heq
    · exact h.dead k hk q hq e he

end Arrival

/-- **No acknowledgement comes late**, from one step to the next. -/
theorem Prompt.step (h : R.Prompt net) (hh : R.Holds net) (hstep : net.step R.N l = some net')
    (hok : net.isPrompt l = true) : R.Prompt net' := by
  rcases hh.step_cases hstep with ⟨s, o, before, m, after, effects, rfl, hr⟩ | ⟨hs, hrecv⟩
  · exact h.handles hh hr hok
  · exact h.arrival hs (h.isSteady hh hok) hrecv hh

/-- Before anybody has noticed, nobody waits for an answer. -/
theorem Ready.prompt (h : R.Ready net)
    (hdead : ∀ s ∈ R.L, ∀ q, q ∉ R.L → ∀ m, .delivered s (net.boots s) q m ∉ net.log) :
    R.Prompt net where
  waited := by
    intro s w hq
    rcases h.queued s _ hq with hm | ⟨addr, hm⟩ | ⟨state, hm, -⟩ <;> cases hm
  asked := by
    intro s srv xs c ys hs hmail
    have hq : net.Queued s (.checkIfNeighborAcked c) := by
      rw [Queued, hmail]
      exact List.mem_append_right xs List.mem_cons_self
    rcases h.queued s _ hq with hm | ⟨addr, hm⟩ | ⟨state, hm, -⟩ <;> cases hm
  dead := hdead

/-! ## What is left to do becomes less -/

/-- A replica that joins is answered with one `Pong` for each replica that has. -/
def isJoin : Msg → Bool
  | .newServerConnection _ => true
  | _ => false

/-- What a message counts among what is left to do: one more when the leader may send itself another
    one about it. -/
def chore : Msg → ℕ
  | .newDriver _ | .reconnectDriver _ => 2
  | _ => 1

variable (R) in
/-- How many replicas wait to join. -/
def joins (net : Net) : ℕ := R.L.sum fun s => (net.mailbox s).countP isJoin

variable (R) in
/-- What else waits. -/
def chores (net : Net) : ℕ := R.L.sum fun s => ((net.mailbox s).map chore).sum

variable (R) in
/-- **What is left to do**: elections first, then the replicas that join, then the rest. -/
noncomputable def ahead (net : Net) : ℕ ×ₗ ℕ ×ₗ ℕ :=
  toLex (R.potential net, toLex (R.joins net, R.chores net))

/-- What a message outside the election leaves to do. -/
theorem chores_of_quiet {N : ℕ} (hm : m.isQuiet = true)
    (h : before.handle N o m = some (after, effects)) :
    (selfMessages effects).countP isJoin = 0 ∧
      (isJoin m = true ∨ ((selfMessages effects).map chore).sum < chore m) := by
  cases m with
  | newDriver e =>
      simp only [Server.handle, Server.newDriver, Option.some.injEq] at h
      (repeat' split at h) <;>
        · obtain ⟨-, rfl⟩ := Prod.mk.inj h
          exact ⟨rfl, .inr (by simp [selfMessages, chore])⟩
  | reconnectDriver e =>
      simp only [Server.handle, Server.reconnectDriver, Option.some.injEq] at h
      split at h <;>
        · obtain ⟨-, rfl⟩ := Prod.mk.inj h
          exact ⟨rfl, .inr (by simp [selfMessages, chore])⟩
  | newServerConnection e =>
      simp only [Server.handle, Server.newServerConnection, Option.some.injEq] at h
      obtain ⟨-, rfl⟩ := Prod.mk.inj h
      refine ⟨List.countP_eq_zero.2 fun x hx => ?_, .inl rfl⟩
      simp only [selfMessages, List.mem_filterMap, List.mem_map] at hx
      obtain ⟨_, ⟨addr, -, rfl⟩, hx⟩ := hx
      obtain rfl := Option.some.inj hx
      exact Bool.false_ne_true
  | passengerLogin | updateDriver | busyDriver =>
      simp only [Server.handle, Server.passengerLogin, Server.updateDriver, Server.busyDriver,
        Option.some.injEq] at h
      split at h <;> · obtain ⟨-, rfl⟩ := Prod.mk.inj h; exact ⟨rfl, .inr Nat.one_pos⟩
  | sendLeaderId addr =>
      simp only [Server.handle, Server.sendLeaderId] at h
      split at h
      · obtain ⟨-, rfl⟩ := Prod.mk.inj (Option.some.inj h)
        exact ⟨rfl, .inr Nat.one_pos⟩
      · cases h
  | getDrivers | updateDriverSocket | pong | updateNetworkState =>
      obtain ⟨-, rfl⟩ := Prod.mk.inj (Option.some.inj h)
      exact ⟨rfl, .inr Nat.one_pos⟩
  | setLeader | startElection | waitForNeighborAck | checkIfNeighborAcked | election | newLeader
  | neighborAck | connectToServer | ping => cases hm

/-- A message that a server handles outside the election. -/
theorem Holds.quiet_of_free (h : R.Holds net)
    (hr : Handles R.N net net' s .up before m after effects)
    (hfree : net.electionStep (.recv s .up) = false) :
    m.isQuiet = true ∨ (m = .ping ∧ selfMessages effects = []) := by
  obtain ⟨rest, hbox, -⟩ := hr.mailbox
  have hh := hr.handled
  have hexpected : R.Expected net s m := h.queued s m hr.queued
  have hnone : m ≠ .ping → m.isElection = false := fun hm => by
    rwa [electionStep_recv hbox hm] at hfree
  generalize selfMessages effects = self at hh ⊢
  generalize datagrams effects = dgs at hh
  cases hh with
  | quiet hm => exact .inl hm
  | setLeader => exact hexpected.elim
  | pingIdle => exact .inr ⟨rfl, rfl⟩
  | pingLost _ _ _ ho => cases ho
  | _ => exact absurd (hnone (by simp)) (by simp [Msg.isElection])

/-- A server that handles a message has less to do, or the group is closer to the end of the
    elections. -/
theorem ahead_handles (h : R.Holds net) (htracks : R.Tracks net) (hs : R.Accompanied s)
    (hr : Handles R.N net net' s .up before m after effects)
    (htimely : net.timely (.recv s .up) = true) : R.ahead net' < R.ahead net := by
  have hpaid := potential_handles h htracks hs hr htimely
  rw [ahead, ahead, Prod.Lex.toLex_lt_toLex, Prod.Lex.toLex_lt_toLex]
  cases hcost : net.electionStep (.recv s .up) with
  | true =>
      rw [hcost, Bool.toNat_true] at hpaid
      exact .inl hpaid
  | false =>
      rw [hcost, Bool.toNat_false, Nat.add_zero] at hpaid
      obtain ⟨rest, hbox, hbox'⟩ := hr.mailbox
      have hmem := h.mem hr.srvBefore
      have hjoins := sum_add_of_eq_others (f := fun k => (net.mailbox k).countP isJoin)
        (g := fun k => (net'.mailbox k).countP isJoin) hmem
        fun k _ hks => by rw [(hr.others k hks).2]
      have hchores := sum_add_of_eq_others (f := fun k => ((net.mailbox k).map chore).sum)
        (g := fun k => ((net'.mailbox k).map chore).sum) hmem
        fun k _ hks => by rw [(hr.others k hks).2]
      simp only [hbox, hbox', List.countP_cons, List.countP_append, List.map_cons, List.map_append,
        List.sum_cons, List.sum_append] at hjoins hchores
      have hless : (selfMessages effects).countP isJoin = 0 ∧
          (isJoin m = true ∨ ((selfMessages effects).map chore).sum < chore m) := by
        rcases h.quiet_of_free hr hcost with hquiet | ⟨rfl, hself⟩
        · exact chores_of_quiet hquiet hr.result
        · rw [hself]
          exact ⟨rfl, .inr Nat.one_pos⟩
      simp only [joins, chores]
      obtain ⟨hnojoin, hjoin | hchore⟩ := hless
      · rw [if_pos hjoin] at hjoins
        omega
      · split at hjoins <;> omega

/-- As long as something is left to do, something can happen. -/
theorem Prompt.next (h : R.Prompt net) (hh : R.Holds net) (htracks : R.Tracks net)
    (htwo : ∀ s, R.Accompanied s) (hleft : ¬ Still net) :
    ∃ l net', net.isUnattended l = true ∧ net.step R.N l = some net' ∧
      R.ahead net' < R.ahead net := by
  cases hflight : net.flight with
  | cons d flight =>
      obtain ⟨net', hnet'⟩ : ∃ net', net.step R.N (.deliver 0) = some net' := by
        have hd : net.flight[0]? = some d := by rw [hflight, List.getElem?_cons_zero]
        simp only [Net.step, deliver, hd]
        split
        · exact ⟨_, rfl⟩
        · split <;> exact ⟨_, rfl⟩
      have hsteady : net.isSteady (.deliver 0) = true := rfl
      have hpaid := (potential_step hh htracks htwo hnet' hsteady).2
      refine ⟨.deliver 0, net', rfl, hnet', ?_⟩
      rw [ahead, ahead, Prod.Lex.toLex_lt_toLex]
      exact .inl hpaid
  | nil =>
      obtain ⟨s, hs⟩ : ∃ s, net.mailbox s ≠ [] := by
        by_contra hnone
        exact hleft ⟨fun s => not_not.1 fun hs => hnone ⟨s, hs⟩, hflight⟩
      cases hp : net.procs s with
      | none => exact absurd (mailbox_of_dead (by rw [srv, hp]; rfl)) hs
      | some p =>
          rw [mailbox_of_procs hp] at hs
          obtain ⟨m, rest, hbox⟩ := List.exists_cons_of_ne_nil hs
          have hsrv : net.srv s = some p.srv := srv_eq_some.2 ⟨p, hp, rfl⟩
          have hudp := (hh.members s p.srv hsrv).udpSender
          have hans : net.answers p.srv m .up = true := by
            cases m <;> rfl
          cases hresult : p.srv.handle R.N .up m with
          | none => exact absurd hresult (Server.handle_ne_none hudp)
          | some r =>
              obtain ⟨t, effects⟩ := r
              have hr := Net.handles hp hbox hans hresult
              have hstep : net.step R.N (.recv s .up) =
                  some (net.handled s p m rest .up t effects) := by
                simp only [Net.step, recv, hp, hbox, if_pos hans, hresult]
              refine ⟨.recv s .up, _, ?_, hstep,
                ahead_handles hh htracks (htwo s) hr (h.timely hh .up)⟩
              have hanswered : net.answered s = true := by
                rw [Net.answered, hflight, List.all_nil]
              simp only [isUnattended, isPrompt, Bool.and_true]
              split
              · exact hanswered
              · rfl

/-! ## Runs -/

/-- A client that looks for the leader finds the only server that listens. -/
theorem connectToServerLeader_of_only {listening : ℕ → Bool} {N g : ℕ} (hg : g ∈ ring N)
    (hlistens : listening g = true) (honly : ∀ k, listening k = true → k = g) :
    connectToServerLeader listening N = some g := by
  rw [mem_ring] at hg
  induction N with
  | zero => omega
  | succ N ih =>
      rw [connectToServerLeader]
      split
      · next h => rw [honly _ h]
      · next h =>
          have hne : g ≠ N + 1 := fun heq => h (heq ▸ hlistens)
          exact ih ⟨hg.1, by omega⟩

/-- The group during an election in which no acknowledgement is late. -/
structure Underway (R : Round) (first net : Net) : Prop where
  electing : R.Electing first net
  tracks : R.Tracks net
  prompt : R.Prompt net

theorem Underway.step {first : Net} (h : R.Underway first net) (htwo : ∀ s, R.Accompanied s)
    (hok : net.isPrompt l = true) (hstep : net.step R.N l = some net') :
    R.Underway first net' := by
  have hholds := h.electing.holds
  have hsteady := h.prompt.isSteady hholds hok
  exact ⟨h.electing.step hstep hsteady, (potential_step hholds h.tracks htwo hstep hsteady).1,
    h.prompt.step hholds hstep hok⟩

theorem Ready.underway (h : R.Ready net)
    (hdead : ∀ s ∈ R.L, ∀ q, q ∉ R.L → ∀ m, .delivered s (net.boots s) q m ∉ net.log) :
    R.Underway net net :=
  ⟨⟨h.holds, .inl h.voting, [], rfl, by simp⟩, h.tracks, h.prompt hdead⟩

/-- The servers come to rest by themselves. -/
theorem Underway.settles {first : Net} (h : R.Underway first net) (htwo : ∀ s, R.Accompanied s)
    (hs : .cleared s ∈ net.log) :
    ∃ ls last, Run (Net.step R.N) (fun net l => net.isUnattended l = true) net ls last ∧
      (R.Underway first last ∧ .cleared s ∈ last.log) ∧ Still last := by
  refine exists_run_to (f := R.ahead) ?_ ⟨h, hs⟩
  rintro a ⟨ha, hcleared⟩ hleft
  obtain ⟨l, b, hok, hstep, hless⟩ := ha.prompt.next ha.electing.holds ha.tracks htwo hleft
  have hprompt : a.isPrompt l = true := (Bool.and_eq_true _ _ ▸ hok).1
  exact ⟨l, b, hok, hstep, ⟨ha.step htwo hprompt hstep, (step_cases hstep).mem_log hcleared⟩,
    hless⟩

/-- Once the servers agree, nobody but the leader listens. -/
theorem Holds.leader_found (h : R.Holds net)
    (hagree : ∀ s ∈ R.L, ∃ srv, net.srv s = some srv ∧ srv.idLeader = R.greatest ∧
      (srv.imLeader = true ↔ s = R.greatest)) :
    connectToServerLeader net.listening R.N = some R.greatest := by
  refine connectToServerLeader_of_only (R.inRing _ R.greatest_mem) ?_ fun k hk => ?_
  · obtain ⟨srv, hsrv, -, him⟩ := hagree _ R.greatest_mem
    exact listening_iff.2 ⟨srv, hsrv, him.2 rfl⟩
  · obtain ⟨srv, hsrv, him⟩ := listening_iff.1 hk
    obtain ⟨srv', hsrv', -, him'⟩ := hagree k (h.mem hsrv)
    obtain rfl := Option.some.inj (hsrv.symm.trans hsrv')
    exact him'.1 him

/-- **Elections succeed.** Let the leader crash while the live replicas are in their start-up
    states. From then on let no server come or go and no datagram be lost or duplicated, and let
    datagrams be faster than the sleep of `WaitForNeighborAck`. However many elections are begun,
    the number of election steps is bounded, and from every state in which somebody has noticed the
    crash the servers can come to rest by themselves: all live servers follow the greatest of them,
    and whoever looks for the leader reaches it. -/
theorem elections_succeed {ls : List Label} (hstart : R.StartUp net) (htwo : 1 < R.L.card)
    (hdead : ∀ s ∈ R.L, ∀ q, q ∉ R.L → ∀ m, .delivered s (net.boots s) q m ∉ net.log)
    (hrun : Run (step R.N) (fun net l => net.isPrompt l = true) net ls net')
    (hbegun : ∃ s, .cleared s ∈ net'.log) :
    net.electionSteps R.N ls ≤ R.L.card * (9 + 7 * R.N + R.L.card * (2 * R.N + 8)) ∧
    ∃ ls' last, Run (step R.N) (fun net l => net.isUnattended l = true) net' ls' last ∧
      Still last ∧
      (∀ s ∈ R.L, ∃ srv, last.srv s = some srv ∧ srv.idLeader = R.greatest ∧
        (srv.imLeader = true ↔ s = R.greatest)) ∧
      connectToServerLeader last.listening R.N = some R.greatest := by
  have hothers : ∀ s, R.Accompanied s := Finset.exists_mem_ne htwo
  have hfirst := hstart.ready.underway hdead
  have hinv : ∀ a l b, R.Underway net a → a.isPrompt l = true → a.step R.N l = some b →
      R.Underway net b := fun _ _ _ ha hok hstep => ha.step hothers hok hstep
  constructor
  · exact elections_end hstart.ready htwo (hrun.mono_of_invariant hinv
      (fun _ _ ha hok => ha.prompt.isSteady ha.electing.holds hok) hfirst)
  · obtain ⟨s, hs⟩ := hbegun
    obtain ⟨ls', last, hrun', ⟨hlast, hcleared⟩, hstill⟩ :=
      (hrun.invariant hinv hfirst).settles hothers hs
    -- nobody had noticed before the run
    obtain ⟨new, hlog, -⟩ := hlast.electing.begun
    rw [hlog] at hcleared
    have hnew := (List.mem_append.1 hcleared).resolve_right (hstart.log s)
    have hagree := hlast.electing.agree hstill hlog ⟨s, _, hnew, by simp [takesPart]⟩
    exact ⟨ls', last, hrun', hstill, hagree, hlast.electing.holds.leader_found hagree⟩

/-- In the middle of two elections, something is left to do, and it will be done. -/
theorem elections_succeed_twoElections : ∃ net : Net, net.flight ≠ [] ∧
    ∃ ls last, Run (step 3) (fun net l => net.isUnattended l = true) net ls last ∧
      connectToServerLeader last.listening 3 = some 3 := by
  obtain ⟨net, hrun, hmid⟩ := exists_run_of_exec isPrompt bothConnected (twoElections.take 6)
    (fun net => !net.flight.isEmpty && decide (.cleared 2 ∈ net.log))
    (show (exec (step 3) _ _ _).any _ = true by decide +kernel)
  simp only [Bool.and_eq_true, Bool.not_eq_true', List.isEmpty_eq_false_iff,
    decide_eq_true_eq] at hmid
  obtain ⟨-, ls, last, hrun', -, -, hleader⟩ := elections_succeed startUp_bothConnected (by decide)
    (by simp [bothConnected]) hrun ⟨2, hmid.2⟩
  exact ⟨net, hmid.1, ls, last, hrun', hleader⟩

end Round

end ConcuRide
