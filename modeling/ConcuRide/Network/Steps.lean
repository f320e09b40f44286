import ConcuRide.Lib.Run
import ConcuRide.Network.Basic
import ConcuRide.Server.Ring

set_option autoImplicit false

/-! # The steps of the group

`Net.Step` lists what the steps of the group do; the lemmas beside it say what the operations on the
group change and what they leave alone. `Net.Valid` collects what holds in every state of every run:
which servers there are and which of them take part in elections. -/

namespace ConcuRide.Net

open Lib

variable {N : ℕ} {net net' : Net} {l : Label}

/-! ## Looking at the servers -/

theorem srv_eq_some {k : ℕ} {s : Server} :
    net.srv k = some s ↔ ∃ p, net.procs k = some p ∧ p.srv = s := by
  simp [srv]

theorem live_iff {k : ℕ} : net.live k = true ↔ ∃ s, net.srv k = some s := by
  simp [live, srv, Option.isSome_iff_exists]

theorem hasUdp_iff {k : ℕ} :
    net.hasUdp k = true ↔ ∃ s, net.srv k = some s ∧ s.udpSender = true := by
  cases h : net.procs k <;> simp [hasUdp, srv, h]

theorem procs_of_hasUdp {k : ℕ} (h : net.hasUdp k = true) : ∃ p, net.procs k = some p := by
  obtain ⟨s, hs, -⟩ := hasUdp_iff.1 h
  obtain ⟨p, hp, -⟩ := srv_eq_some.1 hs
  exact ⟨p, hp⟩

theorem listening_iff {k : ℕ} :
    net.listening k = true ↔ ∃ s, net.srv k = some s ∧ s.imLeader = true := by
  cases h : net.procs k <;> simp [listening, srv, h]

theorem mailbox_of_procs {k : ℕ} {p : Proc} (hp : net.procs k = some p) :
    net.mailbox k = p.mailbox := by
  simp [mailbox, hp]

theorem mailbox_of_dead {k : ℕ} (hk : net.srv k = none) : net.mailbox k = [] := by
  have : net.procs k = none := by simpa [srv] using hk
  simp [mailbox, this]

section Operations

variable {s k : ℕ} {m x : Msg} {p : Proc} {rest : List Msg} {o : Oracle} {t : Server}
  {effects : List Effect}

@[simp] theorem srv_enqueue : (net.enqueue s m).srv k = net.srv k := by
  unfold srv enqueue
  by_cases h : k = s
  · subst h; simp [Function.update_self, Function.comp_def]
  · simp [Function.update_of_ne h]

theorem mailbox_enqueue (hs : net.procs s = some p) :
    (net.enqueue s m).mailbox k = if k = s then net.mailbox k ++ [m] else net.mailbox k := by
  unfold mailbox enqueue
  by_cases h : k = s
  · subst h; simp [Function.update_self, hs]
  · simp [h]

@[simp] theorem log_enqueue : (net.enqueue s m).log = net.log := rfl

@[simp] theorem flight_enqueue : (net.enqueue s m).flight = net.flight := rfl

@[simp] theorem boots_enqueue : (net.enqueue s m).boots = net.boots := rfl

@[simp] theorem srv_received {i : ℕ} {d : Packet} {e : ElectionMsg} :
    (net.received i d e).srv k = net.srv k := srv_enqueue

theorem mailbox_received {i : ℕ} {d : Packet} {e : ElectionMsg} (hd : net.procs d.dst = some p) :
    (net.received i d e).mailbox k =
      if k = d.dst then net.mailbox k ++ [e.toMsg] else net.mailbox k :=
  mailbox_enqueue hd

theorem srv_crash : (net.crash s).srv k = if k = s then none else net.srv k := by
  unfold srv crash
  by_cases h : k = s
  · subst h; simp
  · simp [h]

theorem mailbox_crash :
    (net.crash s).mailbox k = if k = s then [] else net.mailbox k := by
  unfold mailbox crash
  by_cases h : k = s
  · subst h; simp
  · simp [h]

@[simp] theorem log_crash : (net.crash s).log = net.log := rfl

theorem srv_handled :
    (net.handled s p m rest o t effects).srv k = if k = s then some t else net.srv k := by
  unfold srv handled
  by_cases h : k = s
  · subst h; simp
  · simp [h]

theorem mailbox_handled : (net.handled s p m rest o t effects).mailbox k =
    if k = s then rest ++ selfMessages effects else net.mailbox k := by
  unfold mailbox handled
  by_cases h : k = s
  · subst h; simp
  · simp [h]

theorem srv_boot :
    (net.boot N s).srv k = if k = s then some (Server.replica N s) else net.srv k := by
  unfold srv boot
  by_cases h : k = s
  · subst h; simp
  · simp [h]

theorem mailbox_boot : (net.boot N s).mailbox k = if k = s then [] else net.mailbox k := by
  unfold mailbox boot
  by_cases h : k = s
  · subst h; simp
  · simp [h]

theorem mem_packets {d : Packet} (h : d ∈ net.packets s effects) :
    d.src = s ∧ d.session = net.boots s ∧ net.hasUdp d.dst = true ∧
      ∃ e, d.body = .msg e ∧ (d.dst, e) ∈ datagrams effects := by
  obtain ⟨⟨dst, e⟩, hmem, rfl⟩ := List.mem_map.1 h
  obtain ⟨hdg, hudp⟩ := List.mem_filter.1 hmem
  exact ⟨rfl, rfl, hudp, e, rfl, hdg⟩

end Operations

/-! ## What a step does -/

/-- What the steps of the group do. -/
inductive Step (N : ℕ) (net : Net) : Label → Net → Prop
  | recv {s : ℕ} {o : Oracle} {p : Proc} {m : Msg} {rest : List Msg} {t : Server}
      {effects : List Effect} (hp : net.procs s = some p) (hbox : p.mailbox = m :: rest)
      (hans : net.answers p.srv m o = true) (hh : p.srv.handle N o m = some (t, effects)) :
      Step N net (.recv s o) (net.handled s p m rest o t effects)
  | panic {s : ℕ} {o : Oracle} {p : Proc} {m : Msg} {rest : List Msg}
      (hp : net.procs s = some p) (hbox : p.mailbox = m :: rest)
      (hh : p.srv.handle N o m = none) : Step N net (.recv s o) (net.crash s)
  | post {s : ℕ} {m : Msg} {p : Proc} (hp : net.procs s = some p)
      (hm : reaches p.srv m = true) : Step N net (.post s m) (net.enqueue s m)
  | deliverLost {i : ℕ} {d : Packet} (hd : net.flight[i]? = some d)
      (hudp : net.hasUdp d.dst = false) :
      Step N net (.deliver i) { net with flight := net.flight.eraseIdx i }
  | deliverAck {i : ℕ} {d : Packet} {a : NeighborAck} (hd : net.flight[i]? = some d)
      (hudp : net.hasUdp d.dst = true) (hb : d.body = .ack a) :
      Step N net (.deliver i)
        ({ net with flight := net.flight.eraseIdx i }.enqueue d.dst (.neighborAck a))
  | deliverMsg {i : ℕ} {d : Packet} {e : ElectionMsg} (hd : net.flight[i]? = some d)
      (hudp : net.hasUdp d.dst = true) (hb : d.body = .msg e) :
      Step N net (.deliver i) (net.received i d e)
  | drop {i : ℕ} : Step N net (.drop i) { net with flight := net.flight.eraseIdx i }
  | duplicate {i : ℕ} {d : Packet} (hd : net.flight[i]? = some d) :
      Step N net (.duplicate i) { net with flight := net.flight ++ [d] }
  | pongLost {i : ℕ} : Step N net (.pongArrives i) { net with pongs := net.pongs.eraseIdx i }
  | pongArrives {i : ℕ} {line : PongLine} (hline : net.pongs[i]? = some line)
      (hup : net.isUp line.dst line.session = true) :
      Step N net (.pongArrives i)
        ({ net with pongs := net.pongs.eraseIdx i }.enqueue line.dst
          (.updateNetworkState line.state))
  | silence {s : ℕ} {p : Proc} (hp : net.procs s = some p) (hd : p.dialled = true) :
      Step N net (.silence s) (net.enqueue s .startElection)
  | crash {s : ℕ} (hs : net.live s = true) : Step N net (.crash s) (net.crash s)
  | boot {s : ℕ} (hs : net.live s = false) (hring : s ∈ ring N) :
      Step N net (.boot s) (net.boot N s)
  | dialFailed {s : ℕ} : Step N net (.dial s) (net.crash s)
  | dial {s : ℕ} {p : Proc} {k leaderId : ℕ} (hp : net.procs s = some p)
      (hd : p.dialled = false) (hudp : p.srv.udpSender = true)
      (hk : dialLeader N net.listening s = some (k, leaderId)) :
      Step N net (.dial s)
        { net with
          procs := Function.update net.procs s
            (some { p with
              mailbox := p.mailbox ++
                [.setLeader { idLeader := leaderId, leaderConnection := ⟨k, net.boots k⟩ }]
              dialled := true }) }

theorem step_cases (h : net.step N l = some net') : Step N net l net' := by
  cases l with
  | recv s o =>
      simp only [step, recv] at h
      split at h
      · simp at h
      · next p hp =>
          split at h
          · simp at h
          · next m rest hbox =>
              split at h
              · next hans =>
                  split at h
                  · next hh =>
                      obtain rfl := Option.some.inj h
                      exact .panic hp hbox hh
                  · next t effects hh =>
                      obtain rfl := Option.some.inj h
                      exact .recv hp hbox hans hh
              · simp at h
  | post s m =>
      simp only [step] at h
      split at h
      · next hm =>
          obtain rfl := Option.some.inj h
          obtain ⟨p, hp, hm⟩ := Option.any_eq_true _ _ |>.1 hm
          exact .post hp hm
      · simp at h
  | deliver i =>
      simp only [step, deliver] at h
      split at h
      · simp at h
      · next d hd =>
          split at h
          · next hudp =>
              obtain rfl := Option.some.inj h
              exact .deliverLost hd (by simpa using hudp)
          · next hudp =>
              have hudp : net.hasUdp d.dst = true := by simpa using hudp
              split at h
              · next a hb =>
                  obtain rfl := Option.some.inj h
                  exact .deliverAck hd hudp hb
              · next e hb =>
                  obtain rfl := Option.some.inj h
                  exact .deliverMsg hd hudp hb
  | drop i =>
      simp only [step] at h
      split at h
      · obtain rfl := Option.some.inj h
        exact .drop
      · simp at h
  | duplicate i =>
      obtain ⟨d, hd, rfl⟩ := Option.map_eq_some_iff.1 h
      exact .duplicate hd
  | pongArrives i =>
      simp only [step, pongArrives] at h
      split at h
      · simp at h
      · next line hline =>
          split at h
          · simp at h
          · split at h
            · next hup =>
                obtain rfl := Option.some.inj h
                exact .pongArrives hline hup
            · obtain rfl := Option.some.inj h
              exact .pongLost
  | silence s =>
      simp only [step] at h
      split at h
      · next hd =>
          obtain rfl := Option.some.inj h
          obtain ⟨p, hp, hd⟩ := Option.any_eq_true _ _ |>.1 hd
          exact .silence hp hd
      · simp at h
  | crash s =>
      simp only [step] at h
      split at h
      · next hs =>
          obtain rfl := Option.some.inj h
          exact .crash hs
      · simp at h
  | boot s =>
      simp only [step] at h
      split at h
      · next hs =>
          obtain rfl := Option.some.inj h
          exact .boot (by simpa using hs.1) hs.2
      · simp at h
  | dial s =>
      simp only [step, dial] at h
      split at h
      · simp at h
      · next p hp =>
          split at h
          · simp at h
          · next hd =>
              simp only [Bool.or_eq_true, Bool.not_eq_eq_eq_not, Bool.not_true, not_or,
                Bool.not_eq_true, Bool.not_eq_false] at hd
              split at h
              · obtain rfl := Option.some.inj h
                exact .dialFailed
              · next k leaderId hk =>
                  obtain rfl := Option.some.inj h
                  exact .dial hp hd.1 hd.2 hk

/-! ## Where things come from -/

/-- Server `s` handles `m`, the first message of its mailbox: the state of the server before and
    after, what it sends to itself and the datagrams it sends. -/
structure Handles (N : ℕ) (net net' : Net) (s : ℕ) (o : Oracle) (before : Server) (m : Msg)
    (after : Server) (effects : List Effect) : Prop where
  srvBefore : net.srv s = some before
  mailbox : ∃ rest, net.mailbox s = m :: rest ∧
    net'.mailbox s = rest ++ selfMessages effects
  answers : net.answers before m o = true
  result : before.handle N o m = some (after, effects)
  handled : before.Handled N o m after (selfMessages effects) (datagrams effects)
  srvAfter : net'.srv s = some after
  others : ∀ k, k ≠ s → net'.srv k = net.srv k ∧ net'.mailbox k = net.mailbox k
  boots : net'.boots = net.boots
  flight : net'.flight = net.flight ++ net.packets s effects
  pongs : net'.pongs = net.pongs ++ net.pongLines s effects
  log : net'.log = sentEvents s effects ++ clearedEvents s before after ++
    handledEvents s o before m ++ net.log

theorem handles {s : ℕ} {o : Oracle} {p : Proc} {m : Msg} {rest : List Msg} {t : Server}
    {effects : List Effect} (hp : net.procs s = some p) (hbox : p.mailbox = m :: rest)
    (hans : net.answers p.srv m o = true) (hh : p.srv.handle N o m = some (t, effects)) :
    Handles N net (net.handled s p m rest o t effects) s o p.srv m t effects where
  srvBefore := srv_eq_some.2 ⟨p, hp, rfl⟩
  mailbox := ⟨rest, (mailbox_of_procs hp).trans hbox, by rw [mailbox_handled, if_pos rfl]⟩
  answers := hans
  result := hh
  handled := Server.handle_cases hh
  srvAfter := by rw [srv_handled, if_pos rfl]
  others := fun k hk => by rw [srv_handled, mailbox_handled, if_neg hk, if_neg hk]; exact ⟨rfl, rfl⟩
  boots := rfl
  flight := rfl
  pongs := rfl
  log := rfl

theorem Handles.queued {s : ℕ} {o : Oracle} {before after : Server} {m : Msg}
    {effects : List Effect} (h : Handles N net net' s o before m after effects) :
    net.Queued s m := by
  obtain ⟨rest, hbox, -⟩ := h.mailbox
  rw [Queued, hbox]
  exact List.mem_cons_self

/-- Who runs after a message was handled. -/
theorem Handles.srv_cases {s k : ℕ} {o : Oracle} {before after t : Server} {m : Msg}
    {effects : List Effect} (h : Handles N net net' s o before m after effects)
    (ht : net'.srv k = some t) : (k = s ∧ t = after) ∨ (k ≠ s ∧ net.srv k = some t) := by
  by_cases hk : k = s
  · subst hk
    exact .inl ⟨rfl, Option.some.inj (ht.symm.trans h.srvAfter)⟩
  · exact .inr ⟨hk, (h.others k hk).1 ▸ ht⟩

/-- What waits after a message was handled. -/
theorem Handles.queued_cases {s k : ℕ} {o : Oracle} {before after : Server} {m x : Msg}
    {effects : List Effect} (h : Handles N net net' s o before m after effects)
    (hx : net'.Queued k x) : net.Queued k x ∨ (k = s ∧ x ∈ selfMessages effects) := by
  by_cases hk : k = s
  · subst hk
    obtain ⟨rest, hbox, hbox'⟩ := h.mailbox
    rw [Queued, hbox'] at hx
    rw [Queued, hbox]
    exact (List.mem_append.1 hx).imp (List.mem_cons_of_mem m) fun hx => ⟨rfl, hx⟩
  · rw [Queued, (h.others k hk).2] at hx
    exact .inl hx

/-- Whatever waited still does, apart from the message that was handled. -/
theorem Handles.still_queued {s k : ℕ} {o : Oracle} {before after : Server} {m x : Msg}
    {effects : List Effect} (h : Handles N net net' s o before m after effects)
    (hx : net.Queued k x) (hne : x ≠ m) : net'.Queued k x := by
  by_cases hk : k = s
  · subst hk
    obtain ⟨rest, hbox, hbox'⟩ := h.mailbox
    rw [Queued, hbox] at hx
    rw [Queued, hbox']
    exact List.mem_append_left _ ((List.mem_cons.1 hx).resolve_left hne)
  · rwa [Queued, (h.others k hk).2]

theorem Handles.self_queued {s : ℕ} {o : Oracle} {before after : Server} {m x : Msg}
    {effects : List Effect} (h : Handles N net net' s o before m after effects)
    (hx : x ∈ selfMessages effects) : net'.Queued s x := by
  obtain ⟨rest, -, hbox'⟩ := h.mailbox
  rw [Queued, hbox']
  exact List.mem_append_right _ hx

/-- What is remembered of server `s` handling `m`. -/
inductive Remembered (s : ℕ) (o : Oracle) (before : Server) (m : Msg) (after : Server)
    (effects : List Effect) : Event → Prop
  | sent {q : ℕ} {e : ElectionMsg} (h : (q, e) ∈ datagrams effects) :
      Remembered s o before m after effects (.sent s e)
  | cleared (hbefore : before.leaderConnection ≠ none) (hafter : after.leaderConnection = none) :
      Remembered s o before m after effects (.cleared s)
  | heard {m' : NewLeader} (hm : m = .newLeader m') :
      Remembered s o before m after effects (.heard s m')
  | joined {m' : SetLeader} (hm : m = .setLeader m') :
      Remembered s o before m after effects (.joined s)
  | stopped {c : CheckIfNeighborAcked} (hm : m = .checkIfNeighborAcked c)
      (hc : c.sequenceNumber ∈ before.messageReceivedAck) :
      Remembered s o before m after effects (.stopped s c.serializedMsg)
  | gaveUp (hm : m = .connectToServer) (ho : o.stream = none) :
      Remembered s o before m after effects (.gaveUp s)

theorem remembered_of_mem {s : ℕ} {o : Oracle} {before after : Server} {m : Msg}
    {effects : List Effect} {e : Event} (he : e ∈ sentEvents s effects ++
      clearedEvents s before after ++ handledEvents s o before m) :
    Remembered s o before m after effects e := by
  rcases List.mem_append.1 he with he | he
  · rcases List.mem_append.1 he with he | he
    · obtain ⟨⟨q, e⟩, hmem, rfl⟩ := List.mem_map.1 he
      exact .sent hmem
    · unfold clearedEvents at he
      split at he
      · next h =>
          obtain rfl := List.mem_singleton.1 he
          simp only [Bool.and_eq_true, Option.isNone_iff_eq_none] at h
          exact .cleared (Option.isSome_iff_ne_none.1 h.1) h.2
      · simp at he
  · cases m with
    | newLeader m =>
        obtain rfl := List.mem_singleton.1 he
        exact .heard rfl
    | setLeader m =>
        obtain rfl := List.mem_singleton.1 he
        exact .joined rfl
    | checkIfNeighborAcked c =>
        simp only [handledEvents] at he
        split at he
        · next hc =>
            obtain rfl := List.mem_singleton.1 he
            exact .stopped rfl hc
        · simp at he
    | connectToServer =>
        simp only [handledEvents] at he
        split at he
        · next ho =>
            obtain rfl := List.mem_singleton.1 he
            exact .gaveUp rfl (Option.isNone_iff_eq_none.1 ho)
        · simp at he
    | _ => simp [handledEvents] at he

/-- How a step brings message `x` to server `k`. -/
inductive Arrives (N : ℕ) (net net' : Net) : Label → ℕ → Msg → Prop
  | posted {s : ℕ} {m : Msg} {srv : Server} (hs : net.srv s = some srv)
      (hm : reaches srv m = true) : Arrives N net net' (.post s m) s m
  | ack {i : ℕ} {d : Packet} {a : NeighborAck} (hd : d ∈ net.flight) (hb : d.body = .ack a)
      (hudp : net.hasUdp d.dst = true) :
      Arrives N net net' (.deliver i) d.dst (.neighborAck a)
  | msg {i : ℕ} {d : Packet} {e : ElectionMsg} {x : Msg} (hx : x = e.toMsg)
      (hd : d ∈ net.flight) (hb : d.body = .msg e) (hudp : net.hasUdp d.dst = true)
      (hlog : net'.log = .delivered d.src d.session d.dst e :: net.log) :
      Arrives N net net' (.deliver i) d.dst x
  | pong {i : ℕ} {line : PongLine} (hline : line ∈ net.pongs) :
      Arrives N net net' (.pongArrives i) line.dst (.updateNetworkState line.state)
  | silence {s : ℕ} {p : Proc} (hp : net.procs s = some p) (hd : p.dialled = true) :
      Arrives N net net' (.silence s) s .startElection
  | dial {s k leaderId : ℕ} {srv : Server} (hs : net.srv s = some srv)
      (hudp : srv.udpSender = true) (hk : dialLeader N net.listening s = some (k, leaderId)) :
      Arrives N net net' (.dial s) s
        (.setLeader { idLeader := leaderId, leaderConnection := ⟨k, net.boots k⟩ })

/-- **The mailbox of a server** stays as it is, is emptied by the end or the start of the server,
    grows by a message that arrives, or loses the message that is handled and gets what the server
    sends itself. -/
theorem Step.mailbox_cases (h : Step N net l net') (k : ℕ) :
    net'.mailbox k = net.mailbox k ∨
      (net'.mailbox k = [] ∧ (net'.srv k = none ∨ (l = .boot k ∧ net.srv k = none))) ∨
      (∃ x, Arrives N net net' l k x ∧ net'.mailbox k = net.mailbox k ++ [x]) ∨
      (∃ o before m after effects, l = .recv k o ∧
        Handles N net net' k o before m after effects) := by
  -- a message that arrives at `s`
  have grows : ∀ {s x p}, net.procs s = some p → Arrives N net net' l s x →
      net'.mailbox k = (net.enqueue s x).mailbox k →
      net'.mailbox k = net.mailbox k ∨
      (net'.mailbox k = [] ∧ (net'.srv k = none ∨ (l = .boot k ∧ net.srv k = none))) ∨
      (∃ x, Arrives N net net' l k x ∧ net'.mailbox k = net.mailbox k ++ [x]) ∨
      (∃ o before m after effects, l = .recv k o ∧
        Handles N net net' k o before m after effects) := by
    intro s x p hs hx heq
    rw [mailbox_enqueue hs] at heq
    split at heq
    · next hk =>
        subst hk
        exact .inr (.inr (.inl ⟨x, hx, heq⟩))
    · exact .inl heq
  cases h with
  | recv hp hbox hans hh =>
      rename_i s o p m rest t effects
      have hr := handles hp hbox hans hh
      by_cases hk : k = s
      · subst hk
        exact .inr (.inr (.inr ⟨o, _, m, _, effects, rfl, hr⟩))
      · exact .inl (hr.others k hk).2
  | panic | crash | dialFailed =>
      rw [mailbox_crash, srv_crash]
      split
      · exact .inr (.inl ⟨rfl, .inl rfl⟩)
      · exact .inl rfl
  | post hp hm => exact grows hp (.posted (srv_eq_some.2 ⟨_, hp, rfl⟩) hm) rfl
  | deliverLost | drop | duplicate | pongLost => exact .inl rfl
  | deliverAck hd hudp hb =>
      obtain ⟨p, hp⟩ := procs_of_hasUdp hudp
      exact grows hp (.ack (List.mem_of_getElem? hd) hb hudp) rfl
  | deliverMsg hd hudp hb =>
      obtain ⟨p, hp⟩ := procs_of_hasUdp hudp
      exact grows hp (.msg rfl (List.mem_of_getElem? hd) hb hudp rfl) rfl
  | pongArrives hline hup =>
      simp only [isUp, live, Bool.and_eq_true] at hup
      obtain ⟨p, hp⟩ := Option.isSome_iff_exists.1 hup.1
      exact grows hp (.pong (List.mem_of_getElem? hline)) rfl
  | silence hp hd => exact grows hp (.silence hp hd) rfl
  | boot hs =>
      rw [mailbox_boot]
      split
      · next hk =>
          subst hk
          exact .inr (.inl ⟨rfl, .inr ⟨rfl, by simpa [live, srv] using hs⟩⟩)
      · exact .inl rfl
  | dial hp hd hudp hk =>
      rename_i s p k' leaderId
      by_cases hks : k = s
      · subst hks
        refine .inr (.inr (.inl ⟨_, .dial (srv_eq_some.2 ⟨_, hp, rfl⟩) hudp hk, ?_⟩))
        simp [mailbox, hp]
      · left
        simp [mailbox, hks]

/-- **A message in a mailbox** was there before the step, arrives with the step, or is sent by the
    server to itself. -/
theorem Step.queued_cases (h : Step N net l net') {k : ℕ} {x : Msg} (hq : net'.Queued k x) :
    net.Queued k x ∨ Arrives N net net' l k x ∨
      (∃ o before m after effects, l = .recv k o ∧
        Handles N net net' k o before m after effects ∧ x ∈ selfMessages effects) := by
  unfold Queued at hq ⊢
  rcases h.mailbox_cases k with heq | ⟨heq, -⟩ | ⟨y, hy, heq⟩ |
    ⟨o, before, m, after, effects, hl, hr⟩
  · exact .inl (heq ▸ hq)
  · rw [heq] at hq
    simp at hq
  · rw [heq] at hq
    rcases List.mem_append.1 hq with hq | hq
    · exact .inl hq
    · obtain rfl := List.mem_singleton.1 hq
      exact .inr (.inl hy)
  · obtain ⟨rest, hbox, hbox'⟩ := hr.mailbox
    rw [hbox'] at hq
    rcases List.mem_append.1 hq with hq | hq
    · exact .inl (hbox ▸ List.mem_cons_of_mem _ hq)
    · exact .inr (.inr ⟨o, before, m, after, effects, hl, hr, hq⟩)

/-- **A running server** ran before the step and kept its state, handled a message, or was
    started. -/
theorem Step.srv_cases (h : Step N net l net') {k : ℕ} {t : Server} (ht : net'.srv k = some t) :
    net.srv k = some t ∨
      (∃ o before m effects, l = .recv k o ∧ Handles N net net' k o before m t effects) ∨
      (l = .boot k ∧ net.srv k = none ∧ k ∈ ring N ∧ t = Server.replica N k) := by
  cases h with
  | recv hp hbox hans hh =>
      rename_i s o p m rest t' effects
      have hrecv := handles hp hbox hans hh
      by_cases hk : k = s
      · subst hk
        obtain rfl := Option.some.inj (hrecv.srvAfter.symm.trans ht)
        exact .inr (.inl ⟨o, _, m, effects, rfl, hrecv⟩)
      · rw [(hrecv.others k hk).1] at ht
        exact .inl ht
  | panic | crash | dialFailed =>
      rw [srv_crash] at ht
      split at ht
      · simp at ht
      · exact .inl ht
  | post | pongArrives | silence | deliverAck =>
      rw [srv_enqueue] at ht
      exact .inl ht
  | deliverLost | drop | duplicate | pongLost => exact .inl ht
  | deliverMsg =>
      rw [srv_received] at ht
      exact .inl ht
  | boot hs hring =>
      rename_i s
      rw [srv_boot] at ht
      split at ht
      · next hk =>
          subst hk
          refine .inr (.inr ⟨rfl, ?_, hring, (Option.some.inj ht).symm⟩)
          simpa [live, srv] using hs
      · exact .inl ht
  | dial hp hd hudp hk =>
      rename_i s p k' leaderId
      left
      obtain ⟨p', hp', rfl⟩ := srv_eq_some.1 ht
      by_cases hks : k = s
      · subst hks
        simp only [Function.update_self] at hp'
        obtain rfl := Option.some.inj hp'
        exact srv_eq_some.2 ⟨p, hp, rfl⟩
      · simp only [Function.update_of_ne hks] at hp'
        exact srv_eq_some.2 ⟨p', hp', rfl⟩

/-- **A datagram under way** was under way before the step, was sent by the step, or acknowledges
    the datagram that the step delivered. -/
theorem Step.flight_cases (h : Step N net l net') {d : Packet} (hd : d ∈ net'.flight) :
    d ∈ net.flight ∨
      (∃ s o before m after effects, l = .recv s o ∧
        Handles N net net' s o before m after effects ∧ d ∈ net.packets s effects) ∨
      (∃ d' e, d' ∈ net.flight ∧ d'.body = .msg e ∧ net.hasUdp d'.src = true ∧
        net'.log = .delivered d'.src d'.session d'.dst e :: net.log ∧ d = net.ackOf d' e) := by
  cases h with
  | recv hp hbox hans hh =>
      rcases List.mem_append.1 hd with hd | hd
      · exact .inl hd
      · exact .inr (.inl ⟨_, _, _, _, _, _, rfl, handles hp hbox hans hh, hd⟩)
  | panic | crash | dialFailed => exact .inl (List.mem_filter.1 hd).1
  | post | pongArrives | silence | pongLost | boot | dial => exact .inl hd
  | deliverLost | drop | deliverAck => exact .inl (List.mem_of_mem_eraseIdx hd)
  | deliverMsg hd' hudp hb =>
      rcases List.mem_append.1 hd with hd | hd
      · exact .inl (List.mem_of_mem_eraseIdx hd)
      · split at hd
        · next hsrc =>
            exact .inr (.inr ⟨_, _, List.mem_of_getElem? hd', hb, hsrc, rfl,
              List.mem_singleton.1 hd⟩)
        · simp at hd
  | duplicate hd' =>
      rcases List.mem_append.1 hd with hd | hd
      · exact .inl hd
      · obtain rfl := List.mem_singleton.1 hd
        exact .inl (List.mem_of_getElem? hd')

/-- A `pong` line under way was under way before the step, or is sent by it. -/
theorem Step.pongs_cases (h : Step N net l net') {line : PongLine} (hline : line ∈ net'.pongs) :
    line ∈ net.pongs ∨ ∃ s o before m after effects, l = .recv s o ∧
      Handles N net net' s o before m after effects ∧ line ∈ net.pongLines s effects := by
  cases h with
  | recv hp hbox hans hh =>
      rcases List.mem_append.1 hline with hold | hnew
      · exact .inl hold
      · exact .inr ⟨_, _, _, _, _, _, rfl, handles hp hbox hans hh, hnew⟩
  | panic | crash | dialFailed => exact .inl (List.mem_filter.1 hline).1
  | pongArrives | pongLost => exact .inl (List.mem_of_mem_eraseIdx hline)
  | _ => exact .inl hline

theorem Handles.sent {s : ℕ} {o : Oracle} {before after : Server} {m : Msg}
    {effects : List Effect} (h : Handles N net net' s o before m after effects) {q : ℕ}
    {e : ElectionMsg} (he : (q, e) ∈ datagrams effects) : .sent s e ∈ net'.log := by
  rw [h.log]
  refine List.mem_append_left _ (List.mem_append_left _ (List.mem_append_left _ ?_))
  exact List.mem_map.2 ⟨(q, e), he, rfl⟩

/-- A running server is not started again. -/
theorem Step.boots_eq (h : Step N net l net') {k : ℕ} (hk : net.live k = true) :
    net'.boots k = net.boots k := by
  cases h with
  | boot hs hring =>
      rename_i s
      have hne : k ≠ s := by
        rintro rfl
        rw [hk] at hs
        simp at hs
      simp [Net.boot, hne]
  | _ => rfl

/-- How often a server was started changes when it is started. -/
theorem Step.boots_cases (h : Step N net l net') (k : ℕ) :
    net'.boots k = net.boots k ∨
      (l = .boot k ∧ net'.boots k = net.boots k + 1 ∧ net'.mailbox k = [] ∧ k ∈ ring N) := by
  cases h with
  | boot hs hring =>
      rename_i s
      by_cases hk : k = s
      · subst hk
        exact .inr ⟨rfl, by simp [Net.boot], by rw [mailbox_boot, if_pos rfl], hring⟩
      · exact .inl (by simp [Net.boot, hk])
  | _ => exact .inl rfl

/-- What a step remembers. -/
theorem Step.log_append (h : Step N net l net') : ∃ new, net'.log = new ++ net.log ∧
    ∀ e ∈ new,
      (∃ s o before m after effects, l = .recv s o ∧
        Handles N net net' s o before m after effects ∧
        Remembered s o before m after effects e) ∨
      (∃ i d m, l = .deliver i ∧ d ∈ net.flight ∧ d.body = .msg m ∧
        net.hasUdp d.dst = true ∧ e = .delivered d.src d.session d.dst m) ∨
      (∃ s, l = .boot s ∧ e = .booted s) := by
  cases h with
  | recv hp hbox hans hh =>
      have hrecv := handles hp hbox hans hh
      exact ⟨_, hrecv.log, fun e he =>
        .inl ⟨_, _, _, _, _, _, rfl, hrecv, remembered_of_mem he⟩⟩
  | deliverMsg hd hudp hb =>
      refine ⟨[_], rfl, fun e he => ?_⟩
      rw [List.mem_singleton.1 he]
      exact .inr (.inl ⟨_, _, _, rfl, List.mem_of_getElem? hd, hb, hudp, rfl⟩)
  | boot =>
      refine ⟨[_], rfl, fun e he => ?_⟩
      rw [List.mem_singleton.1 he]
      exact .inr (.inr ⟨_, rfl, rfl⟩)
  | _ => exact ⟨[], rfl, by simp⟩

theorem Step.log_cases (h : Step N net l net') {e : Event} (he : e ∈ net'.log) :
    e ∈ net.log ∨
      (∃ s o before m after effects, l = .recv s o ∧
        Handles N net net' s o before m after effects ∧
        Remembered s o before m after effects e) ∨
      (∃ i d m, l = .deliver i ∧ d ∈ net.flight ∧ d.body = .msg m ∧
        net.hasUdp d.dst = true ∧ e = .delivered d.src d.session d.dst m) ∨
      (∃ s, l = .boot s ∧ e = .booted s) := by
  obtain ⟨new, hlog, hnew⟩ := h.log_append
  rw [hlog] at he
  exact (List.mem_append.1 he).symm.imp_right (hnew e)

/-- The past is never forgotten. -/
theorem Step.mem_log (h : Step N net l net') {e : Event} (he : e ∈ net.log) : e ∈ net'.log := by
  obtain ⟨new, hlog, -⟩ := h.log_append
  rw [hlog]
  exact List.mem_append_right _ he

/-! ## The group in every run -/

/-- What holds of the group in every state of every run. -/
structure Valid (N : ℕ) (net : Net) : Prop where
  /-- a server knows its id, and its neighbour is a server -/
  ids : ∀ k s, net.srv k = some s → k ∈ ring N ∧ s.id = k ∧ s.actualNeighborId ∈ ring N
  /-- whoever runs was started, and only servers are -/
  started : ∀ k s, net.srv k = some s → net.boots k ≠ 0
  booted : ∀ k, net.boots k ≠ 0 → k ∈ ring N
  /-- `main` connects only replicas -/
  dialled : ∀ k p, net.procs k = some p → p.dialled = true → p.srv.udpSender = true
  /-- a process without UDP port is the first leader, and elections never concern it -/
  noUdp : ∀ k s, net.srv k = some s → s.udpSender = false →
    s.imLeader = true ∧ s.leaderConnection = none ∧
      ∀ m, net.Queued k m → m.isQuiet = true ∨ m = .ping

theorem getNeighborId_mem {k : ℕ} (hk : k ∈ ring N) : getNeighborId N k ∈ ring N :=
  getNeighborId_mapsTo N hk

theorem srv_start {i k : ℕ} :
    (start N i).srv k = if k = i then some (Server.lider N i) else none := by
  unfold srv start
  split <;> simp_all

@[simp] theorem mailbox_start {i k : ℕ} : (start N i).mailbox k = [] := by
  unfold mailbox start
  by_cases h : k = i <;> simp [h]

theorem not_queued_start {i k : ℕ} {m : Msg} : ¬ (start N i).Queued k m := by
  simp [Queued]

theorem valid_start {i : ℕ} (hi : i ∈ ring N) : Valid N (start N i) where
  ids := fun k s hs => by
    rw [srv_start] at hs
    split at hs
    · next hk =>
        obtain rfl := Option.some.inj hs
        subst hk
        exact ⟨hi, rfl, getNeighborId_mem hi⟩
    · simp at hs
  started := fun k s hs => by
    rw [srv_start] at hs
    split at hs
    · next hk => simp [start, hk]
    · simp at hs
  booted := fun k hk => by
    simp only [start] at hk
    split at hk
    · next h => exact h ▸ hi
    · exact absurd rfl hk
  dialled := fun k p hp hd => by
    simp only [start] at hp
    split at hp
    · obtain rfl := Option.some.inj hp
      simp at hd
    · simp at hp
  noUdp := fun k s hs hudp => by
    rw [srv_start] at hs
    split at hs
    · obtain rfl := Option.some.inj hs
      exact ⟨rfl, rfl, fun m hm => absurd hm not_queued_start⟩
    · simp at hs

theorem quiet_of_reaches {srv : Server} {m : Msg} (h : reaches srv m = true) :
    m.isQuiet = true ∨ m = .ping := by
  cases m with
  | ping => exact .inr rfl
  | newDriver | getDrivers | passengerLogin | updateDriver | busyDriver | reconnectDriver
  | updateDriverSocket | newServerConnection | pong | updateNetworkState | sendLeaderId =>
      exact .inl rfl
  | _ => simp [reaches, Msg.isExternal] at h

/-- The two kinds of message a process without UDP port handles leave it without one. -/
theorem noUdp_handled {o : Oracle} {s t : Server} {m : Msg} {self : List Msg}
    {dgs : List (ℕ × ElectionMsg)} (h : s.Handled N o m t self dgs)
    (hm : m.isQuiet = true ∨ m = .ping) (hs : s.leaderConnection = none) :
    t.leaderConnection = none ∧ ∀ x ∈ self, x.isQuiet = true := by
  cases h with
  | quiet _ hsame _ hself =>
      rw [hsame.leaderConnection]
      exact ⟨hs, hself⟩
  | pingIdle => exact ⟨hs, by simp⟩
  | pingLost c hc => rw [hs] at hc; simp at hc
  | _ => simp [Msg.isQuiet] at hm

theorem Step.dialled (h : Step N net l net')
    (hv : ∀ k p, net.procs k = some p → p.dialled = true → p.srv.udpSender = true)
    (k : ℕ) (p : Proc) (hp : net'.procs k = some p) (hd : p.dialled = true) :
    p.srv.udpSender = true := by
  -- the process that a step touches, and any other
  have key : ∀ (s : ℕ) (v : Option Proc),
      (∀ p', v = some p' → p'.dialled = true → p'.srv.udpSender = true) →
      Function.update net.procs s v k = some p → p.srv.udpSender = true := by
    intro s v hs hupd
    by_cases hk : k = s
    · subst hk
      rw [Function.update_self] at hupd
      exact hs p hupd hd
    · rw [Function.update_of_ne hk] at hupd
      exact hv k p hupd hd
  have hqueue : ∀ (s : ℕ) (m : Msg), (net.enqueue s m).procs k = some p →
      p.srv.udpSender = true := by
    intro s m hupd
    refine key s _ (fun p' hp' hd' => ?_) hupd
    obtain ⟨p₀, hp₀, rfl⟩ := Option.map_eq_some_iff.1 hp'
    exact hv s p₀ hp₀ hd'
  cases h with
  | recv hp₀ hbox hans hh =>
      rename_i s o p₀ m rest t effects
      refine key s _ (fun p' hp' hd' => ?_) hp
      obtain rfl := Option.some.inj hp'
      have := (Server.handle_cases hh).udpSender
      exact this.trans (hv s p₀ hp₀ hd')
  | panic | crash | dialFailed => exact key _ none (by simp) hp
  | post => exact hqueue _ _ hp
  | deliverLost | drop | duplicate | pongLost => exact hv k p hp hd
  | deliverAck | deliverMsg | pongArrives => exact hqueue _ _ hp
  | silence => exact hqueue _ _ hp
  | boot hs hring =>
      refine key _ _ (fun p' hp' hd' => ?_) hp
      obtain rfl := Option.some.inj hp'
      simp at hd'
  | dial hp₀ _ hudp _ =>
      refine key _ _ (fun p' hp' hd' => ?_) hp
      obtain rfl := Option.some.inj hp'
      exact hudp

theorem valid_step (hv : Valid N net) (hstep : net.step N l = some net') : Valid N net' := by
  have h := step_cases hstep
  refine ⟨fun k t ht => ?_, fun k t ht => ?_, fun k hk => ?_, h.dialled hv.dialled,
    fun k t ht hudp => ?_⟩
  · rcases h.srv_cases ht with hold | ⟨o, s, m, effects, -, hr⟩ | ⟨-, -, hring, rfl⟩
    · exact hv.ids k t hold
    · obtain ⟨hk, hid, hptr⟩ := hv.ids k s hr.srvBefore
      exact ⟨hk, hr.handled.id.trans hid, hr.handled.actualNeighborId_mem hptr⟩
    · exact ⟨hring, rfl, getNeighborId_mem hring⟩
  · rcases h.boots_cases k with heq | ⟨-, heq, -⟩
    · rw [heq]
      rcases h.srv_cases ht with hold | ⟨o, s, m, effects, -, hr⟩ | ⟨rfl, hnone, -, -⟩
      · exact hv.started k t hold
      · exact hv.started k s hr.srvBefore
      · cases h with
        | boot => simp [boot] at heq
    · rw [heq]
      exact Nat.succ_ne_zero _
  · rcases h.boots_cases k with heq | ⟨-, -, -, hring⟩
    · exact hv.booted k (heq ▸ hk)
    · exact hring
  · rcases h.srv_cases ht with hold | ⟨o, s, m, effects, rfl, hr⟩ | ⟨-, -, -, rfl⟩
    · obtain ⟨him, hlc, hbox⟩ := hv.noUdp k t hold hudp
      refine ⟨him, hlc, fun x hx => ?_⟩
      have hno : ∀ {P : Prop}, net.hasUdp k = true → P := by
        intro P hudp'
        obtain ⟨s, hs, hs'⟩ := hasUdp_iff.1 hudp'
        obtain rfl := Option.some.inj (hold.symm.trans hs)
        rw [hudp] at hs'
        simp at hs'
      rcases h.queued_cases hx with hx | hnew | ⟨o, before, m, after, effects, -, hr, hx⟩
      · exact hbox x hx
      · cases hnew with
        | posted _ hm => exact quiet_of_reaches hm
        | ack _ _ hudp' => exact hno hudp'
        | msg _ _ _ hudp' => exact hno hudp'
        | pong => exact .inl rfl
        | silence hp hd =>
            exact hno (hasUdp_iff.2 ⟨_, srv_eq_some.2 ⟨_, hp, rfl⟩, hv.dialled k _ hp hd⟩)
        | dial hs hudp' => exact hno (hasUdp_iff.2 ⟨_, hs, hudp'⟩)
      · obtain rfl := Option.some.inj (hold.symm.trans hr.srvBefore)
        exact .inl ((noUdp_handled hr.handled (hbox _ hr.queued) hlc).2 _ hx)
    · have hudp₀ : s.udpSender = false := hr.handled.udpSender ▸ hudp
      obtain ⟨him, hlc, hbox⟩ := hv.noUdp k s hr.srvBefore hudp₀
      obtain ⟨hlc', hself⟩ := noUdp_handled hr.handled (hbox _ hr.queued) hlc
      refine ⟨hr.handled.imLeader him, hlc', fun x hx => ?_⟩
      obtain ⟨rest, hmail, hmail'⟩ := hr.mailbox
      rw [Queued, hmail'] at hx
      rcases List.mem_append.1 hx with hx | hx
      · exact hbox x (by rw [Queued, hmail]; exact List.mem_cons_of_mem _ hx)
      · exact .inl (hself x hx)
    · simp [Server.replica] at hudp

/-- **Every state of every run is valid.** -/
theorem valid_run {ok : Net → Label → Prop} {i : ℕ} {ls : List Label} (hi : i ∈ ring N)
    (h : Run (step N) ok (start N i) ls net) : Valid N net :=
  h.invariant (fun _ _ _ hv _ hst => valid_step hv hst) (valid_start hi)

/-- A server with election messages in its mailbox has its UDP port open. -/
theorem Valid.udp_of_queued (hv : Valid N net) {k : ℕ} {s : Server} {m : Msg}
    (hs : net.srv k = some s) (hm : net.Queued k m) (hquiet : m.isQuiet = false)
    (hping : m ≠ .ping) : s.udpSender = true := by
  cases hudp : s.udpSender with
  | true => rfl
  | false =>
      rcases (hv.noUdp k s hs hudp).2.2 m hm with h | h
      · rw [hquiet] at h; simp at h
      · exact absurd h hping

/-- So has a server that sends itself one. -/
theorem Valid.udp_of_self (hv : Valid N net) {s : ℕ} {o : Oracle} {before after : Server}
    {m x : Msg} {effects : List Effect} (hr : Handles N net net' s o before m after effects)
    (hx : x ∈ selfMessages effects) (hquiet : x.isQuiet = false) : before.udpSender = true := by
  cases hudp : before.udpSender with
  | true => rfl
  | false =>
      obtain ⟨-, hlc, hbox⟩ := hv.noUdp s before hr.srvBefore hudp
      have := (noUdp_handled hr.handled (hbox _ hr.queued) hlc).2 x hx
      rw [hquiet] at this
      simp at this

end ConcuRide.Net
