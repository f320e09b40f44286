import ConcuRide.Server.Handle

set_option autoImplicit false

/-! # What a handler can do

`Server.Handled` lists, once and for all, what handling a message can do to the part of a server
that the election works on, to its own mailbox and to the network. The results about the group of
servers go by its cases and never unfold a handler. -/

namespace ConcuRide

/-- Messages whose handlers leave the election alone (two of them may change which servers are held
    for disconnected). -/
def Msg.isQuiet : Msg → Bool
  | .newDriver _ | .getDrivers _ | .passengerLogin _ | .updateDriver _ | .busyDriver _
  | .reconnectDriver _ | .updateDriverSocket _ | .newServerConnection _ | .pong _
  | .updateNetworkState _ | .sendLeaderId _ => true
  | _ => false

/-- What a handler sends to its own mailbox. -/
def selfMessages (effects : List Effect) : List Msg :=
  effects.filterMap fun
    | .trySend m => some m
    | _ => none

/-- The election messages a handler sends, with their destinations. -/
def datagrams (effects : List Effect) : List (ℕ × ElectionMsg) :=
  effects.filterMap fun
    | .udp dst m => some (dst, m)
    | _ => none

namespace Server

/-- Two states that agree on all the election works on, except which servers are held for
    disconnected. -/
structure SameRing (s t : Server) : Prop where
  id : t.id = s.id
  idLeader : t.idLeader = s.idLeader
  imLeader : t.imLeader = s.imLeader
  udpSender : t.udpSender = s.udpSender
  leaderConnection : t.leaderConnection = s.leaderConnection
  actualNeighborId : t.actualNeighborId = s.actualNeighborId
  sequenceNumber : t.sequenceNumber = s.sequenceNumber
  messageReceivedAck : t.messageReceivedAck = s.messageReceivedAck

/-- The `NewLeader` with which a server declares itself leader. -/
def selfDeclared (s : Server) : NewLeader :=
  { idSender := s.id, leaderId := s.id, sequenceNumber := s.sequenceNumber }

/-- The `Election` a server starts. -/
def firstElection (s : Server) : Election :=
  { serverIds := [s.id], disconnectedLeaderId := s.idLeader, sequenceNumber := s.sequenceNumber }

/-- The `Election` a server passes on. -/
def nextElection (s : Server) (m : Election) : Election :=
  { serverIds := m.serverIds ++ [s.id]
    disconnectedLeaderId := m.disconnectedLeaderId
    sequenceNumber := s.sequenceNumber }

/-- The `NewLeader` that ends an election. -/
def announcement (s : Server) (m : Election) : NewLeader :=
  { leaderId := greatestId m.serverIds, idSender := s.id, sequenceNumber := s.sequenceNumber }

/-- The server with one more server held for disconnected. -/
def suspect (s : Server) (x : ℕ) : Server :=
  { s with disconnectedServers := s.disconnectedServers ++ [x] }

/-- The server under a new leader. -/
def follow (s : Server) (leaderId : ℕ) : Server :=
  { s with idLeader := leaderId, imLeader := s.imLeader || decide (leaderId = s.id) }

/-- The wait for the acknowledgement of a message sent to `q`. -/
def waiting (msg : ElectionMsg) (q : ℕ) : Msg :=
  .waitForNeighborAck
    { serializedMsg := msg, neighborId := q, sequenceNumber := msg.sequenceNumber }

/-- The `ConnectToServer` of `NewLeader`, when the server has no leader to talk to. -/
def connecting (s : Server) (leaderId : ℕ) : List Msg :=
  if leaderId ≠ s.id ∧ s.leaderConnection = none then [.connectToServer] else []

/-- **What a handler can do**: the message handled, the state after it, what the server sends to its
    own mailbox and the datagrams it sends. -/
inductive Handled (N : ℕ) (o : Oracle) (s : Server) :
    Msg → Server → List Msg → List (ℕ × ElectionMsg) → Prop
  | quiet {m : Msg} {t : Server} {self : List Msg} (hm : m.isQuiet = true) (hsame : s.SameRing t)
      (hdisc : ∀ x ∈ t.disconnectedServers, x ∈ s.disconnectedServers ∨
        ∃ state, m = .updateNetworkState state ∧ x ∈ state.disconnectedServers)
      (hself : ∀ x ∈ self, x.isQuiet = true) : Handled N o s m t self []
  | setLeader (m : SetLeader) : Handled N o s (.setLeader m)
      { s with idLeader := m.idLeader, leaderConnection := some m.leaderConnection } [] []
  | pingIdle (h : s.leaderConnection = none ∨ s.imLeader = true ∨ o.connected = true) :
      Handled N o s .ping s [] []
  | pingLost (c : ServerConnection) (hc : s.leaderConnection = some c) (him : s.imLeader = false)
      (ho : o.connected = false) : Handled N o s .ping
      { s with leaderConnection := none, electionOnCourse := true } [.startElection] []
  | startDeclare (q : ℕ)
      (hq : (s.suspect s.idLeader).nextNeighbor N s.actualNeighborId = (q, false)) :
      Handled N o s .startElection
        { s.suspect s.idLeader with actualNeighborId := q, sequenceNumber := s.sequenceNumber + 1 }
        [.newLeader s.selfDeclared] []
  | startSend (q : ℕ)
      (hq : (s.suspect s.idLeader).nextNeighbor N s.actualNeighborId = (q, true)) :
      Handled N o s .startElection
        { s.suspect s.idLeader with actualNeighborId := q, sequenceNumber := s.sequenceNumber + 2 }
        [waiting (.election s.firstElection) q]
        (if s.udpSender then [(q, .election s.firstElection)] else [])
  | wait (w : WaitForNeighborAck) : Handled N o s (.waitForNeighborAck w) s
      [.checkIfNeighborAcked
        { neighborId := w.neighborId
          serializedMsg := w.serializedMsg
          sequenceNumber := w.sequenceNumber }] []
  | checkAcked (c : CheckIfNeighborAcked) (hc : c.sequenceNumber ∈ s.messageReceivedAck) :
      Handled N o s (.checkIfNeighborAcked c) { s with receivedNeighborAck := false } [] []
  | checkDeclare (c : CheckIfNeighborAcked) (hc : c.sequenceNumber ∉ s.messageReceivedAck) (q : ℕ)
      (hq : (s.suspect c.neighborId).nextNeighbor N s.actualNeighborId = (q, false)) :
      Handled N o s (.checkIfNeighborAcked c)
        { s.suspect c.neighborId with
          actualNeighborId := q
          sequenceNumber := s.sequenceNumber + 1 }
        [.newLeader s.selfDeclared] []
  | checkResend (c : CheckIfNeighborAcked) (hc : c.sequenceNumber ∉ s.messageReceivedAck) (q : ℕ)
      (hq : (s.suspect c.neighborId).nextNeighbor N s.actualNeighborId = (q, true)) :
      Handled N o s (.checkIfNeighborAcked c)
        { s.suspect c.neighborId with actualNeighborId := q }
        [.waitForNeighborAck
          { serializedMsg := c.serializedMsg
            neighborId := q
            sequenceNumber := c.sequenceNumber }]
        (if s.udpSender then [(q, c.serializedMsg)] else [])
  | electionDeclare (m : Election) (q : ℕ)
      (hq : (s.markDisconnected m.disconnectedLeaderId).nextNeighbor N s.actualNeighborId
        = (q, false)) :
      Handled N o s (.election m)
        { s.markDisconnected m.disconnectedLeaderId with
          actualNeighborId := q
          sequenceNumber := s.sequenceNumber + 1 }
        [.newLeader s.selfDeclared] []
  | electionFinish (m : Election) (hid : s.id ∈ m.serverIds) (hudp : s.udpSender = true) (q : ℕ)
      (hq : (s.markDisconnected m.disconnectedLeaderId).nextNeighbor N s.actualNeighborId
        = (q, true)) :
      Handled N o s (.election m)
        { s.markDisconnected m.disconnectedLeaderId with
          actualNeighborId := q
          idLeader := greatestId m.serverIds
          sequenceNumber := s.sequenceNumber + 1 }
        [waiting (.newLeader (s.announcement m)) q] [(q, .newLeader (s.announcement m))]
  | electionForward (m : Election) (hid : s.id ∉ m.serverIds) (hudp : s.udpSender = true) (q : ℕ)
      (hq : (s.markDisconnected m.disconnectedLeaderId).nextNeighbor N s.actualNeighborId
        = (q, true)) :
      Handled N o s (.election m)
        { s.markDisconnected m.disconnectedLeaderId with
          actualNeighborId := q
          sequenceNumber := s.sequenceNumber + 1 }
        [waiting (.election (s.nextElection m)) q] [(q, .election (s.nextElection m))]
  | newLeaderOwn (m : NewLeader) (hown : m.idSender = s.id) :
      Handled N o s (.newLeader m) (s.follow m.leaderId) (s.connecting m.leaderId) []
  | newLeaderDeclare (m : NewLeader) (hown : m.idSender ≠ s.id) (q : ℕ)
      (hq : s.nextNeighbor N s.actualNeighborId = (q, false)) :
      Handled N o s (.newLeader m)
        { s.follow m.leaderId with actualNeighborId := q, sequenceNumber := s.sequenceNumber + 1 }
        (.newLeader s.selfDeclared :: s.connecting m.leaderId) []
  | newLeaderForward (m : NewLeader) (hown : m.idSender ≠ s.id) (hudp : s.udpSender = true) (q : ℕ)
      (hq : s.nextNeighbor N s.actualNeighborId = (q, true)) :
      Handled N o s (.newLeader m) { s.follow m.leaderId with actualNeighborId := q }
        (waiting (.newLeader m) q :: s.connecting m.leaderId) [(q, .newLeader m)]
  | ack (a : NeighborAck) : Handled N o s (.neighborAck a)
      { s with
        disconnectedServers := s.disconnectedServers.filter (fun id => id ≠ a.id)
        messageReceivedAck := s.messageReceivedAck.insert a.sequenceNumber true } [] []
  | connectFailed (ho : o.stream = none) : Handled N o s .connectToServer s [] []
  | connected (c : ServerConnection) (ho : o.stream = some c) : Handled N o s .connectToServer
      { s with leaderConnection := some c, electionOnCourse := false } [] []

/-! ## Every handler does one of these -/

theorem SameRing.refl (s : Server) : s.SameRing s :=
  ⟨rfl, rfl, rfl, rfl, rfl, rfl, rfl, rfl⟩

variable {N : ℕ} {o : Oracle} {s t : Server} {m : Msg} {effects : List Effect}

/-- The quiet handlers: what they change is outside the election, and they send quiet messages. -/
theorem quiet_cases (hm : m.isQuiet = true) (h : s.handle N o m = some (t, effects)) :
    Handled N o s m t (selfMessages effects) (datagrams effects) := by
  have same : ∀ {t' : Server} {effects' : List Effect}, (t', effects') = (t, effects) →
      s.SameRing t' → t'.disconnectedServers = s.disconnectedServers →
      (∀ x ∈ selfMessages effects', x.isQuiet = true) → datagrams effects' = [] →
      Handled N o s m t (selfMessages effects) (datagrams effects) := by
    intro t' effects' heq hsame hdisc hself hdata
    obtain ⟨rfl, rfl⟩ := Prod.mk.inj heq
    rw [hdata]
    exact .quiet hm hsame (fun x hx => .inl (hdisc ▸ hx)) hself
  have ring : ∀ {t' : Server}, t'.id = s.id → t'.idLeader = s.idLeader →
      t'.imLeader = s.imLeader → t'.udpSender = s.udpSender →
      t'.leaderConnection = s.leaderConnection → t'.actualNeighborId = s.actualNeighborId →
      t'.sequenceNumber = s.sequenceNumber → t'.messageReceivedAck = s.messageReceivedAck →
      s.SameRing t' := fun hid hleader him hudp hconnection hneighbor hnumber hacks =>
    ⟨hid, hleader, him, hudp, hconnection, hneighbor, hnumber, hacks⟩
  cases m with
  | newDriver m =>
      simp only [handle, Option.some.injEq, newDriver] at h
      split at h
      · exact same h (.refl s) rfl (by simp [selfMessages, Msg.isQuiet]) rfl
      · split at h
        · exact same h (.refl s) rfl (by simp [selfMessages, Msg.isQuiet]) rfl
        · exact same h (ring rfl rfl rfl rfl rfl rfl rfl rfl) rfl (by simp [selfMessages]) rfl
  | getDrivers addr =>
      exact same (Option.some.inj h) (.refl s) rfl (by simp [selfMessages]) rfl
  | passengerLogin m =>
      simp only [handle, Option.some.injEq, passengerLogin] at h
      split at h <;>
        exact same h (ring rfl rfl rfl rfl rfl rfl rfl rfl) rfl (by simp [selfMessages]) rfl
  | updateDriver m =>
      simp only [handle, Option.some.injEq, updateDriver] at h
      split at h <;>
        exact same h (ring rfl rfl rfl rfl rfl rfl rfl rfl) rfl (by simp [selfMessages]) rfl
  | busyDriver m =>
      simp only [handle, Option.some.injEq, busyDriver] at h
      split at h <;>
        exact same h (ring rfl rfl rfl rfl rfl rfl rfl rfl) rfl (by simp [selfMessages]) rfl
  | reconnectDriver m =>
      simp only [handle, Option.some.injEq, reconnectDriver] at h
      split at h <;> exact same h (.refl s) rfl (by simp [selfMessages, Msg.isQuiet]) rfl
  | updateDriverSocket m =>
      exact same (Option.some.inj h) (ring rfl rfl rfl rfl rfl rfl rfl rfl) rfl
        (by simp [selfMessages]) rfl
  | newServerConnection m =>
      obtain ⟨rfl, rfl⟩ := Prod.mk.inj (Option.some.inj h)
      have hself : ∀ addrs : List Addr,
          selfMessages (addrs.map fun addr => .trySend (.pong addr)) = addrs.map .pong := by
        intro addrs
        induction addrs with
        | nil => rfl
        | cons addr addrs ih => rw [List.map_cons, List.map_cons, ← ih]; rfl
      have hdata : ∀ addrs : List Addr,
          datagrams (addrs.map fun addr => .trySend (.pong addr)) = [] := by
        intro addrs
        induction addrs with
        | nil => rfl
        | cons addr addrs ih => rw [← ih]; rfl
      rw [hdata, hself]
      refine .quiet rfl (ring rfl rfl rfl rfl rfl rfl rfl rfl) (fun x hx => ?_) (fun x hx => ?_)
      · exact .inl (List.mem_filter.1 hx).1
      · obtain ⟨addr, -, rfl⟩ := List.mem_map.1 hx
        rfl
  | pong addr =>
      exact same (Option.some.inj h) (.refl s) rfl (by simp [selfMessages]) rfl
  | updateNetworkState state =>
      obtain ⟨rfl, rfl⟩ := Prod.mk.inj (Option.some.inj h)
      exact .quiet rfl (ring rfl rfl rfl rfl rfl rfl rfl rfl)
        (fun x hx => .inr ⟨state, rfl, hx⟩) (by simp [selfMessages])
  | sendLeaderId addr =>
      simp only [handle, sendLeaderId] at h
      split at h
      · exact same (Option.some.inj h) (.refl s) rfl (by simp [selfMessages]) rfl
      · simp at h
  | _ => simp [Msg.isQuiet] at hm

theorem acceptLeader_eq (leaderId : ℕ) : (s.acceptLeader leaderId).1 = s.follow leaderId := by
  unfold acceptLeader follow
  split
  · next h => simp [h.1]
  · next h =>
      have : (s.imLeader || decide (leaderId = s.id)) = s.imLeader := by
        cases him : s.imLeader with
        | true => rfl
        | false =>
            simp only [Bool.false_or, decide_eq_false_iff_not]
            exact fun hid => h ⟨hid, him⟩
      simp [this]

theorem acceptLeader_silent (leaderId : ℕ) : selfMessages (s.acceptLeader leaderId).2 = [] ∧
    datagrams (s.acceptLeader leaderId).2 = [] := by
  unfold acceptLeader
  split <;> exact ⟨rfl, rfl⟩

theorem selfMessages_append (e₁ e₂ : List Effect) :
    selfMessages (e₁ ++ e₂) = selfMessages e₁ ++ selfMessages e₂ :=
  List.filterMap_append

theorem datagrams_append (e₁ e₂ : List Effect) :
    datagrams (e₁ ++ e₂) = datagrams e₁ ++ datagrams e₂ :=
  List.filterMap_append

theorem selfMessages_sendIfUdp (s : Server) (msg : ElectionMsg) :
    selfMessages (s.sendIfUdp msg) = [] := by
  unfold sendIfUdp
  split <;> rfl

theorem datagrams_sendIfUdp (s : Server) (msg : ElectionMsg) :
    datagrams (s.sendIfUdp msg) = if s.udpSender then [(s.actualNeighborId, msg)] else [] := by
  unfold sendIfUdp
  split <;> rfl

theorem startElection_cases (h : s.startElection N = (t, effects)) :
    Handled N o s .startElection t (selfMessages effects) (datagrams effects) := by
  rcases hq : (s.suspect s.idLeader).nextNeighbor N s.actualNeighborId with ⟨q, found⟩
  have hq' := hq
  unfold suspect at hq'
  cases found with
  | false =>
      simp only [startElection, updateNeighbor, hq', Bool.not_false, if_true, declareSelf] at h
      obtain ⟨rfl, rfl⟩ := Prod.mk.inj h
      exact .startDeclare q hq
  | true =>
      simp only [startElection, updateNeighbor, hq', Bool.not_true, Bool.false_eq_true,
        if_false] at h
      obtain ⟨rfl, rfl⟩ := Prod.mk.inj h
      rw [selfMessages_append, datagrams_append, selfMessages_sendIfUdp, datagrams_sendIfUdp]
      exact (List.append_nil _).symm ▸ .startSend q hq

theorem checkIfNeighborAcked_cases {c : CheckIfNeighborAcked}
    (h : s.checkIfNeighborAcked N c = (t, effects)) :
    Handled N o s (.checkIfNeighborAcked c) t (selfMessages effects) (datagrams effects) := by
  by_cases hc : c.sequenceNumber ∈ s.messageReceivedAck
  · simp only [checkIfNeighborAcked, if_pos hc] at h
    obtain ⟨rfl, rfl⟩ := Prod.mk.inj h
    exact .checkAcked c hc
  rcases hq : (s.suspect c.neighborId).nextNeighbor N s.actualNeighborId with ⟨q, found⟩
  have hq' := hq
  unfold suspect at hq'
  cases found with
  | false =>
      simp only [checkIfNeighborAcked, if_neg hc, updateNeighbor, hq', Bool.not_false, if_true,
        declareSelf] at h
      obtain ⟨rfl, rfl⟩ := Prod.mk.inj h
      exact .checkDeclare c hc q hq
  | true =>
      simp only [checkIfNeighborAcked, if_neg hc, updateNeighbor, hq', Bool.not_true,
        Bool.false_eq_true, if_false] at h
      obtain ⟨rfl, rfl⟩ := Prod.mk.inj h
      rw [selfMessages_append, datagrams_append, selfMessages_sendIfUdp, datagrams_sendIfUdp]
      exact (List.append_nil _).symm ▸ .checkResend c hc q hq

theorem election_cases {m : Election} (h : s.election N m = some (t, effects)) :
    Handled N o s (.election m) t (selfMessages effects) (datagrams effects) := by
  rcases hq : (s.markDisconnected m.disconnectedLeaderId).nextNeighbor N s.actualNeighborId
    with ⟨q, found⟩
  set r := s.markDisconnected m.disconnectedLeaderId with hr
  have hptr : r.actualNeighborId = s.actualNeighborId := rfl
  have hudp' : r.udpSender = s.udpSender := rfl
  have hid' : r.id = s.id := rfl
  cases found with
  | false =>
      simp only [election, updateNeighbor, ← hr, hptr, hq, Bool.not_false, if_true,
        declareSelf] at h
      obtain ⟨rfl, rfl⟩ := Prod.mk.inj (Option.some.inj h)
      exact .electionDeclare m q hq
  | true =>
      cases hudp : s.udpSender with
      | false => simp [election, updateNeighbor, ← hr, hptr, hq, hudp', hudp] at h
      | true =>
          have hpanic : (!r.udpSender) = false := by rw [hudp', hudp]; rfl
          by_cases hid : s.id ∈ m.serverIds
          · simp only [election, updateNeighbor, ← hr, hptr, hq, hpanic, hid', Bool.not_true,
              Bool.false_eq_true, if_false, if_pos hid] at h
            obtain ⟨rfl, rfl⟩ := Prod.mk.inj (Option.some.inj h)
            exact .electionFinish m hid hudp q hq
          · simp only [election, updateNeighbor, ← hr, hptr, hq, hpanic, hid', Bool.not_true,
              Bool.false_eq_true, if_false, if_neg hid] at h
            obtain ⟨rfl, rfl⟩ := Prod.mk.inj (Option.some.inj h)
            exact .electionForward m hid hudp q hq

theorem newLeader_cases {m : NewLeader} (h : s.newLeader N m = some (t, effects)) :
    Handled N o s (.newLeader m) t (selfMessages effects) (datagrams effects) := by
  obtain ⟨hself, hdata⟩ := s.acceptLeader_silent m.leaderId
  -- `ConnectToServer` goes by the id and the connection, which passing on leaves alone
  have hconn : ∀ (r : Server) (sent : List Effect), r.id = s.id →
      r.leaderConnection = s.leaderConnection →
      Handled N o s (.newLeader m) r (selfMessages sent ++ s.connecting m.leaderId)
        (datagrams sent) →
      Handled N o s (.newLeader m) r (selfMessages (sent ++ r.connectIfNeeded m.leaderId))
        (datagrams (sent ++ r.connectIfNeeded m.leaderId)) := by
    intro r sent hid hlc hr
    have hself : selfMessages (r.connectIfNeeded m.leaderId) = s.connecting m.leaderId := by
      unfold connectIfNeeded connecting
      rw [hid, hlc]
      split <;> rfl
    have hdata : datagrams (r.connectIfNeeded m.leaderId) = [] := by
      unfold connectIfNeeded
      split <;> rfl
    rw [selfMessages_append, datagrams_append, hself, hdata, List.append_nil]
    exact hr
  simp only [newLeader, acceptLeader_eq, Option.map_eq_some_iff, passOn] at h
  obtain ⟨⟨r, sent⟩, hr, heq⟩ := h
  obtain ⟨rfl, rfl⟩ := Prod.mk.inj heq
  rw [List.append_assoc, selfMessages_append, datagrams_append, hself, hdata, List.nil_append,
    List.nil_append]
  have hid : (s.follow m.leaderId).id = s.id := rfl
  by_cases hown : m.idSender = s.id
  · simp only [hid, if_pos hown, Option.some.injEq] at hr
    obtain ⟨rfl, rfl⟩ := Prod.mk.inj hr
    exact hconn _ _ rfl rfl (.newLeaderOwn m hown)
  · have hfollow : (s.follow m.leaderId).nextNeighbor N (s.follow m.leaderId).actualNeighborId
        = s.nextNeighbor N s.actualNeighborId := by
      have hscan : ∀ k p, (s.follow m.leaderId).scanNeighbors N k p = s.scanNeighbors N k p := by
        intro k
        induction k with
        | zero => exact fun p => rfl
        | succ k ih => intro p; simp only [scanNeighbors, ih]; rfl
      simp only [nextNeighbor, hscan]
      rfl
    rcases hq : s.nextNeighbor N s.actualNeighborId with ⟨q, found⟩
    cases found with
    | false =>
        simp only [hid, if_neg hown, updateNeighbor, hfollow, hq, Bool.not_false, if_true,
          declareSelf, Option.some.injEq] at hr
        obtain ⟨rfl, rfl⟩ := Prod.mk.inj hr
        exact hconn _ _ rfl rfl (.newLeaderDeclare m hown q hq)
    | true =>
        have hudp' : (s.follow m.leaderId).udpSender = s.udpSender := rfl
        cases hudp : s.udpSender with
        | false =>
            simp [hid, hown, updateNeighbor, hfollow, hq, hudp', hudp] at hr
        | true =>
            have hpanic : (!(s.follow m.leaderId).udpSender) = false := by rw [hudp', hudp]; rfl
            simp only [hid, if_neg hown, updateNeighbor, hfollow, hq, hpanic, Bool.not_true,
              Bool.false_eq_true, if_false, Option.some.injEq] at hr
            obtain ⟨rfl, rfl⟩ := Prod.mk.inj hr
            exact hconn _ _ rfl rfl (.newLeaderForward m hown hudp q hq)

/-- **Every handler does one of the things `Handled` lists.** -/
theorem handle_cases (h : s.handle N o m = some (t, effects)) :
    Handled N o s m t (selfMessages effects) (datagrams effects) := by
  cases m with
  | ping =>
      simp only [handle, Option.some.injEq, ping] at h
      split at h
      · next hc =>
          obtain ⟨rfl, rfl⟩ := Prod.mk.inj h
          exact .pingIdle (.inl hc)
      · next c hc =>
          split at h
          · next him =>
              obtain ⟨rfl, rfl⟩ := Prod.mk.inj h
              exact .pingIdle (.inr (.inl him))
          · next him =>
              split at h
              · next ho =>
                  obtain ⟨rfl, rfl⟩ := Prod.mk.inj h
                  exact .pingIdle (.inr (.inr ho))
              · next ho =>
                  obtain ⟨rfl, rfl⟩ := Prod.mk.inj h
                  exact .pingLost c hc (by simpa using him) (by simpa using ho)
  | setLeader m =>
      obtain ⟨rfl, rfl⟩ := Prod.mk.inj (Option.some.inj h)
      exact .setLeader m
  | startElection => exact startElection_cases (Option.some.inj h)
  | waitForNeighborAck w =>
      obtain ⟨rfl, rfl⟩ := Prod.mk.inj (Option.some.inj h)
      exact .wait w
  | checkIfNeighborAcked c => exact checkIfNeighborAcked_cases (Option.some.inj h)
  | election m => exact election_cases h
  | newLeader m => exact newLeader_cases h
  | neighborAck a =>
      obtain ⟨rfl, rfl⟩ := Prod.mk.inj (Option.some.inj h)
      exact .ack a
  | connectToServer =>
      simp only [handle, Option.some.injEq, connectToServer] at h
      split at h
      · next ho =>
          obtain ⟨rfl, rfl⟩ := Prod.mk.inj h
          exact .connectFailed ho
      · next c ho =>
          obtain ⟨rfl, rfl⟩ := Prod.mk.inj h
          exact .connected c ho
  | _ => exact quiet_cases rfl h

/-- A server with its UDP port open never panics. -/
theorem handle_ne_none (hudp : s.udpSender = true) : s.handle N o m ≠ none := by
  cases m with
  | sendLeaderId addr => simp [handle, sendLeaderId, hudp]
  | election m =>
      have hudp' : (s.markDisconnected m.disconnectedLeaderId).udpSender = true := hudp
      simp only [handle, election, updateNeighbor, hudp', Bool.not_true, Bool.false_eq_true,
        if_false]
      split
      · simp
      · split <;> simp
  | newLeader m =>
      have hudp' : (s.follow m.leaderId).udpSender = true := hudp
      simp only [handle, newLeader, acceptLeader_eq, passOn, updateNeighbor, hudp', Bool.not_true,
        Bool.false_eq_true, if_false, ne_eq, Option.map_eq_none_iff]
      split
      · simp
      · split <;> simp
  | _ => simp [handle]

/-! ## What no handler does -/

variable {self : List Msg} {dgs : List (ℕ × ElectionMsg)}

theorem Handled.id (h : Handled N o s m t self dgs) : t.id = s.id := by
  cases h with
  | quiet _ hsame => exact hsame.id
  | _ => rfl

theorem Handled.udpSender (h : Handled N o s m t self dgs) : t.udpSender = s.udpSender := by
  cases h with
  | quiet _ hsame => exact hsame.udpSender
  | _ => rfl

/-- A leader stays leader. -/
theorem Handled.imLeader (h : Handled N o s m t self dgs) (hs : s.imLeader = true) :
    t.imLeader = true := by
  cases h with
  | quiet _ hsame => rw [hsame.imLeader]; exact hs
  | newLeaderOwn | newLeaderDeclare | newLeaderForward => simp [follow, hs]
  | _ => exact hs

/-- Only an announced server becomes leader. -/
theorem Handled.imLeader_cases (h : Handled N o s m t self dgs) (ht : t.imLeader = true) :
    s.imLeader = true ∨ ∃ e, m = .newLeader e ∧ e.leaderId = s.id := by
  cases h with
  | quiet _ hsame => exact .inl (hsame.imLeader ▸ ht)
  | newLeaderOwn e | newLeaderDeclare e | newLeaderForward e =>
      simp only [follow, Bool.or_eq_true, decide_eq_true_eq] at ht
      exact ht.imp_right fun heq => ⟨e, rfl, heq⟩
  | _ => exact .inl ht

/-- Acknowledgements are never forgotten, and recorded only by `NeighborAck`. -/
theorem Handled.messageReceivedAck (h : Handled N o s m t self dgs) (k : ℕ) :
    k ∈ t.messageReceivedAck ↔
      k ∈ s.messageReceivedAck ∨ ∃ a, m = .neighborAck a ∧ k = a.sequenceNumber := by
  cases h with
  | quiet hm hsame =>
      rw [hsame.messageReceivedAck]
      refine ⟨.inl, ?_⟩
      rintro (hk | ⟨a, rfl, -⟩)
      · exact hk
      · simp [Msg.isQuiet] at hm
  | ack a =>
      simp only [AList.mem_insert]
      constructor
      · rintro (rfl | hk)
        · exact .inr ⟨a, rfl, rfl⟩
        · exact .inl hk
      · rintro (hk | ⟨a', ha', rfl⟩)
        · exact .inr hk
        · obtain rfl := Msg.neighborAck.inj ha'
          exact .inl rfl
  | _ => simp [suspect, markDisconnected, follow]

/-- Sequence numbers only grow. -/
theorem Handled.sequenceNumber_le (h : Handled N o s m t self dgs) :
    s.sequenceNumber ≤ t.sequenceNumber := by
  cases h with
  | quiet _ hsame => rw [hsame.sequenceNumber]
  | startSend => exact Nat.le_add_right _ _
  | startDeclare | checkDeclare | electionDeclare | electionFinish | electionForward
  | newLeaderDeclare => exact Nat.le_succ _
  | _ => exact Nat.le_refl _

/-! ## What a server sends itself -/

theorem mem_connecting {x : Msg} {leaderId : ℕ} (h : x ∈ s.connecting leaderId) :
    x = .connectToServer := by
  unfold connecting at h
  split at h
  · exact List.mem_singleton.1 h
  · simp at h

/-- A server waits for the acknowledgement of what it has just sent to its neighbour. -/
theorem Handled.wait_mem (h : Handled N o s m t self dgs) (hudp : s.udpSender = true)
    {w : WaitForNeighborAck} (hw : .waitForNeighborAck w ∈ self) :
    (w.neighborId, w.serializedMsg) ∈ dgs ∧ w.neighborId = t.actualNeighborId := by
  cases h with
  | quiet _ _ _ hself => exact absurd (hself _ hw) (by simp [Msg.isQuiet])
  | startSend | checkResend =>
      obtain rfl := Msg.waitForNeighborAck.inj (List.mem_singleton.1 hw)
      simp [hudp]
  | electionFinish | electionForward =>
      obtain rfl := Msg.waitForNeighborAck.inj (List.mem_singleton.1 hw)
      simp
  | newLeaderForward =>
      rcases List.mem_cons.1 hw with hw | hw
      · obtain rfl := Msg.waitForNeighborAck.inj hw
        simp
      · exact absurd (mem_connecting hw) (by simp)
  | newLeaderDeclare =>
      rcases List.mem_cons.1 hw with hw | hw
      · simp at hw
      · exact absurd (mem_connecting hw) (by simp)
  | newLeaderOwn => exact absurd (mem_connecting hw) (by simp)
  | _ => simp at hw

theorem Handled.check_mem (h : Handled N o s m t self dgs) {c : CheckIfNeighborAcked}
    (hc : .checkIfNeighborAcked c ∈ self) :
    m = .waitForNeighborAck
      { serializedMsg := c.serializedMsg
        neighborId := c.neighborId
        sequenceNumber := c.sequenceNumber } := by
  cases h with
  | quiet _ _ _ hself => exact absurd (hself _ hc) (by simp [Msg.isQuiet])
  | wait w =>
      obtain rfl := Msg.checkIfNeighborAcked.inj (List.mem_singleton.1 hc)
      rfl
  | newLeaderForward | newLeaderDeclare =>
      rcases List.mem_cons.1 hc with hc | hc
      · simp [waiting] at hc
      · exact absurd (mem_connecting hc) (by simp)
  | newLeaderOwn => exact absurd (mem_connecting hc) (by simp)
  | _ => simp [waiting] at hc

theorem Handled.ack_notMem (h : Handled N o s m t self dgs) (a : NeighborAck) :
    .neighborAck a ∉ self := by
  intro ha
  cases h with
  | quiet _ _ _ hself => exact absurd (hself _ ha) (by simp [Msg.isQuiet])
  | newLeaderForward | newLeaderDeclare =>
      rcases List.mem_cons.1 ha with ha | ha
      · simp [waiting] at ha
      · exact absurd (mem_connecting ha) (by simp)
  | newLeaderOwn => exact absurd (mem_connecting ha) (by simp)
  | _ => simp [waiting] at ha

/-- A server that drops its leader connection starts an election, declares itself leader, or takes
    part in the election it has heard of. -/
theorem Handled.dropped (h : Handled N o s m t self dgs) (hs : s.leaderConnection ≠ none)
    (ht : t.leaderConnection = none) : .startElection ∈ self ∨
      .newLeader s.selfDeclared ∈ self ∨ ∃ msg q, waiting msg q ∈ self ∧ (q, msg) ∈ dgs := by
  cases h with
  | quiet _ hsame => exact absurd (hsame.leaderConnection ▸ ht) hs
  | pingLost => exact .inl List.mem_cons_self
  | electionDeclare => exact .inr (.inl List.mem_cons_self)
  | electionFinish | electionForward =>
      exact .inr (.inr ⟨_, _, List.mem_cons_self, List.mem_cons_self⟩)
  | setLeader => simp at ht
  | connected => simp at ht
  | _ => exact absurd ht hs

end Server

end ConcuRide
