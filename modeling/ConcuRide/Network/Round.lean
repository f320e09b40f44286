import ConcuRide.Network.Ids
import ConcuRide.Network.Uniqueness
import ConcuRide.Server.Lap

set_option autoImplicit false

/-! # Elections among the live servers

The group while the live servers `L` elect a new leader: no server comes or goes, every datagram to
a live server is delivered once, and its acknowledgement is handled in time. Several elections may
be under way at once. `Round.Holds` is what every step preserves: each election that is sent to a
live server has collected all live servers between the one that started it and that server, and
nothing is announced before one of them has been all the way round. -/

namespace ConcuRide

/-- A step while no server comes or goes, without loss, and with timely acknowledgements. Elections
    start with a `Ping` that finds the connection dead. -/
def Net.isSteady (net : Net) (l : Label) : Bool :=
  net.timely l &&
    match l with
    | .silence _ | .crash _ | .boot _ | .dial _ => false
    | _ => true

namespace Round

variable (R : Round) (net : Net)

/-! ## What the servers have done -/

/-- Server `x` has dropped its connection with the leader that crashed. -/
def Released (x : ℕ) : Prop :=
  ∃ srv, net.srv x = some srv ∧
    ∀ c, srv.leaderConnection = some c → net.isUp c.server c.session = true

/-- Server `x` will start no election any more. -/
def Begun (x : ℕ) : Prop := Released net x ∧ ¬ net.Queued x .startElection

/-- The neighbour of server `x` is alive. -/
def Linked (x : ℕ) : Prop := ∃ srv, net.srv x = some srv ∧ srv.actualNeighborId ∈ R.L

/-- An election has been all the way round: all live servers have joined it, and each has a live
    neighbour, unless there is only one of them. -/
structure Closed : Prop where
  released : ∀ x ∈ R.L, Released net x
  linked : (∀ x ∈ R.L, R.Linked net x) ∨ ∀ x ∈ R.L, ∀ y ∈ R.L, x = y

/-! ## What the messages have behind them -/

/-- An election that is on its way to `q`. -/
structure Incoming (q : ℕ) (e : Election) : Prop where
  leader : e.disconnectedLeaderId = R.l
  lap : ∃ a ∈ R.L, Begun net a ∧ R.Lap e.serverIds a q
  members : ∀ x ∈ e.serverIds, Released net x ∧ R.Linked net x

/-- An election that `s` has joined last. -/
structure Held (s : ℕ) (e : Election) : Prop where
  leader : e.disconnectedLeaderId = R.l
  lap : ∃ a ∈ R.L, Begun net a ∧ R.Gathered e.serverIds a s
  members : ∀ x ∈ e.serverIds, Released net x ∧ (x ≠ s → R.Linked net x)

/-- An announcement of the greatest live server. -/
structure Announces (e : NewLeader) : Prop where
  leader : e.leaderId = R.greatest
  sender : e.idSender ∈ R.L
  closed : R.Closed net

def Brings (q : ℕ) : ElectionMsg → Prop
  | .election e => R.Incoming net q e
  | .newLeader e => R.Announces net e

/-- What `s` repeats until it is acknowledged: its destination is alive and will acknowledge it, or
    it is an election that `s` holds. -/
structure Awaits (s : ℕ) (c : CheckIfNeighborAcked) : Prop where
  number : c.sequenceNumber = c.serializedMsg.sequenceNumber
  live : c.neighborId ∈ R.L → net.onItsWay s c = true
  dead : c.neighborId ∉ R.L → ∃ e, c.serializedMsg = .election e ∧ R.Held net s e

/-- The message `m` in the mailbox of `s`. -/
def Expected (s : ℕ) : Msg → Prop
  | .setLeader _ => False
  | .updateNetworkState state => ∀ x ∈ state.disconnectedServers, x ∉ R.L
  | .startElection => Released net s
  | .waitForNeighborAck w => R.Awaits net s
      { serializedMsg := w.serializedMsg
        neighborId := w.neighborId
        sequenceNumber := w.sequenceNumber }
  | .checkIfNeighborAcked c => R.Awaits net s c
  | .election e => R.Incoming net s e
  | .newLeader e => R.Announces net e
  | .neighborAck a => a.id = 0
  | _ => True

/-- Messages after which a server starts no election. -/
def precedesNoStart : Msg → Bool
  | .startElection | .newLeader _ => true
  | _ => false

/-- A live server during the election. -/
structure Member (s : ℕ) (srv : Server) : Prop where
  looks : R.Looks s srv
  udpSender : srv.udpSender = true
  idLeader : srv.idLeader = R.l ∨ (srv.idLeader = R.greatest ∧ R.Closed net)
  imLeader : srv.imLeader = true → s = R.greatest

/-- **What holds while the live servers elect a leader.** -/
structure Holds : Prop where
  servers : ∀ s ∈ R.L, ∃ srv, net.srv s = some srv
  members : ∀ s srv, net.srv s = some srv → R.Member net s srv
  order : ∀ s, (net.mailbox s).Pairwise fun x y => precedesNoStart x = true → y ≠ .startElection
  starts : ∀ s srv, net.srv s = some srv → net.Queued s .startElection → srv.idLeader = R.l
  queued : ∀ s m, net.Queued s m → R.Expected net s m
  flight : ∀ d ∈ net.flight, d.src ∈ R.L ∧ d.dst ∈ R.L
  msg : ∀ d ∈ net.flight, ∀ e, d.body = .msg e → R.Brings net d.dst e
  ack : ∀ d ∈ net.flight, ∀ a, d.body = .ack a → a.id = 0
  pongs : ∀ line ∈ net.pongs, ∀ x ∈ line.state.disconnectedServers, x ∉ R.L

/-! ## What lasts -/

/-- A later state of the group. -/
structure Later (net' : Net) : Prop where
  released : ∀ x, Released net x → Released net' x
  begun : ∀ x, Begun net x → Begun net' x
  linked : ∀ x, R.Linked net x → R.Linked net' x
  onItsWay : ∀ s c, net.onItsWay s c = true → net'.onItsWay s c = true

variable {R net} {net' : Net} {s q : ℕ} {e : Election} {m : Msg}

theorem Closed.later (h : R.Closed net) (hl : R.Later net net') : R.Closed net' where
  released := fun x hx => hl.released x (h.released x hx)
  linked := h.linked.imp_left fun h x hx => hl.linked x (h x hx)

theorem Incoming.later (h : R.Incoming net q e) (hl : R.Later net net') :
    R.Incoming net' q e where
  leader := h.leader
  lap := by
    obtain ⟨a, ha, hbegun, hlap⟩ := h.lap
    exact ⟨a, ha, hl.begun a hbegun, hlap⟩
  members := fun x hx => ⟨hl.released x (h.members x hx).1, hl.linked x (h.members x hx).2⟩

theorem Held.later (h : R.Held net s e) (hl : R.Later net net') : R.Held net' s e where
  leader := h.leader
  lap := by
    obtain ⟨a, ha, hbegun, hlap⟩ := h.lap
    exact ⟨a, ha, hl.begun a hbegun, hlap⟩
  members := fun x hx =>
    ⟨hl.released x (h.members x hx).1, fun hne => hl.linked x ((h.members x hx).2 hne)⟩

theorem Announces.later {e : NewLeader} (h : R.Announces net e) (hl : R.Later net net') :
    R.Announces net' e :=
  ⟨h.leader, h.sender, h.closed.later hl⟩

theorem Brings.later {e : ElectionMsg} (h : R.Brings net q e) (hl : R.Later net net') :
    R.Brings net' q e := by
  cases e with
  | election e => exact Incoming.later h hl
  | newLeader e => exact Announces.later h hl

theorem Awaits.later {c : CheckIfNeighborAcked} (h : R.Awaits net s c) (hl : R.Later net net') :
    R.Awaits net' s c where
  number := h.number
  live := fun hin => hl.onItsWay s c (h.live hin)
  dead := fun hout => by
    obtain ⟨e, he, hheld⟩ := h.dead hout
    exact ⟨e, he, hheld.later hl⟩

theorem Expected.later (h : R.Expected net s m) (hl : R.Later net net') :
    R.Expected net' s m := by
  cases m with
  | startElection => exact hl.released s h
  | waitForNeighborAck | checkIfNeighborAcked => exact Awaits.later h hl
  | election => exact Incoming.later h hl
  | newLeader => exact Announces.later h hl
  | _ => exact h

theorem Member.later {srv : Server} (h : R.Member net s srv) (hl : R.Later net net') :
    R.Member net' s srv where
  looks := h.looks
  udpSender := h.udpSender
  idLeader := h.idLeader.imp_right fun h => ⟨h.1, h.2.later hl⟩
  imLeader := h.imLeader

/-- A quiet message that is not the copy of a registry is always expected. -/
theorem expected_of_quiet (h : m.isQuiet = true) (hstate : ∀ state, m ≠ .updateNetworkState state) :
    R.Expected net s m := by
  cases m with
  | updateNetworkState state => exact absurd rfl (hstate state)
  | setLeader | startElection | waitForNeighborAck | checkIfNeighborAcked | election | newLeader
  | neighborAck => simp [Msg.isQuiet] at h
  | _ => trivial

theorem Holds.hasUdp (h : R.Holds net) (hs : s ∈ R.L) : net.hasUdp s = true := by
  obtain ⟨srv, hsrv⟩ := h.servers s hs
  exact Net.hasUdp_iff.2 ⟨srv, hsrv, (h.members s srv hsrv).udpSender⟩

theorem Holds.mem (h : R.Holds net) {srv : Server} (hs : net.srv s = some srv) : s ∈ R.L :=
  (h.members s srv hs).looks.mem

/-! ## Elections on their way -/

/-- An election that `s` holds is sent on to the next live server. -/
theorem Held.send (h : R.Held net s e) (hs : s ∈ R.L) (haims : R.Aims s q) (hq : q ∈ R.L)
    (hlinked : R.Linked net s) : R.Incoming net q e where
  leader := h.leader
  lap := by
    obtain ⟨a, ha, hbegun, hlap⟩ := h.lap
    exact ⟨a, ha, hbegun, hlap.send ha hs hq (haims.near hq)⟩
  members := fun x hx => by
    obtain ⟨hreleased, hlink⟩ := h.members x hx
    by_cases hxs : x = s
    · exact ⟨hreleased, hxs ▸ hlinked⟩
    · exact ⟨hreleased, hlink hxs⟩

/-- A server that is not on it joins an election. -/
theorem Incoming.join (h : R.Incoming net q e) (hq : q ∈ R.L) (hnew : q ∉ e.serverIds)
    (hreleased : Released net q) (n : ℕ) : R.Held net q
      { serverIds := e.serverIds ++ [q]
        disconnectedLeaderId := e.disconnectedLeaderId
        sequenceNumber := n } where
  leader := h.leader
  lap := by
    obtain ⟨a, ha, hbegun, hlap⟩ := h.lap
    exact ⟨a, ha, hbegun, hlap.collect ha hq hnew⟩
  members := fun x hx => by
    rcases List.mem_append.1 hx with hx | hx
    · exact ⟨(h.members x hx).1, fun _ => (h.members x hx).2⟩
    · obtain rfl := List.mem_singleton.1 hx
      exact ⟨hreleased, fun hne => absurd rfl hne⟩

/-- An election that is back has been to all live servers. -/
theorem Incoming.complete (h : R.Incoming net q e) (hq : q ∈ e.serverIds) :
    Begun net q ∧ (∀ x, x ∈ e.serverIds ↔ x ∈ R.L) ∧ R.Closed net ∧ R.Linked net q := by
  obtain ⟨a, -, hbegun, hlap⟩ := h.lap
  obtain ⟨rfl, hall⟩ := hlap.complete hq
  exact ⟨hbegun, hall, ⟨fun x hx => (h.members x ((hall x).2 hx)).1,
    .inl fun x hx => (h.members x ((hall x).2 hx)).2⟩, (h.members q hq).2⟩

/-- An election never reaches the only live server, unless that has itself for a neighbour. -/
theorem Incoming.linked_of_alone (h : R.Incoming net q e) (halone : ∀ x ∈ R.L, x = q) :
    R.Linked net q := by
  obtain ⟨a, ha, -, hlap⟩ := h.lap
  have hmem := (h.members a ((hlap a).2 ⟨ha, .inl rfl⟩)).2
  rwa [halone a ha] at hmem

/-- Whoever passes an announcement on has a live neighbour. -/
theorem Announces.linked {e : NewLeader} (h : R.Announces net e) (hs : s ∈ R.L)
    (hne : e.idSender ≠ s) : R.Linked net s := by
  rcases h.closed.linked with hlinked | halone
  · exact hlinked s hs
  · exact absurd (halone _ h.sender s hs) hne

/-- The election of all live servers elects the greatest. -/
theorem greatestId_eq {ids : List ℕ} (h : ∀ x, x ∈ ids ↔ x ∈ R.L) :
    Server.greatestId ids = R.greatest := by
  have hmem : R.greatest ∈ ids := (h _).2 R.greatest_mem
  have hgreatest : Server.greatestId ids ∈ R.L :=
    (h _).1 (Net.greatestId_mem (List.ne_nil_of_mem hmem))
  exact le_antisymm (R.le_greatest hgreatest) (Net.le_greatestId hmem)

end Round

end ConcuRide
