import ConcuRide.Passenger.Payments
import ConcuRide.Passenger.Search

set_option autoImplicit false

/-! # One authorization per request

A passenger process together with the gateway's pending answers. Every `AuthorizePayment` belongs to
an attempt to ride with the driver that was just selected. The gateway answers the attempts in their
order, and the `RequestDrive` messages of the authorized ones wait in the mailbox in that order as
well. The passenger keeps one connection only: it is still the one of the attempt as long as nobody
else is dialled in between. -/

namespace ConcuRide.Passenger

open Lib

/-- An attempt to ride with the driver that listens on `socket`. -/
structure Attempt where
  number : ℕ
  socket : String
deriving DecidableEq, Repr

namespace Booking

/-- What is remembered of the past of the passenger. -/
inductive Event where
  /-- a driver was selected, and the gateway asked -/
  | selected (a : Attempt)
  /-- `PaymentAuthorizationStatus` with `is_authorized = true` was received -/
  | authorized (a : Attempt)
  /-- `request_ride` was sent on connection `c`, with the authorization of `a` -/
  | requested (a : Option Attempt) (c : Connection)
deriving DecidableEq

/-- One step of the process. -/
inductive Label where
  /-- the actor handles the next message of its mailbox -/
  | recv (o : Oracle)
  /-- a line of the leader or of a driver arrives -/
  | line (m : Msg)
  /-- the gateway's answer to the oldest `AuthorizePayment` arrives -/
  | gateway (isAuthorized : Bool)

end Booking

/-- The actor and its mailbox, the attempts the gateway has not answered and those whose
    `RequestDrive` waits (oldest first), how many there were, and the past, newest event first. -/
structure Booking where
  actor : Option (Passenger × List Msg)
  asked : List Attempt
  granted : List Attempt
  count : ℕ
  log : List Booking.Event

namespace Booking

/-- The process after the program is started: without the recovery flag, or with it and the saved
    state. -/
def start (name : String) (position destination : Position) (serverSender : ℕ)
    (status : Option Json) : Booking where
  actor := some (Passenger.start name position destination status.isSome serverSender,
    .setReceiver serverSender ::
      match status with
      | some status => [.recover status]
      | none => [.login name, .getDrivers])
  asked := []
  granted := []
  count := 0
  log := []

variable (distance : Position → Position → ℕ) (s : Booking)

/-- The attempt that starts with a handled message that asks the gateway `n` times. -/
def attempt (o : Oracle) (p : Passenger) (m : Msg) (n : ℕ) : List Attempt :=
  if n = 0 then []
  else (p.opens distance o m).toList.map fun c => { number := s.count, socket := c.socket }

/-- The connections that are asked for a ride. -/
def rideRequests (lines : List (Connection × DriverLine)) : List Connection :=
  lines.filterMap fun
    | (c, .requestRide _ _ _) => some c
    | _ => none

def isRequestDrive : Msg → Bool
  | .requestDrive => true
  | _ => false

/-- The actor handles the next message of its mailbox. A handler that panics ends the actor. -/
def recv (o : Oracle) : Option Booking :=
  match s.actor with
  | none | some (_, []) => none
  | some (p, m :: rest) =>
    match p.handle distance o m with
    | none => some { s with actor := none }
    | some (t, effects) =>
      let new := s.attempt distance o p m (authorizations effects)
      some
        { actor := some (t, rest ++ selfMessages effects)
          asked := s.asked ++ new
          granted := if isRequestDrive m then s.granted.tail else s.granted
          count := s.count + new.length
          log := (rideRequests (driverLines effects)).map (fun c => .requested s.granted.head? c) ++
            new.map .selected ++ s.log }

/-- The process after a step, if the step is possible. -/
def step (s : Booking) : Label → Option Booking
  | .recv o => s.recv distance o
  | .line m =>
    if m.isLine then
      s.actor.map fun (p, mailbox) => { s with actor := some (p, mailbox ++ [m]) }
    else none
  | .gateway isAuthorized =>
    match s.asked with
    | [] => none
    | a :: asked =>
      s.actor.map fun (p, mailbox) =>
        { s with
          actor := some (p, mailbox ++ paymentAuthorizationStatus isAuthorized)
          asked := asked
          granted := if isAuthorized then s.granted ++ [a] else s.granted
          log := if isAuthorized then .authorized a :: s.log else s.log }

/-- The connection of the passenger is to the driver that listens on `socket`. -/
def isConnected (p : Passenger) (socket : String) : Bool :=
  p.connections[0]?.any fun c => decide (c.socket = socket)

/-- **Nobody else is dialled in between**: when the gateway authorizes an attempt, the connection is
    still to the driver it selected, and as long as a `RequestDrive` waits, no connection to another
    driver takes its place. -/
def keepsDriver : Label → Bool
  | .recv o =>
    match s.actor with
    | some (p, m :: _) =>
      s.granted.isEmpty || (p.opens distance o m).all fun c => isConnected p c.socket
    | _ => true
  | .gateway true =>
    match s.actor, s.asked with
    | some (p, _), a :: _ => isConnected p a.socket
    | _, _ => true
  | _ => true

/-! ## What is known of the attempts -/

/-- The past says that `a` was selected and authorized after that. -/
def Authorized (a : Attempt) (log : List Event) : Prop :=
  ∃ later earlier, log = later ++ .authorized a :: earlier ∧ .selected a ∈ earlier

/-- Every request of the past was authorized before on its own, for the driver it went to. -/
def RequestsOk (log : List Event) : Prop :=
  ∀ new old a c, log = new ++ .requested a c :: old →
    ∃ b, a = some b ∧ c.socket = b.socket ∧ Authorized b old ∧ ∀ c', .requested a c' ∉ old

/-- The attempts that may still lead to a request. -/
def pending : List Attempt := s.granted ++ s.asked

/-- The invariant of the attempts. -/
structure Sound (s : Booking) : Prop where
  distinct : s.pending.Nodup
  numbers : ∀ a ∈ s.pending, a.number < s.count
  unrequested : ∀ a ∈ s.pending, ∀ c, .requested (some a) c ∉ s.log
  past : ∀ a c, .requested (some a) c ∈ s.log → a.number < s.count
  selected : ∀ a ∈ s.asked, .selected a ∈ s.log
  authorized : ∀ a ∈ s.granted, Authorized a s.log
  requests : RequestsOk s.log
  waiting : ∀ p mailbox, s.actor = some (p, mailbox) →
    mailbox.countP isRequestDrive = s.granted.length
  connected : ∀ p mailbox, s.actor = some (p, mailbox) →
    ∀ a ∈ s.granted, isConnected p a.socket = true
  dialled : ∀ p mailbox, s.actor = some (p, mailbox) → s.pending ≠ [] → p.connections ≠ []

variable {distance s} {s' : Booking} {l : Label} {log new : List Event} {a : Attempt}

theorem Authorized.append (h : Authorized a log) (new : List Event) : Authorized a (new ++ log) := by
  obtain ⟨later, earlier, rfl, hsel⟩ := h
  exact ⟨new ++ later, earlier, (List.append_assoc ..).symm, hsel⟩

/-- Events that are no requests change nothing about the requests of the past. -/
theorem RequestsOk.cons {e : Event} (h : RequestsOk log) (he : ∀ a c, e ≠ .requested a c) :
    RequestsOk (e :: log) := by
  intro new old a c heq
  cases new with
  | nil => exact absurd (List.cons.inj heq).1 (he a c)
  | cons x new => exact h new old a c (List.cons.inj heq).2

/-- A request that is authorized on its own joins the past. -/
theorem RequestsOk.request {c : Connection} (h : RequestsOk log) (hauth : Authorized a log)
    (hopen : ∀ c', .requested (some a) c' ∉ log) (hc : c.socket = a.socket) :
    RequestsOk (.requested (some a) c :: log) := by
  intro new old a' c' heq
  cases new with
  | nil =>
      obtain ⟨he, rfl⟩ := List.cons.inj heq
      obtain ⟨rfl, rfl⟩ := Event.requested.inj he
      exact ⟨a, rfl, hc, hauth, hopen⟩
  | cons x new => exact h new old a' c' (List.cons.inj heq).2

theorem setConnection_head (p : Passenger) (c : Connection) :
    (p.setConnection c).connections[0]? = some c := by
  unfold setConnection
  cases p.connections <;> simp

theorem isConnected_iff {p : Passenger} {socket : String} :
    isConnected p socket = true ↔ ∃ c, p.connections[0]? = some c ∧ c.socket = socket := by
  simp [isConnected, Option.any_eq_true]

theorem isConnected_unique {p : Passenger} {socket socket' : String}
    (h : isConnected p socket = true) (h' : isConnected p socket' = true) : socket = socket' := by
  obtain ⟨c, hc, rfl⟩ := isConnected_iff.1 h
  obtain ⟨c', hc', rfl⟩ := isConnected_iff.1 h'
  rw [Option.some.inj (hc.symm.trans hc')]

theorem sound_start (name : String) (position destination : Position) (serverSender : ℕ)
    (status : Option Json) : (start name position destination serverSender status).Sound where
  distinct := .nil
  numbers := by simp [pending, start]
  unrequested := by simp [pending, start]
  past := by simp [start]
  selected := by simp [start]
  authorized := by simp [start]
  requests := fun new old a c h => by simp [start] at h
  waiting := fun p mailbox hactor => by
    obtain ⟨-, rfl⟩ := Prod.mk.inj (Option.some.inj hactor)
    cases status <;> rfl
  connected := by simp [start]
  dialled := by simp [pending, start]

/-- A step of the actor: it handles the first message of its mailbox, or ends. -/
theorem recv_cases {o : Oracle} (h : s.recv distance o = some s') :
    s' = { s with actor := none } ∨ ∃ p m rest t self n authorized lines,
      s.actor = some (p, m :: rest) ∧ Searches distance o p m t self n authorized lines ∧
      s' =
        { actor := some (t, rest ++ self)
          asked := s.asked ++ s.attempt distance o p m authorized
          granted := if isRequestDrive m then s.granted.tail else s.granted
          count := s.count + (s.attempt distance o p m authorized).length
          log := (rideRequests lines).map (fun c => .requested s.granted.head? c) ++
            (s.attempt distance o p m authorized).map .selected ++ s.log } := by
  unfold recv at h
  split at h
  · cases h
  · cases h
  · next p m rest hactor =>
      split at h
      · exact .inl (Option.some.inj h).symm
      · next t effects hh =>
          exact .inr ⟨p, m, rest, t, _, _, _, _, hactor, handle_searches hh,
            (Option.some.inj h).symm⟩

/-- A message that is no part of an attempt leaves the attempts alone, as long as the passenger
    keeps its connection. -/
theorem Sound.aside {p t : Passenger} {mailbox mailbox' : List Msg} (hs : s.Sound)
    (hactor : s.actor = some (p, mailbox))
    (hwaiting : mailbox'.countP isRequestDrive = mailbox.countP isRequestDrive)
    (hkeeps : ∀ socket, s.granted ≠ [] → isConnected p socket = true →
      isConnected t socket = true)
    (hdialled : p.connections ≠ [] → t.connections ≠ []) :
    Sound { s with actor := some (t, mailbox') } where
  distinct := hs.distinct
  numbers := hs.numbers
  unrequested := hs.unrequested
  past := hs.past
  selected := hs.selected
  authorized := hs.authorized
  requests := hs.requests
  waiting := fun p' mailbox'' h => by
    obtain ⟨rfl, rfl⟩ := Prod.mk.inj (Option.some.inj h)
    exact hwaiting.trans (hs.waiting p mailbox hactor)
  connected := fun p' mailbox'' h a ha => by
    obtain ⟨rfl, rfl⟩ := Prod.mk.inj (Option.some.inj h)
    exact hkeeps a.socket (List.ne_nil_of_mem ha) (hs.connected p mailbox hactor a ha)
  dialled := fun p' mailbox'' h hpending => by
    obtain ⟨rfl, rfl⟩ := Prod.mk.inj (Option.some.inj h)
    exact hdialled (hs.dialled p mailbox hactor hpending)

/-- A driver is selected: a new attempt. -/
theorem Sound.select {p t : Passenger} {mailbox mailbox' : List Msg} {c : Connection}
    (hs : s.Sound) (hactor : s.actor = some (p, mailbox))
    (hwaiting : mailbox'.countP isRequestDrive = mailbox.countP isRequestDrive)
    (hconn : t.connections = (p.setConnection c).connections)
    (hkeeps : s.granted ≠ [] → isConnected p c.socket = true) :
    Sound
      { actor := some (t, mailbox')
        asked := s.asked ++ [{ number := s.count, socket := c.socket }]
        granted := s.granted
        count := s.count + 1
        log := .selected { number := s.count, socket := c.socket } :: s.log } := by
  have hnumbers : ∀ a ∈ s.granted ++ (s.asked ++ [⟨s.count, c.socket⟩]),
      a ∈ s.pending ∨ a = ⟨s.count, c.socket⟩ := by
    intro a ha
    rw [← List.append_assoc] at ha
    exact (List.mem_append.1 ha).imp id List.mem_singleton.1
  have hhead : t.connections[0]? = some c := by
    rw [hconn]
    exact setConnection_head p c
  constructor
  case distinct =>
    show (s.granted ++ (s.asked ++ [_])).Nodup
    rw [← List.append_assoc, List.nodup_append]
    refine ⟨hs.distinct, List.nodup_singleton _, fun a ha b hb heq => ?_⟩
    have := hs.numbers a ha
    rw [heq, List.mem_singleton.1 hb] at this
    exact Nat.lt_irrefl _ this
  case numbers =>
    intro a ha
    rcases hnumbers a ha with hold | rfl
    · exact Nat.lt_succ_of_lt (hs.numbers a hold)
    · exact Nat.lt_succ_self _
  case unrequested =>
    intro a ha c' hc'
    rcases List.mem_cons.1 hc' with hc' | hc'
    · cases hc'
    · rcases hnumbers a ha with hold | rfl
      · exact hs.unrequested a hold c' hc'
      · exact Nat.lt_irrefl _ (hs.past _ c' hc')
  case past =>
    intro a c' hc'
    rcases List.mem_cons.1 hc' with hc' | hc'
    · cases hc'
    · exact Nat.lt_succ_of_lt (hs.past a c' hc')
  case selected =>
    intro a ha
    rcases List.mem_append.1 ha with ha | ha
    · exact List.mem_cons_of_mem _ (hs.selected a ha)
    · rw [List.mem_singleton.1 ha]
      exact List.mem_cons_self
  case authorized => exact fun a ha => (hs.authorized a ha).append [_]
  case requests => exact hs.requests.cons (by simp)
  case waiting =>
    intro p' mailbox'' h
    obtain ⟨rfl, rfl⟩ := Prod.mk.inj (Option.some.inj h)
    exact hwaiting.trans (hs.waiting p mailbox hactor)
  case connected =>
    intro p' mailbox'' h a ha
    obtain ⟨rfl, rfl⟩ := Prod.mk.inj (Option.some.inj h)
    have hsame := isConnected_unique (hs.connected p mailbox hactor a ha)
      (hkeeps (List.ne_nil_of_mem ha))
    exact isConnected_iff.2 ⟨c, hhead, hsame.symm⟩
  case dialled =>
    intro p' mailbox'' h _ hnil
    obtain ⟨rfl, rfl⟩ := Prod.mk.inj (Option.some.inj h)
    rw [hnil] at hhead
    cases hhead

/-- The driver of the oldest authorized attempt is asked. -/
theorem Sound.request {p : Passenger} {rest : List Msg} {c : Connection} (hs : s.Sound)
    (hactor : s.actor = some (p, .requestDrive :: rest)) (hc : p.connections[0]? = some c) :
    Sound
      { s with
        actor := some (p, rest)
        granted := s.granted.tail
        log := .requested s.granted.head? c :: s.log } := by
  have hcount := hs.waiting p _ hactor
  rw [List.countP_cons_of_pos rfl] at hcount
  obtain ⟨a, granted, hgranted⟩ : ∃ a granted, s.granted = a :: granted := by
    cases hg : s.granted with
    | nil => rw [hg] at hcount; simp at hcount
    | cons a granted => exact ⟨a, granted, rfl⟩
  have ha : a ∈ s.granted := hgranted ▸ List.mem_cons_self
  have hpending : ∀ x ∈ granted ++ s.asked, x ∈ s.pending ∧ x ≠ a := by
    intro x hx
    have hnodup := hs.distinct
    rw [pending, hgranted, List.cons_append, List.nodup_cons] at hnodup
    refine ⟨?_, fun heq => hnodup.1 (heq ▸ hx)⟩
    rw [pending, hgranted, List.cons_append]
    exact List.mem_cons_of_mem _ hx
  have hapending : a ∈ s.pending := List.mem_append_left _ ha
  have hsocket : c.socket = a.socket := by
    obtain ⟨c', hc', hsocket⟩ := isConnected_iff.1 (hs.connected p _ hactor a ha)
    rw [Option.some.inj (hc.symm.trans hc')]
    exact hsocket
  simp only [hgranted, List.tail_cons, List.head?_cons]
  constructor
  case distinct =>
    have hnodup := hs.distinct
    rw [pending, hgranted, List.cons_append, List.nodup_cons] at hnodup
    exact hnodup.2
  case numbers => exact fun x hx => hs.numbers x (hpending x hx).1
  case unrequested =>
    intro x hx c' hc'
    rcases List.mem_cons.1 hc' with hc' | hc'
    · obtain ⟨heq, -⟩ := Event.requested.inj hc'
      exact (hpending x hx).2 (Option.some.inj heq)
    · exact hs.unrequested x (hpending x hx).1 c' hc'
  case past =>
    intro x c' hc'
    rcases List.mem_cons.1 hc' with hc' | hc'
    · obtain ⟨heq, -⟩ := Event.requested.inj hc'
      rw [Option.some.inj heq]
      exact hs.numbers a hapending
    · exact hs.past x c' hc'
  case selected => exact fun x hx => List.mem_cons_of_mem _ (hs.selected x hx)
  case authorized =>
    exact fun x hx => (hs.authorized x (hgranted ▸ List.mem_cons_of_mem _ hx)).append [_]
  case requests =>
    exact hs.requests.request (hs.authorized a ha) (hs.unrequested a hapending) hsocket
  case waiting =>
    intro p' mailbox h
    obtain ⟨rfl, rfl⟩ := Prod.mk.inj (Option.some.inj h)
    rw [hgranted, List.length_cons] at hcount
    exact Nat.succ.inj hcount
  case connected =>
    intro p' mailbox h x hx
    obtain ⟨rfl, rfl⟩ := Prod.mk.inj (Option.some.inj h)
    exact hs.connected p _ hactor x (hgranted ▸ List.mem_cons_of_mem _ hx)
  case dialled =>
    intro p' mailbox h _
    obtain ⟨rfl, rfl⟩ := Prod.mk.inj (Option.some.inj h)
    exact hs.dialled p _ hactor (List.ne_nil_of_mem hapending)

theorem not_requestDrive {m : Msg} (h : m.isSearch = false) : isRequestDrive m = false := by
  cases m <;> first | rfl | cases h

theorem countP_quiet {self : List Msg} (h : ∀ x ∈ self, isRequestDrive x = false) :
    self.countP isRequestDrive = 0 :=
  List.countP_eq_zero.2 fun x hx => by simp [h x hx]

theorem sound_recv {o : Oracle} (hs : s.Sound) (hok : s.keepsDriver distance (.recv o) = true)
    (h : s.recv distance o = some s') : s'.Sound := by
  rcases recv_cases h with rfl | ⟨p, m, rest, t, self, n, authorized, lines, hactor, hh, rfl⟩
  · exact ⟨hs.distinct, hs.numbers, hs.unrequested, hs.past, hs.selected, hs.authorized,
      hs.requests, nofun, nofun, nofun⟩
  · simp only [keepsDriver, hactor, Bool.or_eq_true, List.isEmpty_iff] at hok
    -- the queue after a message that is not `RequestDrive`
    have hqueue : isRequestDrive m = false → (∀ x ∈ self, isRequestDrive x = false) →
        (rest ++ self).countP isRequestDrive = (m :: rest).countP isRequestDrive := by
      intro hm hself
      rw [List.countP_append, countP_quiet hself, List.countP_cons_of_neg (by simp [hm])]
      rfl
    have same : ∀ {t' : Passenger}, p.connections = t'.connections →
        (∀ socket, s.granted ≠ [] → isConnected p socket = true →
          isConnected t' socket = true) ∧
        (p.connections ≠ [] → t'.connections ≠ []) := by
      intro t' heq
      simp only [isConnected, heq]
      exact ⟨fun _ _ h => h, id⟩
    have kept : ∀ {c : Connection}, p.opens distance o m = some c → s.granted ≠ [] →
        isConnected p c.socket = true := by
      intro c hopens hne
      have := hok.resolve_left hne
      rwa [hopens, Option.all_some] at this
    have aside : isRequestDrive m = false → (∀ x ∈ self, isRequestDrive x = false) →
        (∀ socket, s.granted ≠ [] → isConnected p socket = true →
          isConnected t socket = true) ∧ (p.connections ≠ [] → t.connections ≠ []) →
        Sound { s with actor := some (t, rest ++ self) } := fun hm hself hconn =>
      hs.aside hactor (hqueue hm hself) hconn.1 hconn.2
    cases hh with
    | aside hm hstatus hauth hopens hsame hself =>
        have hquiet := aside (not_requestDrive hm) (fun x hx => not_requestDrive (hself x hx))
          (same hsame.connections.symm)
        simpa [attempt, rideRequests, not_requestDrive hm] using hquiet
    | asks =>
        have := aside rfl (by split <;> simp [isRequestDrive]) (same rfl)
        simpa [attempt, rideRequests, isRequestDrive] using this
    | asksAgain id hsame =>
        have := aside rfl (by simp) (same hsame.connections.symm)
        simpa [attempt, rideRequests, isRequestDrive] using this
    | nobody driversInfo hsame =>
        have := aside rfl (by simp) (same hsame.connections.symm)
        simpa [attempt, rideRequests, isRequestDrive] using this
    | unreachable driversInfo rest hsame =>
        have := aside rfl (by simp [isRequestDrive]) (same hsame.connections.symm)
        simpa [attempt, rideRequests, isRequestDrive] using this
    | selects driversInfo c hopens hconn hauth =>
        have := hs.select hactor (hqueue rfl (by simp)) hconn (kept hopens)
        simpa [attempt, rideRequests, isRequestDrive, hopens] using this
    | requests c hc =>
        have := hs.request hactor hc
        simpa [attempt, rideRequests, isRequestDrive, rideRequest] using this
    | keepsLooking =>
        have := aside rfl (by simp [isRequestDrive]) (same rfl)
        simpa [attempt, rideRequests, isRequestDrive] using this
    | authorized =>
        have := aside rfl (by simp) (same rfl)
        simpa [attempt, rideRequests, isRequestDrive] using this
    | denied =>
        have := aside rfl (by simp [isRequestDrive]) (same rfl)
        simpa [attempt, rideRequests, isRequestDrive] using this
    | reconnects socket c hopens =>
        have hhead := setConnection_head p c
        have := aside rfl (by simp) ⟨fun socket' hne hconn => by
          rw [isConnected_unique hconn (kept hopens hne)]
          exact isConnected_iff.2 ⟨c, hhead, rfl⟩, fun _ hnil => by
          rw [hnil] at hhead
          cases hhead⟩
        simpa [attempt, rideRequests, isRequestDrive] using this
    | recovers status hlines =>
        have hrides : rideRequests lines = [] := List.filterMap_eq_nil_iff.2 fun line hline => by
          rw [show line = (line.1, line.2) from rfl, hlines line hline]
        have := aside rfl (by split <;> simp [isRequestDrive]) (same rfl)
        simpa [attempt, isRequestDrive, hrides] using this

/-- A line of the leader or of a driver is no `RequestDrive`. -/
theorem sound_line {m : Msg} {p : Passenger} {mailbox : List Msg} (hs : s.Sound)
    (hm : m.isLine = true) (hactor : s.actor = some (p, mailbox)) :
    Sound { s with actor := some (p, mailbox ++ [m]) } := by
  refine hs.aside hactor ?_ (fun _ _ h => h) id
  have hquiet : isRequestDrive m = false := by
    cases m <;> first | rfl | cases hm
  have hnone : [m].countP isRequestDrive = 0 := countP_quiet (by simpa using hquiet)
  rw [List.countP_append, hnone]
  rfl

/-- The gateway denies the oldest attempt. -/
theorem sound_denied {p : Passenger} {mailbox : List Msg} {asked : List Attempt} (hs : s.Sound)
    (hasked : s.asked = a :: asked) (hactor : s.actor = some (p, mailbox)) :
    Sound { s with actor := some (p, mailbox ++ [.paymentDeny]), asked := asked } := by
  have hsub : List.Sublist (s.granted ++ asked) s.pending := by
    rw [pending, hasked]
    exact (List.sublist_cons_self a asked).append_left s.granted
  constructor
  case distinct => exact hs.distinct.sublist hsub
  case numbers => exact fun x hx => hs.numbers x (hsub.subset hx)
  case unrequested => exact fun x hx => hs.unrequested x (hsub.subset hx)
  case past => exact hs.past
  case selected => exact fun x hx => hs.selected x (hasked ▸ List.mem_cons_of_mem a hx)
  case authorized => exact hs.authorized
  case requests => exact hs.requests
  case waiting =>
    intro p' mailbox' h
    obtain ⟨rfl, rfl⟩ := Prod.mk.inj (Option.some.inj h)
    rw [List.countP_append]
    exact hs.waiting p mailbox hactor
  case connected =>
    intro p' mailbox' h
    obtain ⟨rfl, rfl⟩ := Prod.mk.inj (Option.some.inj h)
    exact hs.connected p mailbox hactor
  case dialled =>
    intro p' mailbox' h hpending
    obtain ⟨rfl, rfl⟩ := Prod.mk.inj (Option.some.inj h)
    refine hs.dialled p mailbox hactor fun hnil => hpending ?_
    rw [hnil] at hsub
    exact List.sublist_nil.1 hsub

/-- The gateway authorizes the oldest attempt, whose driver the connection is still to. -/
theorem sound_authorized {p : Passenger} {mailbox : List Msg} {asked : List Attempt} (hs : s.Sound)
    (hasked : s.asked = a :: asked) (hactor : s.actor = some (p, mailbox))
    (hconn : isConnected p a.socket = true) :
    Sound
      { s with
        actor := some (p, mailbox ++ [.paymentAuthorized, .requestDrive])
        asked := asked
        granted := s.granted ++ [a]
        log := .authorized a :: s.log } := by
  -- the attempt changes its list, and keeps its place
  have hpending : (s.granted ++ [a]) ++ asked = s.pending := by
    rw [pending, hasked, List.append_assoc]
    rfl
  have hask : .selected a ∈ s.log := hs.selected a (hasked ▸ List.mem_cons_self)
  have requested_mem : ∀ {x c}, Event.requested x c ∈ Event.authorized a :: s.log →
      Event.requested x c ∈ s.log := by simp
  constructor
  case distinct => exact (congrArg List.Nodup hpending).mpr hs.distinct
  case numbers => exact fun x hx => hs.numbers x (hpending ▸ hx)
  case unrequested => exact fun x hx c hc => hs.unrequested x (hpending ▸ hx) c (requested_mem hc)
  case past => exact fun x c hc => hs.past x c (requested_mem hc)
  case selected =>
    intro x hx
    exact List.mem_cons_of_mem _ (hs.selected x (hasked ▸ List.mem_cons_of_mem a hx))
  case authorized =>
    intro x hx
    rcases List.mem_append.1 hx with hx | hx
    · exact (hs.authorized x hx).append [_]
    · rw [List.mem_singleton.1 hx]
      exact ⟨[], s.log, rfl, hask⟩
  case requests => exact hs.requests.cons (by simp)
  case waiting =>
    intro p' mailbox' h
    obtain ⟨rfl, rfl⟩ := Prod.mk.inj (Option.some.inj h)
    rw [List.countP_append, hs.waiting p mailbox hactor, List.length_append]
    rfl
  case connected =>
    intro p' mailbox' h x hx
    obtain ⟨rfl, rfl⟩ := Prod.mk.inj (Option.some.inj h)
    rcases List.mem_append.1 hx with hx | hx
    · exact hs.connected p mailbox hactor x hx
    · rw [List.mem_singleton.1 hx]
      exact hconn
  case dialled =>
    intro p' mailbox' h hne
    obtain ⟨rfl, rfl⟩ := Prod.mk.inj (Option.some.inj h)
    exact hs.dialled p mailbox hactor (hpending ▸ hne)

theorem sound_step (hs : s.Sound) (hok : s.keepsDriver distance l = true)
    (h : step distance s l = some s') : s'.Sound := by
  cases l with
  | recv o => exact sound_recv hs hok h
  | line m =>
      simp only [step] at h
      split at h
      · next hm =>
          obtain ⟨⟨p, mailbox⟩, hactor, rfl⟩ := Option.map_eq_some_iff.1 h
          exact sound_line hs hm hactor
      · cases h
  | gateway isAuthorized =>
      simp only [step] at h
      split at h
      · cases h
      · next a asked hasked =>
          obtain ⟨⟨p, mailbox⟩, hactor, rfl⟩ := Option.map_eq_some_iff.1 h
          cases isAuthorized with
          | false => exact sound_denied hs hasked hactor
          | true =>
              simp only [keepsDriver, hactor, hasked] at hok
              exact sound_authorized hs hasked hactor hok

/-- **No ride request without its own authorization.** In every run of a passenger that dials nobody
    else between the selection of a driver and the request to it, a request goes to the driver of an
    attempt that was authorized after the selection, and no two requests share an attempt. A
    `RequestDrive` is never handled without a connection. -/
theorem requests_own_authorization {name : String} {position destination : Position}
    {serverSender : ℕ} {status : Option Json} {ls : List Label}
    (h : Run (step distance) (fun s l => s.keepsDriver distance l = true)
      (start name position destination serverSender status) ls s) :
    RequestsOk s.log ∧
    ∀ p rest, s.actor = some (p, .requestDrive :: rest) → p.connections ≠ [] := by
  have hs : s.Sound := h.invariant (fun _ _ _ hs hok hst => sound_step hs hok hst)
    (sound_start name position destination serverSender status)
  refine ⟨hs.requests, fun p rest hactor => hs.dialled p _ hactor ?_⟩
  have hwaiting := hs.waiting p _ hactor
  rw [List.countP_cons_of_pos rfl] at hwaiting
  intro hnil
  rw [(List.append_eq_nil_iff.1 hnil).1] at hwaiting
  cases hwaiting

/-- Everybody is one step away. -/
def near : Position → Position → ℕ := fun _ _ => 1

def mario : DriverInfo := { socket := "127.0.0.1:40000", position := (5, 3) }

/-- A connection to a driver can be opened. -/
def reachable : Oracle := { connected := true, driver := some 1, server := none }

/-- Passenger "peach" logs in, selects driver "mario", and asks it after the authorization. -/
def firstRide : List Label :=
  [.recv .up, .recv .up, .recv .up, .line (.drivers [mario]), .recv reachable, .gateway true,
    .recv .up, .recv .up]

theorem requests_own_authorization_firstRide :
    ∃ s : Booking, s.log ≠ [] ∧ RequestsOk s.log := by
  obtain ⟨s, hrun, hlog⟩ := exists_run_of_exec (keepsDriver near)
    (start "peach" (2, 2) (8, 8) 0 none) firstRide
    (fun (s : Booking) => decide (s.log.length = 3))
    (show (exec (step near) _ _ _).any _ = true by decide +kernel)
  refine ⟨s, fun hnil => ?_, (requests_own_authorization hrun).1⟩
  rw [hnil] at hlog
  cases hlog

/-- Driver "luigi" was on the way with an earlier process of "peach". It comes back, and the leader
    reports it, while the gateway looks at the payment for "mario". -/
def otherDriverReconnects : List Label :=
  [.recv .up, .recv .up, .recv .up, .line (.drivers [mario]), .recv reachable,
    .line (.reconnectDriver "127.0.0.1:40001"), .recv reachable, .gateway true, .recv .up, .recv .up]

theorem not_requests_own_authorization :
    ¬ ∀ (ls : List Label) (s : Booking),
      Run (step near) (fun _ _ => True) (start "peach" (2, 2) (8, 8) 0 none) ls s →
      RequestsOk s.log := by
  intro hall
  obtain ⟨s, hrun, hlog⟩ := exists_run_of_exec (fun _ _ => true)
    (start "peach" (2, 2) (8, 8) 0 none) otherDriverReconnects
    (fun (s : Booking) => s.log.head? ==
      some (.requested (some ⟨0, mario.socket⟩) ⟨"127.0.0.1:40001", 1⟩))
    (show (exec (step near) _ _ _).any _ = true by decide +kernel)
  obtain ⟨old, hold⟩ : ∃ old, s.log =
      .requested (some ⟨0, mario.socket⟩) ⟨"127.0.0.1:40001", 1⟩ :: old := by
    cases hs : s.log with
    | nil => rw [hs] at hlog; cases hlog
    | cons e old =>
        rw [hs] at hlog
        exact ⟨old, by simpa using hlog⟩
  obtain ⟨b, hb, hsocket, -⟩ := hall _ s (hrun.mono fun _ _ _ => trivial) [] old _ _ hold
  obtain rfl := Option.some.inj hb
  exact absurd hsocket (by decide)

end Booking

end ConcuRide.Passenger
