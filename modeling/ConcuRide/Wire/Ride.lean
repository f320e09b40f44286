import ConcuRide.Lib.Link
import ConcuRide.Rides.World
import ConcuRide.Wire.Connection

set_option autoImplicit false

/-! # The rides on real connections

`World` passes messages around: whatever the passenger or a driver writes is on its way until it
arrives. Here they write lines on TCP connections, whose bytes travel in portions of any size and
may be lost with the connection, and the gateway is a process of its own. Every run of `Wired` is
one of `World`, with the same handlers in the same order. -/

namespace ConcuRide

open Lib

/-! ## Connections that hold messages -/

namespace Protocol

variable {codec : JsonCodec} {ι κ β : Type} (P : Protocol codec ι κ β)

/-- The connection holds these messages. -/
structure Holds (L : Link ι) (queue : List ι) : Prop where
  holds : L.Holds P.serialized queue
  inRange : ∀ m ∈ L.channel.sent, P.InRange m

variable {P} {L L' : Link ι} {queue ms : List ι} {m : ι} {l : Channel.Label ι}
  {line : Option String}

theorem holds_init : P.Holds Link.init [] := ⟨Link.holds_init, nofun⟩

theorem Holds.send (h : P.Holds L queue) (hm : P.InRange m) :
    P.Holds (L.send P.serialized m) (queue ++ [m]) := by
  refine ⟨h.holds.send (P.oneLine hm), fun m' hm' => ?_⟩
  by_cases hclosed : L.channel.closed = true
  · refine h.inRange m' ?_
    simpa [Link.send, Channel.step, hclosed] using hm'
  · have hsent : m' ∈ L.channel.sent ++ [m] := by
      simpa [Link.send, Channel.step, hclosed] using hm'
    rcases List.mem_append.1 hsent with hold | hnew
    · exact h.inRange m' hold
    · exact List.mem_singleton.1 hnew ▸ hm

/-- What a handler writes comes behind what is on its way. -/
theorem Holds.sendAll (h : P.Holds L queue) (hms : ∀ m ∈ ms, P.InRange m) :
    P.Holds (ms.foldl (Link.send P.serialized) L) (queue ++ ms) := by
  induction ms generalizing L queue with
  | nil => rwa [List.append_nil]
  | cons m ms ih =>
      obtain ⟨hm, hms⟩ := List.forall_mem_cons.1 hms
      rw [List.foldl_cons, List.append_cons]
      exact ih (h.send hm) hms

theorem Holds.travel (h : P.Holds L queue) (hL' : L.travel P.serialized l = some L') :
    P.Holds L' queue := by
  obtain ⟨hl, c, hstep, rfl⟩ := Link.travel_cases hL'
  exact ⟨h.holds.travel hL', (Link.step_travel hl hstep).1 ▸ h.inRange⟩

theorem Holds.closeIf (h : P.Holds L queue) (ends : Bool) : P.Holds (L.closeIf ends) queue := by
  refine ⟨h.holds.closeIf ends, ?_⟩
  unfold Link.closeIf
  split <;> exact h.inRange

/-- One of many connections changes. -/
theorem holds_update {links : ℕ → Link ι} {queues : ℕ → List ι} {n : ℕ} (hn : P.Holds L (queues n))
    (hothers : ∀ k, k ≠ n → P.Holds (links k) (queues k)) (k : ℕ) :
    P.Holds (Function.update links n L k) (queues k) := by
  by_cases hk : k = n
  · subst hk
    rwa [Function.update_self]
  · rw [Function.update_of_ne hk]
    exact hothers k hk

/-- **A line is the first message**, or means nothing. -/
theorem Holds.next (hcodec : codec.RejectsTruncated) (h : P.Holds L queue)
    (hnext : L.next = some (line, L')) :
    (∃ m rest, queue = m :: rest ∧ (∀ ctx, P.Means m ctx (P.read ctx line)) ∧ P.Holds L' rest) ∨
      (∀ ctx, P.read ctx line = []) ∧ P.Holds L' queue := by
  have hsame : L'.channel.sent = L.channel.sent := by
    obtain ⟨_, -, heq⟩ := Option.map_eq_some_iff.1 hnext
    obtain ⟨-, rfl⟩ := Prod.mk.inj heq
    rfl
  obtain ⟨m, hm, ⟨rfl, rest, rfl, hrest⟩ | ⟨⟨hne, hbegins⟩, hsame'⟩⟩ := h.holds.next hnext
  · exact .inl ⟨m, rest, rfl, fun ctx => means_serialized (h.inRange m hm) ctx, hrest,
      hsame ▸ h.inRange⟩
  · refine .inr ⟨fun ctx => ?_, hsame', hsame ▸ h.inRange⟩
    cases line with
    | none => exact P.skips ctx none rfl
    | some s =>
        exact skips_truncated hcodec (h.inRange m hm) (hbegins s rfl) (fun h => hne (h ▸ rfl)) ctx

end Protocol

/-! ## Lines that are on their way -/

namespace World

variable {α : Type} {n : ℕ}

/-- Of the lines with their connections, those of connection `n`. -/
def onConnection (n : ℕ) (lines : List (ℕ × α)) : List α :=
  lines.filterMap fun l => if l.1 = n then some l.2 else none

theorem onConnection_append (n : ℕ) (a b : List (ℕ × α)) :
    onConnection n (a ++ b) = onConnection n a ++ onConnection n b := List.filterMap_append

theorem forall_onConnection {lines : List (ℕ × α)} {P : α → Prop} (h : ∀ l ∈ lines, P l.2)
    (n : ℕ) : ∀ m ∈ onConnection n lines, P m := by
  intro m hm
  obtain ⟨l, hl, hlm⟩ := List.mem_filterMap.1 hm
  split at hlm
  · exact Option.some.inj hlm ▸ h l hl
  · cases hlm

/-- The first line of a connection can be taken out, and the other connections do not notice. -/
theorem onConnection_cons {lines : List (ℕ × α)} {m : α} {rest : List α}
    (h : onConnection n lines = m :: rest) : ∃ i, lines[i]? = some (n, m) ∧
      onConnection n (lines.eraseIdx i) = rest ∧
      ∀ k, k ≠ n → onConnection k (lines.eraseIdx i) = onConnection k lines := by
  induction lines with
  | nil => cases h
  | cons l lines ih =>
      by_cases hn : l.1 = n
      · have hl : onConnection n (l :: lines) = l.2 :: onConnection n lines := by
          simp [onConnection, hn]
        obtain ⟨rfl, rfl⟩ := List.cons.inj (hl.symm.trans h)
        refine ⟨0, by rw [List.getElem?_cons_zero, ← hn], rfl, fun k hk => ?_⟩
        simp [onConnection, hn, Ne.symm hk]
      · have hl : onConnection n (l :: lines) = onConnection n lines := by
          simp [onConnection, hn]
        obtain ⟨i, hi, hrest, hothers⟩ := ih (hl.symm.trans h)
        refine ⟨i + 1, hi, ?_, fun k hk => ?_⟩
        · rw [← hrest]
          simp [onConnection, hn]
        · have hk' := hothers k hk
          simp only [onConnection, List.eraseIdx_cons_succ, List.filterMap_cons] at hk' ⊢
          rw [hk']

/-- The world with more lines and requests on their way. -/
def onWay (w : World) (up : List (ℕ × Passenger.DriverLine))
    (down : List (ℕ × Driver.PassengerLine)) (auths : ℕ) : World :=
  { w with up := up ++ w.up, down := down ++ w.down, auths := auths + w.auths }

/-- A step that neither delivers a line nor starts the passenger anew. -/
def Label.isLocal : Label → Bool
  | .toDriver _ | .toPassenger _ | .gateway _ | .restartPassenger .. => false
  | _ => true

variable {distance : Position → Position → ℕ} {own : ℕ → Bool} {name : String} {w w' : World}
  {l : Label}

/-- **What is on its way does not matter** to any step but a delivery. -/
theorem step_onWay (hl : l.isLocal = true) (h : step distance own name w l = some w')
    (up : List (ℕ × Passenger.DriverLine)) (down : List (ℕ × Driver.PassengerLine)) (auths : ℕ) :
    step distance own name (w.onWay up down auths) l = some (w'.onWay up down auths) := by
  cases l with
  | toDriver | toPassenger | gateway | restartPassenger => cases hl
  | recv o d =>
      simp only [step, recv] at h ⊢
      split at h
      · cases h
      · cases h
      · next p m rest hactor =>
          have hactor' : (w.onWay up down auths).passenger = some (p, m :: rest) := hactor
          simp only [hactor']
          split at h
          · next hok =>
              refine (if_pos hok).trans ?_
              split at h
              · obtain rfl := Option.some.inj h
                cases m <;> rfl
              · obtain rfl := Option.some.inj h
                simp only [handled, onWay, List.append_assoc, Nat.add_assoc]
                rfl
          · cases h
  | notice m =>
      simp only [step] at h
      split at h
      · next hm =>
          obtain ⟨a, ha, rfl⟩ := Option.map_eq_some_iff.1 h
          exact (if_pos hm).trans (Option.map_eq_some_iff.2 ⟨a, ha, rfl⟩)
      · cases h
  | answer i driversInfo =>
      simp only [step] at h
      split at h
      · next hi =>
          obtain ⟨a, ha, rfl⟩ := Option.map_eq_some_iff.1 h
          exact (if_pos hi).trans (Option.map_eq_some_iff.2 ⟨a, ha, rfl⟩)
      · cases h
  | linkDies k =>
      obtain rfl := Option.some.inj h
      rfl
  | drives d o =>
      simp only [step, drives, Option.bind_eq_bind, Option.bind_eq_some_iff] at h
      obtain ⟨⟨s, effects⟩, hrecv, h⟩ := h
      obtain rfl := Option.some.inj h
      refine Option.bind_eq_some_iff.2 ⟨(s, effects), hrecv, ?_⟩
      simp only [onWay, List.append_assoc]
      rfl
  | foreign d m =>
      simp only [step] at h
      split at h
      · next hm =>
          obtain ⟨s, hs, rfl⟩ := Option.map_eq_some_iff.1 h
          exact (if_pos hm).trans (Option.map_eq_some_iff.2 ⟨s, hs, rfl⟩)
      · cases h
  | crashPassenger =>
      simp only [step] at h
      split at h
      · next hrun =>
          obtain rfl := Option.some.inj h
          exact if_pos hrun
      · cases h
  | crashDriver d =>
      obtain ⟨s, hs, rfl⟩ := Option.map_eq_some_iff.1 h
      exact Option.map_eq_some_iff.2 ⟨s, hs, rfl⟩
  | startDriver d at_ =>
      obtain ⟨s, hs, rfl⟩ := Option.map_eq_some_iff.1 h
      exact Option.map_eq_some_iff.2 ⟨s, hs, rfl⟩

theorem toDriver_arrives {i : ℕ} {m : Passenger.DriverLine} {r : Route} {s : Driver.Process}
    (hi : w.up[i]? = some (n, m)) (hroute : w.routes n = some r)
    (hstart : r.start = w.starts r.driver)
    (hs : (w.drivers r.driver).enqueue (m.toMsg n) = some s) :
    w.toDriver i = some { w.setDriver r.driver s with up := w.up.eraseIdx i } := by
  simp [toDriver, hi, hroute, hstart, hs]

theorem toPassenger_arrives {i : ℕ} {m : Driver.PassengerLine} {r : Route}
    (hi : w.down[i]? = some (n, m)) (hroute : w.routes n = some r)
    (hsession : r.session = w.session) (hw' : w.enqueue [m.toMsg] = some w') :
    w.toPassenger i = some { w' with
      down := w'.down.eraseIdx i
      arrivals := if m.isArrived then w'.arrivals + 1 else w'.arrivals } := by
  simp [toPassenger, hi, hroute, hsession, hw']

end World

/-! ## The wired rides -/

/-- The lines a handler writes to the gateway. -/
def Passenger.gatewayLines (effects : List Passenger.Effect) : List Passenger.GatewayLine :=
  effects.filterMap fun
    | .gateway line => some line
    | _ => none

def Passenger.GatewayLine.isAuthorizePayment : GatewayLine → Bool
  | .authorizePayment => true
  | .confirmPayment _ => false

def Gateway.PassengerLine.isStatus : PassengerLine → Bool
  | .paymentAuthorizationStatus _ => true
  | .pagoConfirmado => false

/-- What the `TcpConnection` of the gateway writes, and whose payments it logs. -/
def Gateway.answers (effects : List Gateway.Effect) : List Gateway.PassengerLine :=
  effects.filterMap fun
    | .tcp line => some line
    | .paymentReceived _ => none

def Gateway.received (effects : List Gateway.Effect) : List String :=
  effects.filterMap fun
    | .tcp _ => none
    | .paymentReceived name => some name

def Passenger.Msg.isArrived : Msg → Bool
  | .driverArrived => true
  | _ => false

/-- What a `GatewayConnection` sends its passenger. -/
def Passenger.GatewayConnection.messages (effects : List GatewayConnection.Effect) :
    List Passenger.Msg :=
  effects.filterMap fun
    | .passenger m => some m
    | .paymentConfirmed => none

/-- The passenger and the drivers, what their connections hold, and the gateway. In `world` nothing
    is on its way: it is on the connections. -/
structure Wired where
  world : World
  /-- the connections of the passenger to drivers, by their numbers -/
  up : ℕ → Link Passenger.DriverLine
  /-- the same connections, back -/
  down : ℕ → Link Driver.PassengerLine
  toGateway : Link Passenger.GatewayLine
  fromGateway : Link Gateway.PassengerLine
  /-- who has paid, as the gateway logs it -/
  paid : List String

namespace Wired

inductive Label where
  /-- what is not an arrival happens as in `World` -/
  | acts (l : World.Label)
  /-- bytes travel on a connection, or it is lost -/
  | up (n : ℕ) (l : Channel.Label Passenger.DriverLine)
  | down (n : ℕ) (l : Channel.Label Driver.PassengerLine)
  | toGateway (l : Channel.Label Passenger.GatewayLine)
  | fromGateway (l : Channel.Label Gateway.PassengerLine)
  /-- the driver's `PassengerConnection` gets a line of connection `n` -/
  | driverReads (n : ℕ)
  /-- the passenger's `TcpReceiver` gets a line of connection `n` -/
  | passengerReads (n : ℕ)
  /-- the gateway gets a line; `isAuthorized` is what `authorize_payment` draws -/
  | gatewayReads (isAuthorized : Bool)
  /-- the passenger's `GatewayConnection` gets a line -/
  | statusArrives

/-- Nothing has been written on any connection. -/
def init (name : String) (position destination : Position) (k : ℕ) : Wired where
  world := World.init name position destination k
  up := fun _ => .init
  down := fun _ => .init
  toGateway := .init
  fromGateway := .init
  paid := []

variable (codec : JsonCodec) (distance : Position → Position → ℕ) (own : ℕ → Bool) (name : String)
  (w : Wired)

/-- What the next handler of the passenger writes to the gateway. -/
def written (w : World) : World.Label → List Passenger.GatewayLine
  | .recv o _ =>
    match w.passenger with
    | some (p, m :: _) => (p.handle distance o m).elim [] fun r => Passenger.gatewayLines r.2
    | _ => []
  | _ => []

/-- The passenger's end of connection `n` is that of a program that has ended. -/
def passengerEnds (w : World) (n : ℕ) : Bool :=
  w.passenger.isNone && (w.routes n).any fun r => decide (r.session = w.session)

/-- The driver's end of connection `n` is that of a program that has ended. -/
def driverEnds (w : World) (n : ℕ) : Bool :=
  (w.routes n).any fun r =>
    (w.drivers r.driver).actor.isNone && decide (r.start = w.starts r.driver)

/-- What a step puts on its way goes on the connections, and the program that ends with it closes
    its own. -/
def carry (world : World) (lines : List Passenger.GatewayLine) : Wired :=
  { w with
    world := { world with up := [], down := [], auths := 0 }
    up := fun n => .closeIf (passengerEnds world n) <| (World.onConnection n world.up).foldl
      (Link.send (Protocol.passengerToDriver codec).serialized) (w.up n)
    down := fun n => .closeIf (driverEnds world n) <| (World.onConnection n world.down).foldl
      (Link.send (Protocol.driverToPassenger codec).serialized) (w.down n)
    toGateway := .closeIf world.passenger.isNone <| lines.foldl
      (Link.send (Protocol.passengerToGateway codec).serialized) w.toGateway }

/-- A step that is no arrival. A passenger that is started connects to the gateway anew. -/
def acts : World.Label → Option Wired
  | .toDriver _ | .toPassenger _ | .gateway _ => none
  | .restartPassenger position destination k =>
    (w.world.step distance own name (.restartPassenger position destination k)).map fun world =>
      { w.carry codec world [] with toGateway := .init, fromGateway := .init }
  | l => (w.world.step distance own name l).map fun world =>
      w.carry codec world (written distance w.world l)

/-- The driver's `PassengerConnection` gets the next line of connection `n`. -/
def driverReads (n : ℕ) : Option Wired := do
  let (line, L) ← (w.up n).next
  let r ← w.world.routes n
  if r.start = w.world.starts r.driver then
    let s ← ((Protocol.passengerToDriver codec).read n line).foldlM Driver.Process.enqueue
      (w.world.drivers r.driver)
    return { w with world := w.world.setDriver r.driver s, up := Function.update w.up n L }
  else none

/-- The passenger's `TcpReceiver` gets the next line of connection `n`. -/
def passengerReads (n : ℕ) : Option Wired := do
  let (line, L) ← (w.down n).next
  let r ← w.world.routes n
  if r.session = w.world.session then
    let messages := (Protocol.driverToPassenger codec).read () line
    let world ← w.world.enqueue messages
    return { w with
      world := { world with arrivals := world.arrivals + messages.countP Passenger.Msg.isArrived }
      down := Function.update w.down n L }
  else none

/-- The gateway gets the next line. -/
def gatewayReads (isAuthorized : Bool) : Option Wired := do
  let (line, L) ← w.toGateway.next
  let effects := (Protocol.passengerToGateway codec).read isAuthorized line
  return { w with
    toGateway := L
    fromGateway := (Gateway.answers effects).foldl
      (Link.send (Protocol.gatewayToPassenger codec).serialized) w.fromGateway
    paid := w.paid ++ Gateway.received effects }

/-- The passenger's `GatewayConnection` gets the next line. -/
def statusArrives : Option Wired := do
  let (line, L) ← w.fromGateway.next
  let effects := (Protocol.gatewayToPassenger codec).read () line
  let world ← w.world.enqueue (Passenger.GatewayConnection.messages effects)
  return { w with world, fromGateway := L }

/-- The state after a step, if the step is possible. -/
def step (w : Wired) : Label → Option Wired
  | .acts l => w.acts codec distance own name l
  | .up n l => ((w.up n).travel (Protocol.passengerToDriver codec).serialized l).map fun L =>
      { w with up := Function.update w.up n L }
  | .down n l => ((w.down n).travel (Protocol.driverToPassenger codec).serialized l).map fun L =>
      { w with down := Function.update w.down n L }
  | .toGateway l => (w.toGateway.travel (Protocol.passengerToGateway codec).serialized l).map
      fun L => { w with toGateway := L }
  | .fromGateway l => (w.fromGateway.travel (Protocol.gatewayToPassenger codec).serialized l).map
      fun L => { w with fromGateway := L }
  | .driverReads n => w.driverReads codec n
  | .passengerReads n => w.passengerReads codec n
  | .gatewayReads isAuthorized => w.gatewayReads codec isAuthorized
  | .statusArrives => w.statusArrives codec

/-! ## The wired rides are rides -/

instance (l : Passenger.DriverLine) : Decidable l.InRange :=
  match l with
  | .requestRide id origin destination => inferInstanceAs (Decidable (id < 2 ^ 64 ∧
      (origin.1 < 2 ^ 64 ∧ origin.2 < 2 ^ 64) ∧ destination.1 < 2 ^ 64 ∧ destination.2 < 2 ^ 64))
  | .reconnectDriver position =>
    inferInstanceAs (Decidable (position.1 < 2 ^ 64 ∧ position.2 < 2 ^ 64))
  | .recover idPassenger => inferInstanceAs (Decidable (idPassenger < 2 ^ 64))

instance (l : Driver.PassengerLine) : Decidable l.InRange :=
  match l with
  | .recoverResponse _ position _ =>
    inferInstanceAs (Decidable (position.1 < 2 ^ 64 ∧ position.2 < 2 ^ 64))
  | .no | .ok _ | .driverArrived => inferInstanceAs (Decidable True)

/-- The numbers that a step writes to drivers and to the passenger are `u64`s. -/
def fits : Label → Bool
  | .acts l => (w.world.step distance own name l).all fun world =>
      (world.up.all fun m => decide m.2.InRange) && world.down.all fun m => decide m.2.InRange
  | _ => true

/-- The world of which the connections hold what is on its way. -/
structure Shows (w : Wired) (a : World) : Prop where
  world : w.world = { a with up := [], down := [], auths := 0 }
  up : ∀ n, (Protocol.passengerToDriver codec).Holds (w.up n) (World.onConnection n a.up)
  down : ∀ n, (Protocol.driverToPassenger codec).Holds (w.down n) (World.onConnection n a.down)
  gateway : ∃ requests answers, (Protocol.passengerToGateway codec).Holds w.toGateway requests ∧
    (Protocol.gatewayToPassenger codec).Holds w.fromGateway answers ∧
    a.auths = requests.countP Passenger.GatewayLine.isAuthorizePayment +
      answers.countP Gateway.PassengerLine.isStatus

/-- What the labels have in common: the steps that are no arrivals. -/
def Label.act? : Label → Option World.Label
  | .acts l => some l
  | _ => none

def act? : World.Label → Option World.Label
  | .toDriver _ | .toPassenger _ | .gateway _ => none
  | l => some l

variable {codec distance own name w} {w' : Wired} {a : World} {l : World.Label}

theorem shows_init (position destination : Position) (k : ℕ) :
    Shows codec (init name position destination k) (World.init name position destination k) where
  world := rfl
  up := fun _ => Protocol.holds_init
  down := fun _ => Protocol.holds_init
  gateway := ⟨[], [], Protocol.holds_init, Protocol.holds_init, rfl⟩

/-- The world behind a wired one. -/
theorem Shows.onWay (h : Shows codec w a) : a = w.world.onWay a.up a.down a.auths := by
  rw [World.onWay, h.world]
  simp

/-! ### Steps that are no arrivals -/

theorem authorizations_eq (effects : List Passenger.Effect) :
    Passenger.authorizations effects =
      (Passenger.gatewayLines effects).countP Passenger.GatewayLine.isAuthorizePayment := by
  induction effects with
  | nil => rfl
  | cons e effects ih =>
      simp only [Passenger.authorizations, Passenger.gatewayLines] at ih ⊢
      cases e with
      | gateway line => cases line <;> simp [List.countP_cons, Passenger.Effect.isAuthorizePayment,
          Passenger.GatewayLine.isAuthorizePayment, ih]
      | _ => simp [Passenger.Effect.isAuthorizePayment, ih]

/-- Every authorization that is asked for is a line to the gateway. -/
theorem auths_written {w w' : World} (hl : l.isLocal = true)
    (h : w.step distance own name l = some w') : w'.auths =
      w.auths + (written distance w l).countP Passenger.GatewayLine.isAuthorizePayment := by
  cases World.step_cases h with
  | handles hactor hlink hh =>
      simp only [written, hactor, hh, Option.elim_some, World.handled, authorizations_eq]
  | @panics _ _ p m _ hactor hh =>
      simp only [written, hactor, hh, Option.elim_none]
      cases m <;> rfl
  | notice hm h | answer hi h =>
      obtain ⟨a, -, rfl⟩ := Option.map_eq_some_iff.1 h
      rfl
  | gateway | toDriver | toPassenger | restartPassenger => cases hl
  | _ => rfl

theorem acts_local (hl : l.isLocal = true) : w.acts codec distance own name l =
    (w.world.step distance own name l).map fun world =>
      w.carry codec world (written distance w.world l) := by
  cases l <;> first | rfl | cases hl

theorem shows_local (h : Shows codec w a) (hl : l.isLocal = true)
    (hfits : w.fits distance own name (.acts l) = true)
    (hstep : w.acts codec distance own name l = some w') :
    ∃ a', a.step distance own name l = some a' ∧ Shows codec w' a' := by
  rw [acts_local hl] at hstep
  obtain ⟨world, hworld, rfl⟩ := Option.map_eq_some_iff.1 hstep
  simp only [fits, hworld, Option.all_some, Bool.and_eq_true, List.all_eq_true,
    decide_eq_true_eq] at hfits
  obtain ⟨hup, hdown⟩ := hfits
  refine ⟨world.onWay a.up a.down a.auths, ?_, rfl, fun n => ?_, fun n => ?_, ?_⟩
  · have hmore := World.step_onWay hl hworld a.up a.down a.auths
    rwa [← h.onWay] at hmore
  · show Protocol.Holds _ _ (World.onConnection n (a.up ++ world.up))
    rw [World.onConnection_append]
    exact ((h.up n).sendAll (World.forall_onConnection hup n)).closeIf _
  · show Protocol.Holds _ _ (World.onConnection n (a.down ++ world.down))
    rw [World.onConnection_append]
    exact ((h.down n).sendAll (World.forall_onConnection hdown n)).closeIf _
  · obtain ⟨requests, answers, hrequests, hanswers, hauths⟩ := h.gateway
    refine ⟨requests ++ written distance w.world l, answers,
      (hrequests.sendAll fun _ _ => trivial).closeIf _, hanswers, ?_⟩
    have hzero : w.world.auths = 0 := by rw [h.world]
    show a.auths + world.auths = _
    rw [auths_written hl hworld, hzero, hauths, List.countP_append]
    omega

/-- A passenger that is started anew has a new connection to the gateway. -/
theorem shows_restart (h : Shows codec w a) {position destination : Position} {k : ℕ}
    (hstep : w.acts codec distance own name (.restartPassenger position destination k) = some w') :
    ∃ a', a.step distance own name (.restartPassenger position destination k) = some a' ∧
      Shows codec w' a' := by
  obtain ⟨world, hworld, rfl⟩ := Option.map_eq_some_iff.1 hstep
  simp only [World.step] at hworld
  split at hworld
  · next hok =>
      obtain rfl := Option.some.inj hworld
      refine ⟨a.restart name position destination k, ?_, ?_, fun n => ?_, fun n => ?_,
        [], [], Protocol.holds_init, Protocol.holds_init, rfl⟩
      · rw [h.world] at hok
        exact if_pos hok
      · rw [h.world]
        rfl
      · have hnone : (w.world.restart name position destination k).up = [] := by
          rw [h.world]
          rfl
        simp only [carry, hnone]
        exact (h.up n).closeIf _
      · have hnone : (w.world.restart name position destination k).down = [] := by
          rw [h.world]
          rfl
        simp only [carry, hnone]
        exact (h.down n).closeIf _
  · cases hworld

/-! ### Arrivals -/

theorem shows_driverReads (hcodec : codec.RejectsTruncated) (h : Shows codec w a) {n : ℕ}
    (hstep : w.driverReads codec n = some w') :
    Shows codec w' a ∨ ∃ i a', a.step distance own name (.toDriver i) = some a' ∧
      Shows codec w' a' := by
  simp only [driverReads, Option.bind_eq_bind, Option.bind_eq_some_iff] at hstep
  obtain ⟨⟨line, L⟩, hnext, r, hroute, hstep⟩ := hstep
  split at hstep
  · next hstart =>
      obtain ⟨s, hs, hstep⟩ := Option.bind_eq_some_iff.1 hstep
      obtain rfl := Option.some.inj hstep
      rcases (h.up n).next hcodec hnext with ⟨m, rest, hqueue, hmeans, hrest⟩ | ⟨hnone, hsame⟩
      · obtain ⟨i, hi, hrest', hothers⟩ := World.onConnection_cons hqueue
        have hread : (Protocol.passengerToDriver codec).read n line = [m.toMsg n] := hmeans n
        rw [hread] at hs
        obtain ⟨s', hs', hs⟩ := Option.bind_eq_some_iff.1 hs
        obtain rfl := Option.some.inj hs
        rw [h.world] at hroute hstart hs'
        refine .inr ⟨i, _, World.toDriver_arrives hi hroute hstart hs', ?_, ?_, h.down, h.gateway⟩
        · rw [h.world]
          rfl
        · exact Protocol.holds_update (hrest'.symm ▸ hrest) fun k hk =>
            (hothers k hk).symm ▸ h.up k
      · rw [hnone n] at hs
        obtain rfl := Option.some.inj hs
        refine .inl ⟨?_, ?_, h.down, h.gateway⟩
        · show w.world.setDriver _ _ = _
          rw [World.setDriver, Function.update_eq_self]
          exact h.world
        · exact Protocol.holds_update hsame fun k _ => h.up k
  · cases hstep

theorem enqueue_nil {w w' : World} (h : w.enqueue [] = some w') : w' = w := by
  obtain ⟨⟨p, mailbox⟩, hactor, rfl⟩ := Option.map_eq_some_iff.1 h
  simp only [List.append_nil]
  rw [← hactor]

theorem shows_passengerReads (hcodec : codec.RejectsTruncated) (h : Shows codec w a) {n : ℕ}
    (hstep : w.passengerReads codec n = some w') :
    Shows codec w' a ∨ ∃ i a', a.step distance own name (.toPassenger i) = some a' ∧
      Shows codec w' a' := by
  simp only [passengerReads, Option.bind_eq_bind, Option.bind_eq_some_iff] at hstep
  obtain ⟨⟨line, L⟩, hnext, r, hroute, hstep⟩ := hstep
  split at hstep
  · next hsession =>
      obtain ⟨world, hworld, hstep⟩ := Option.bind_eq_some_iff.1 hstep
      obtain rfl := Option.some.inj hstep
      rcases (h.down n).next hcodec hnext with ⟨m, rest, hqueue, hmeans, hrest⟩ | ⟨hnone, hsame⟩
      · obtain ⟨i, hi, hrest', hothers⟩ := World.onConnection_cons hqueue
        have hread : (Protocol.driverToPassenger codec).read () line = [m.toMsg] := hmeans ()
        rw [hread] at hworld
        rw [h.world] at hroute hsession hworld
        obtain ⟨⟨p, mailbox⟩, hactor, rfl⟩ := Option.map_eq_some_iff.1 hworld
        refine .inr ⟨i, _, World.toPassenger_arrives hi hroute hsession
          (Option.map_eq_some_iff.2 ⟨(p, mailbox), hactor, rfl⟩), ?_, h.up, ?_, h.gateway⟩
        · rw [hread]
          cases m <;> rfl
        · exact Protocol.holds_update (hrest'.symm ▸ hrest) fun k hk =>
            (hothers k hk).symm ▸ h.down k
      · rw [hnone ()] at hworld
        obtain rfl := enqueue_nil hworld
        refine .inl ⟨?_, h.up, ?_, h.gateway⟩
        · rw [hnone ()]
          exact h.world
        · exact Protocol.holds_update hsame fun k _ => h.down k
  · cases hstep

/-- The gateway answers the first request that it has not answered. -/
theorem shows_gatewayReads (hcodec : codec.RejectsTruncated) (h : Shows codec w a)
    {isAuthorized : Bool} (hstep : w.gatewayReads codec isAuthorized = some w') :
    Shows codec w' a := by
  obtain ⟨⟨line, L⟩, hnext, hstep⟩ := Option.bind_eq_some_iff.1 hstep
  obtain rfl := Option.some.inj hstep
  obtain ⟨requests, answers, hrequests, hanswers, hauths⟩ := h.gateway
  rcases hrequests.next hcodec hnext with ⟨m, rest, rfl, hmeans, hrest⟩ | ⟨hnone, hsame⟩
  · have hread : (Protocol.passengerToGateway codec).read isAuthorized line =
        m.effects isAuthorized := hmeans isAuthorized
    refine ⟨h.world, h.up, h.down, rest, answers ++ Gateway.answers (m.effects isAuthorized), hrest,
      ?_, ?_⟩
    · rw [hread]
      exact hanswers.sendAll fun _ _ => trivial
    · rw [hauths]
      cases m <;> simp [Passenger.GatewayLine.effects, Gateway.answers, List.countP_cons,
        Passenger.GatewayLine.isAuthorizePayment, Gateway.PassengerLine.isStatus]
      omega
  · refine ⟨h.world, h.up, h.down, requests, answers, hsame, ?_, hauths⟩
    rw [hnone isAuthorized]
    exact hanswers

theorem shows_statusArrives (hcodec : codec.RejectsTruncated) (h : Shows codec w a)
    (hstep : w.statusArrives codec = some w') :
    Shows codec w' a ∨ ∃ isAuthorized a',
      a.step distance own name (.gateway isAuthorized) = some a' ∧ Shows codec w' a' := by
  simp only [statusArrives, Option.bind_eq_bind, Option.bind_eq_some_iff] at hstep
  obtain ⟨⟨line, L⟩, hnext, world, hworld, hstep⟩ := hstep
  obtain rfl := Option.some.inj hstep
  obtain ⟨requests, answers, hrequests, hanswers, hauths⟩ := h.gateway
  rcases hanswers.next hcodec hnext with ⟨m, rest, rfl, hmeans, hrest⟩ | ⟨hnone, hsame⟩
  · have hread : (Protocol.gatewayToPassenger codec).read () line = m.effects := hmeans ()
    rw [hread] at hworld
    cases m with
    | paymentAuthorizationStatus isAuthorized =>
        have hmessages : Passenger.GatewayConnection.messages
            (Gateway.PassengerLine.paymentAuthorizationStatus isAuthorized).effects =
              Passenger.paymentAuthorizationStatus isAuthorized := by cases isAuthorized <;> rfl
        rw [hmessages, h.world] at hworld
        obtain ⟨⟨p, mailbox⟩, hactor, rfl⟩ := Option.map_eq_some_iff.1 hworld
        have hcount : (Gateway.PassengerLine.paymentAuthorizationStatus isAuthorized :: rest).countP
            Gateway.PassengerLine.isStatus = rest.countP Gateway.PassengerLine.isStatus + 1 :=
          List.countP_cons_of_pos rfl
        rw [hcount] at hauths
        refine .inr ⟨isAuthorized, _, (if_pos (show 0 < a.auths by omega)).trans
          (Option.map_eq_some_iff.2 ⟨(p, mailbox), hactor, rfl⟩), rfl, h.up, h.down, requests, rest,
          hrequests, hrest, ?_⟩
        show a.auths - 1 = _
        omega
    | pagoConfirmado =>
        obtain rfl := enqueue_nil hworld
        exact .inl ⟨h.world, h.up, h.down, requests, rest, hrequests, hrest, hauths⟩
  · rw [hnone ()] at hworld
    obtain rfl := enqueue_nil hworld
    exact .inl ⟨h.world, h.up, h.down, requests, answers, hrequests, hsame, hauths⟩

/-! ### Runs -/

/-- **Every step of the wired rides** is a step of the rides, or one that nobody notices. -/
theorem shows_step (hcodec : codec.RejectsTruncated) (h : Shows codec w a) {l : Label}
    (hfits : w.fits distance own name l = true)
    (hstep : w.step codec distance own name l = some w') :
    ∃ ls a', Run (World.step distance own name) (fun _ _ => True) a ls a' ∧
      ls.filterMap act? = l.act?.toList ∧ Shows codec w' a' := by
  have quiet : l.act? = none → Shows codec w' a →
      ∃ ls a', Run (World.step distance own name) (fun _ _ => True) a ls a' ∧
        ls.filterMap act? = l.act?.toList ∧ Shows codec w' a' := by
    intro hl h'
    exact ⟨[], a, .nil a, by rw [hl]; rfl, h'⟩
  have arrival : ∀ {l' : World.Label} {a' : World}, act? l' = l.act? →
      a.step distance own name l' = some a' → Shows codec w' a' →
      ∃ ls a', Run (World.step distance own name) (fun _ _ => True) a ls a' ∧
        ls.filterMap act? = l.act?.toList ∧ Shows codec w' a' := by
    intro l' a' hl ha' h'
    refine ⟨[l'], a', .single trivial ha', ?_, h'⟩
    rw [← hl, List.filterMap_cons, List.filterMap_nil]
    cases act? l' <;> rfl
  cases l with
  | acts l =>
      cases l with
      | toDriver | toPassenger | gateway => cases hstep
      | restartPassenger position destination k =>
          obtain ⟨a', ha', h'⟩ := shows_restart h hstep
          exact arrival rfl ha' h'
      | _ =>
          obtain ⟨a', ha', h'⟩ := shows_local h rfl hfits hstep
          exact arrival rfl ha' h'
  | up n l =>
      obtain ⟨L, hL, rfl⟩ := Option.map_eq_some_iff.1 hstep
      exact quiet rfl ⟨h.world, Protocol.holds_update ((h.up n).travel hL) fun k _ => h.up k,
        h.down, h.gateway⟩
  | down n l =>
      obtain ⟨L, hL, rfl⟩ := Option.map_eq_some_iff.1 hstep
      exact quiet rfl ⟨h.world, h.up,
        Protocol.holds_update ((h.down n).travel hL) fun k _ => h.down k, h.gateway⟩
  | toGateway l =>
      obtain ⟨L, hL, rfl⟩ := Option.map_eq_some_iff.1 hstep
      obtain ⟨requests, answers, hrequests, hanswers, hauths⟩ := h.gateway
      exact quiet rfl ⟨h.world, h.up, h.down, requests, answers, hrequests.travel hL, hanswers,
        hauths⟩
  | fromGateway l =>
      obtain ⟨L, hL, rfl⟩ := Option.map_eq_some_iff.1 hstep
      obtain ⟨requests, answers, hrequests, hanswers, hauths⟩ := h.gateway
      exact quiet rfl ⟨h.world, h.up, h.down, requests, answers, hrequests, hanswers.travel hL,
        hauths⟩
  | driverReads n =>
      rcases shows_driverReads hcodec h hstep with h' | ⟨i, a', ha', h'⟩
      · exact quiet rfl h'
      · exact arrival rfl ha' h'
  | passengerReads n =>
      rcases shows_passengerReads hcodec h hstep with h' | ⟨i, a', ha', h'⟩
      · exact quiet rfl h'
      · exact arrival rfl ha' h'
  | gatewayReads isAuthorized => exact quiet rfl (shows_gatewayReads hcodec h hstep)
  | statusArrives =>
      rcases shows_statusArrives hcodec h hstep with h' | ⟨isAuthorized, a', ha', h'⟩
      · exact quiet rfl h'
      · exact arrival rfl ha' h'

/-- **Rides over TCP are rides.** Whatever portions the bytes travel in, and whatever connections
    are lost, every run of the wired rides is one of `World`, with the same handlers, crashes and
    starts in the same order; it ends in the same world, but for what is on its way there, which is
    nothing where the connections are quiet. -/
theorem rides_over_tcp (hcodec : codec.RejectsTruncated) {position destination : Position} {k : ℕ}
    {ls : List Label} (h : Run (step codec distance own name)
      (fun w l => w.fits distance own name l = true) (init name position destination k) ls w) :
    ∃ ls' a, Run (World.step distance own name) (fun _ _ => True)
        (World.init name position destination k) ls' a ∧
      ls'.filterMap act? = ls.filterMap Label.act? ∧
      w.world = { a with up := [], down := [], auths := 0 } ∧
      (∀ n, (w.up n).Quiet → World.onConnection n a.up = []) ∧
      (∀ n, (w.down n).Quiet → World.onConnection n a.down = []) ∧
      (w.toGateway.Quiet → w.fromGateway.Quiet → a.auths = 0) := by
  have hmatch : ∀ w l w' a, Shows codec w a → w.fits distance own name l = true →
      w.step codec distance own name l = some w' →
      ∃ ls a', Run (World.step distance own name) (fun _ _ => True) a ls a' ∧
        ls.filterMap act? = l.act?.toList ∧ Shows codec w' a' :=
    fun _ _ _ _ hwa hfits hst => shows_step hcodec hwa hfits hst
  obtain ⟨ls', a, hrun, hsame, hshows⟩ :=
    h.simulated hmatch (shows_init position destination k)
  refine ⟨ls', a, hrun, hsame, hshows.world, fun n hn => (hshows.up n).holds.quiet hn,
    fun n hn => (hshows.down n).holds.quiet hn, fun hto hfrom => ?_⟩
  obtain ⟨requests, answers, hrequests, hanswers, hauths⟩ := hshows.gateway
  rw [hauths, hrequests.holds.quiet hto, hanswers.holds.quiet hfrom]
  rfl

/-- Passenger "peach" has selected driver "mario", who runs. -/
def selects : List Label :=
  ([.startDriver "mario" ⟨(1, 1), "127.0.0.1:40000", ⟨⟨1, 1⟩, 0⟩⟩, .drives "mario" ⟨true, none⟩,
    .drives "mario" ⟨true, none⟩, .recv .up "", .recv .up "", .notice (.completeLogin 1),
    .recv .up "", .recv .up "", .answer 0 [⟨"127.0.0.1:40000", (1, 1)⟩],
    .recv { connected := true, driver := some 1, server := none } "mario"] :
      List World.Label).map .acts

/-- One line is written and arrives in two portions. -/
def lineTravels {α : Type} (n : ℕ) : List (Channel.Label α) :=
  [.handle, .write n, .arrive 5, .write 200, .written, .arrive 200]

/-- The gateway authorizes the payment, the driver is asked for a ride, and accepts it. -/
def accepts : List Label :=
  (lineTravels 30).map .toGateway ++ [.gatewayReads true] ++ (lineTravels 9).map .fromGateway ++
    [.statusArrives, .acts (.recv .up ""), .acts (.recv .up "")] ++ (lineTravels 40).map (.up 1) ++
    [.driverReads 1, .acts (.drives "mario" ⟨true, none⟩)] ++ (lineTravels 3).map (.down 1) ++
    [.passengerReads 1]

theorem rides_over_tcp_accepted : ∃ w : Wired, w.world.accepted = 1 ∧
    ∃ ls a, Run (World.step (fun _ _ => 1) (fun _ => true) "peach") (fun _ _ => True)
        (World.init "peach" (2, 2) (3, 3) 0) ls a ∧
      w.world = { a with up := [], down := [], auths := 0 } := by
  obtain ⟨w, hrun, haccepted⟩ := exists_run_of_exec
    (fun (w : Wired) l => w.fits (fun _ _ => 1) (fun _ => true) "peach" l)
    (init "peach" (2, 2) (3, 3) 0) (selects ++ accepts)
    (fun w => decide (w.world.accepted = 1))
    (show (exec (step JsonCodec.compact (fun _ _ => 1) (fun _ => true) "peach") _ _ _).any _ = true
      by decide +kernel)
  obtain ⟨ls, a, hrun', -, hworld, -⟩ := rides_over_tcp JsonCodec.compact_rejectsTruncated hrun
  exact ⟨w, of_decide_eq_true haccepted, ls, a, hrun', hworld⟩

end Wired

end ConcuRide
