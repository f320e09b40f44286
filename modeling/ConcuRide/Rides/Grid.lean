import ConcuRide.Rides.Undisturbed
import ConcuRide.Rides.Walk

set_option autoImplicit false

/-! # Rides on a grid

A ride arrives when the two distances to its target have the same parity (`ride_arrives_iff`), and a
driver goes from one ride to the next. When all places are squares of one colour of a grid, off its
axes, all ways are of that kind: every message that a driver or the passenger sends itself has less
left to do than the one it has handled. -/

namespace ConcuRide

open Lib

/-! ## Ways on a grid -/

/-- A grid of the given size, of which the squares of one colour are used. -/
structure Grid where
  size : ℕ
  colour : ℕ

variable {g : Grid} {p q r : Position}

/-- A square of the colour, where a driver or a passenger may be on its way. -/
def Grid.holds (g : Grid) (p : Position) : Bool :=
  decide (p.1 ≤ g.size ∧ p.2 ≤ g.size ∧ (p.1 + p.2) % 2 = g.colour)

/-- A place where passengers wait and where they want to go: it is not on an axis. -/
def Grid.isPlace (g : Grid) (p : Position) : Bool := g.holds p && decide (0 < p.1 ∧ 0 < p.2)

/-- How many moves it takes from `p` to `q`. -/
def walk (p q : Position) : ℕ := if p = q then 2 else max (p.1.dist q.1) (p.2.dist q.2)

theorem Grid.holds_iff : g.holds p = true ↔
    p.1 ≤ g.size ∧ p.2 ≤ g.size ∧ (p.1 + p.2) % 2 = g.colour := decide_eq_true_iff

theorem Grid.isPlace_iff : g.isPlace p = true ↔ g.holds p = true ∧ 0 < p.1 ∧ 0 < p.2 := by
  rw [Grid.isPlace, Bool.and_eq_true, decide_eq_true_eq]

theorem Grid.holds_of_isPlace (h : g.isPlace p = true) : g.holds p = true := (g.isPlace_iff.1 h).1

theorem ne_or_ne_of_ne (h : p ≠ q) : p.1 ≠ q.1 ∨ p.2 ≠ q.2 := not_and_or.1 (mt Prod.ext_iff.2 h)

theorem walk_pos (p q : Position) : 0 < walk p q := by
  unfold walk Nat.dist
  split
  · omega
  · next hne =>
      have hor := ne_or_ne_of_ne hne
      omega

theorem Grid.walk_le (hp : g.holds p = true) (hq : g.holds q = true) : walk p q ≤ g.size + 2 := by
  rw [Grid.holds_iff] at hp hq
  unfold walk Nat.dist
  split <;> omega

/-- A coordinate moves by one, towards its target or away from it when it is there. -/
theorem moveCoordinate_of_pos {x t : ℕ} (ht : 0 < t) : ∃ y, moveCoordinate x t = some y ∧
    y ≤ max x t ∧ (y + x) % 2 = 1 ∧ (x.dist t = 0 ∧ y.dist t = 1 ∨ y.dist t + 1 = x.dist t) := by
  unfold moveCoordinate Nat.dist
  split
  · next hlt => exact ⟨_, rfl, by omega⟩
  · next hge =>
      rw [if_neg (by omega)]
      exact ⟨_, rfl, by omega⟩

theorem Grid.sameParity (hp : g.holds p = true) (hq : g.holds q = true) : SameParity p q := by
  rw [Grid.holds_iff] at hp hq
  unfold SameParity Nat.dist
  omega

/-- **Every move comes closer** to a place of the grid. -/
theorem Grid.move (hp : g.holds p = true) (hq : g.isPlace q = true) :
    ∃ r, movePosition q p = some r ∧ g.holds r = true ∧ (r ≠ q → walk r q < walk p q) := by
  have hparity : p.1.dist q.1 % 2 = p.2.dist q.2 % 2 :=
    Grid.sameParity hp (Grid.holds_of_isPlace hq)
  obtain ⟨hq, hx, hy⟩ := g.isPlace_iff.1 hq
  rw [Grid.holds_iff] at hp hq
  obtain ⟨x, hx, hlex, hoddx, hdx⟩ := @moveCoordinate_of_pos p.1 q.1 hx
  obtain ⟨y, hy, hley, hoddy, hdy⟩ := @moveCoordinate_of_pos p.2 q.2 hy
  have hmoved : movePosition q p = some (x, y) := by simp [movePosition, hx, hy]
  refine ⟨(x, y), hmoved, g.holds_iff.2 (by dsimp only; omega), fun hne => ?_⟩
  rw [walk, if_neg hne]
  unfold walk
  split
  · next hpq =>
      rw [hpq, Nat.dist_self] at hdx hdy
      dsimp only
      omega
  · next hpq =>
      have hapart : p.1.dist q.1 ≠ 0 ∨ p.2.dist q.2 ≠ 0 :=
        (ne_or_ne_of_ne hpq).imp (mt Nat.eq_of_dist_eq_zero) (mt Nat.eq_of_dist_eq_zero)
      have hapart' : x.dist q.1 ≠ 0 ∨ y.dist q.2 ≠ 0 :=
        (ne_or_ne_of_ne hne).imp (mt Nat.eq_of_dist_eq_zero) (mt Nat.eq_of_dist_eq_zero)
      dsimp only
      omega

/-! ## What is left to do -/

/-- What a ride is worth: a driver goes to the passenger and to the destination. -/
def Grid.ride (g : Grid) : ℕ := 3 * g.size + 16

/-- What is left to do when a line of a driver is on its way to the passenger, which has `n` more
    drivers to ask. -/
def Grid.lineWork (g : Grid) (n : ℕ) : Driver.PassengerLine → ℕ
  | .no => 8 * n + g.ride + 3
  | .driverArrived => g.size + 5
  | .ok _ => 2
  | .recoverResponse _ _ _ => 1

/-- What is left to do when the passenger has asked a driver for a ride, and has `n` more to ask. -/
def Grid.requestWork (g : Grid) (n : ℕ) : ℕ := 8 * n + g.ride + 5

/-- What is left to do when the gateway is asked to authorize the payment. -/
def Grid.authorizationWork (g : Grid) (n : ℕ) : ℕ := 8 * n + g.ride + 8

/-- What is left to do when the leader is asked for the drivers, but for asking them. -/
def Grid.askWork (g : Grid) : ℕ := g.ride + 2

/-- What the passenger has left to do when it has a message to handle. -/
def Grid.passengerWork (g : Grid) (p : Passenger) : Passenger.Msg → ℕ
  | .paymentDeny => g.ride + 4
  | .getDrivers => g.ride + 3
  | .drivers driversInfo => 8 * driversInfo.length + g.ride + 1
  | .requestDrive => 8 * p.driversInfo.length + g.ride + 6
  | .keepLooking => 8 * p.driversInfo.length + g.ride + 2
  | .driverArrived => g.size + 4
  | .traveling => walk p.info.position p.info.destination + 1
  | _ => 1

/-- What a driver has left to do when it has a message to handle. -/
def Grid.driverWork (g : Grid) (own : ℕ → Bool) (n : ℕ) (d : Driver) : Driver.Msg → ℕ
  | .requestRide r => if own r.addr then 8 * n + g.ride + 4 else g.ride
  | .startRide => 3 * g.size + 14
  | .pickUpPassenger => d.passengerPosition.elim 1 (walk d.position) + 2 * g.size + 11
  | .rideToDestination => d.destination.elim 1 (walk d.position) + 4
  | .endRide _ | .register _ => 2
  | _ => 1

/-! ## A driver on the grid -/

namespace Driver

/-- The messages that reach a driver on the grid while nobody is started again, and those that it
    sends itself. -/
def Msg.fits (g : Grid) : Msg → Bool
  | .requestRide r => g.isPlace r.origin && g.isPlace r.destination
  | .endRide dst => g.holds dst
  | .passengerRecover _ _ | .recovery _ _ | .reconnectPassenger _ _ => false
  | _ => true

/-- A driver on the grid, which is called on the `known` connections. -/
structure OnGrid (g : Grid) (known : ℕ → Prop) (d : Driver) (mailbox : List Msg) : Prop where
  position : g.holds d.position = true
  origin : ∀ q, d.passengerPosition = some q → g.isPlace q = true
  destination : ∀ q, d.destination = some q → g.isPlace q = true
  calls : ∀ addr, d.currentPassengerConnection = some addr → known addr
  mailbox : ∀ m ∈ mailbox, m.fits g = true ∧ ∀ r, m = .requestRide r → known r.addr

variable {known : ℕ → Prop} {own : ℕ → Bool} {d t : Driver} {m : Msg} {rest : List Msg}
  {o : Oracle} {effects : List Effect} {ride : Option RequestRide} {n : ℕ}

/-- A driver on the grid never panics. -/
theorem OnGrid.handle_isSome (h : d.OnGrid g known (m :: rest)) (o : Oracle) :
    (d.handle o m).isSome = true := by
  have hm := (h.mailbox m List.mem_cons_self).1
  cases m with
  | pickUpPassenger =>
      simp only [handle, pickUpPassenger]
      split
      · rfl
      · next q hpass =>
          obtain ⟨r, hr, -⟩ := Grid.move h.position (h.origin q hpass)
          rw [moveTo_eq_map, hr]
          simp only [Option.map_some, Option.bind_eq_bind, Option.bind_some]
          split <;> rfl
  | rideToDestination =>
      simp only [handle, rideToDestination]
      split
      · rfl
      · next q hdst =>
          obtain ⟨r, hr, -⟩ := Grid.move h.position (h.destination q hdst)
          rw [moveTo_eq_map, hr]
          simp only [Option.map_some, Option.bind_eq_bind, Option.bind_some]
          split <;> rfl
  | passengerRecover | recovery | reconnectPassenger => cases hm
  | _ => rfl

/-- A driver that moves stays on the grid. -/
theorem OnGrid.moved (h : d.OnGrid g known (m :: rest)) {q position : Position}
    (hq : g.isPlace q = true) (hmove : d.moveTo q = some { d with position := position }) :
    g.holds position = true ∧ (position ≠ q → walk position q < walk d.position q) := by
  obtain ⟨r, hr, hholds, hcloser⟩ := Grid.move h.position hq
  obtain rfl := Option.some.inj (hr.symm.trans (movePosition_of_moveTo hmove))
  exact ⟨hholds, hcloser⟩

/-- A driver on the grid with other messages, none of them a request, and on the same ride. -/
theorem OnGrid.next (h : d.OnGrid g known (m :: rest)) {new : List Msg}
    (hposition : g.holds t.position = true) (horigin : t.passengerPosition = d.passengerPosition)
    (hdestination : t.destination = d.destination)
    (hcalls : t.currentPassengerConnection = d.currentPassengerConnection)
    (hnew : ∀ x ∈ new, x.fits g = true ∧ ∀ r, x ≠ .requestRide r) :
    t.OnGrid g known (rest ++ new) where
  position := hposition
  origin := horigin ▸ h.origin
  destination := hdestination ▸ h.destination
  calls := hcalls ▸ h.calls
  mailbox := List.forall_mem_append.2 ⟨fun x hx => h.mailbox x (List.mem_cons_of_mem m hx),
    fun x hx => ⟨(hnew x hx).1, fun r heq => absurd heq ((hnew x hx).2 r)⟩⟩

theorem fits_of_resend {line : ServerLine} {x : Msg} (hx : x ∈ d.resend o line) :
    x.fits g = true ∧ ∀ r, x ≠ .requestRide r := by
  rw [mem_resend hx]
  exact ⟨rfl, by simp⟩

theorem OnGrid.mono {known' : ℕ → Prop} {mailbox : List Msg} (h : d.OnGrid g known mailbox)
    (hmono : ∀ n, known n → known' n) : d.OnGrid g known' mailbox where
  position := h.position
  origin := h.origin
  destination := h.destination
  calls := fun addr haddr => hmono _ (h.calls addr haddr)
  mailbox := fun x hx => ⟨(h.mailbox x hx).1, fun r heq => hmono _ ((h.mailbox x hx).2 r heq)⟩

theorem OnGrid.append {mailbox : List Msg} (h : d.OnGrid g known mailbox) (hm : m.fits g = true)
    (hknown : ∀ r, m = .requestRide r → known r.addr) : d.OnGrid g known (mailbox ++ [m]) where
  position := h.position
  origin := h.origin
  destination := h.destination
  calls := h.calls
  mailbox := List.forall_mem_append.2 ⟨h.mailbox, List.forall_mem_singleton.2 ⟨hm, hknown⟩⟩

/-- **A driver stays on the grid**, and answers on known connections. -/
theorem OnGrid.handled (h : d.OnGrid g known (m :: rest))
    (hh : d.handle o m = some (t, effects)) :
    t.OnGrid g known (rest ++ selfMessages effects) ∧
      ∀ l ∈ passengerLines effects, known l.1 := by
  have hm := (h.mailbox m List.mem_cons_self).1
  have hknown := (h.mailbox m List.mem_cons_self).2
  cases handle_outcome hh with
  | register r =>
      rw [selfMessages_append, selfMessages_sendToServer, passengerLines_append,
        (sendToServer_aside _ _).2.2]
      exact ⟨h.next h.position rfl rfl rfl (List.forall_mem_append.2
        ⟨fun x hx => fits_of_resend hx, by simp [selfMessages, saveState]⟩),
        by simp [passengerLines, saveState]⟩
  | refuses r =>
      exact ⟨h.next h.position rfl rfl rfl (by simp [selfMessages]), fun l hl => by
        obtain rfl := List.mem_singleton.1 hl
        exact hknown r rfl⟩
  | accepts r hfree ht =>
      simp only [Msg.fits, Bool.and_eq_true] at hm
      rw [selfMessages_append, selfMessages_append, selfMessages_sendToServer,
        passengerLines_append, passengerLines_append, (sendToServer_aside _ _).2.2]
      subst ht
      refine ⟨⟨h.position, fun q hq => ?_, fun q hq => ?_, fun addr haddr => ?_, ?_⟩, ?_⟩
      · exact Option.some.inj hq ▸ hm.1
      · exact Option.some.inj hq ▸ hm.2
      · exact Option.some.inj haddr ▸ hknown r rfl
      · refine List.forall_mem_append.2
          ⟨fun x hx => h.mailbox x (List.mem_cons_of_mem _ hx), fun x hx => ?_⟩
        rcases List.mem_append.1 hx with hx | hx
        · rcases List.mem_append.1 hx with hx | hx
          · simp [selfMessages, saveState] at hx
          · obtain ⟨hfits, hnone⟩ := fits_of_resend (g := g) hx
            exact ⟨hfits, fun r heq => absurd heq (hnone r)⟩
        · obtain rfl := List.mem_singleton.1 hx
          exact ⟨rfl, by simp⟩
      · intro l hl
        simp [passengerLines, saveState] at hl
        exact hl ▸ hknown r rfl
  | approaches q position hpass haway hmove =>
      obtain ⟨hholds, -⟩ := h.moved (h.origin q hpass) hmove
      exact ⟨h.next hholds rfl rfl rfl (by simp [selfMessages, Msg.fits]),
        by simp [passengerLines]⟩
  | picksUp q hpass hmove =>
      obtain ⟨hholds, -⟩ := h.moved (h.origin q hpass) hmove
      refine ⟨?_, fun l hl => ?_⟩
      · rw [selfMessages_append, (passengerLine_aside _ _).1]
        exact h.next hholds rfl rfl rfl (by simp [selfMessages, Msg.fits])
      · cases hconn : d.currentPassengerConnection with
        | none => simp [passengerLines, hconn] at hl
        | some addr =>
            simp [passengerLines, hconn] at hl
            exact hl ▸ h.calls addr hconn
  | rides q position hdst haway hmove =>
      obtain ⟨hholds, -⟩ := h.moved (h.destination q hdst) hmove
      exact ⟨h.next hholds rfl rfl rfl (by simp [selfMessages, saveState, Msg.fits]),
        by simp [passengerLines, saveState]⟩
  | arrives q hdst hmove =>
      obtain ⟨hholds, -⟩ := h.moved (h.destination q hdst) hmove
      exact ⟨h.next hholds rfl rfl rfl (by simp [selfMessages, saveState, Msg.fits, hholds]),
        by simp [passengerLines, saveState]⟩
  | endRide dst ht =>
      rw [selfMessages_append, selfMessages_sendToServer, passengerLines_append,
        (sendToServer_aside _ _).2.2]
      subst ht
      exact ⟨h.next hm rfl rfl rfl (List.forall_mem_append.2
        ⟨fun x hx => fits_of_resend hx, by simp [selfMessages, saveState]⟩),
        by simp [passengerLines, saveState]⟩
  | responds | denies | recoversFree | recoversBusy | reconnectPassenger => cases hm
  | setReceiver | newConnection | startRide | noPassenger | noDestination | noServer | newServer =>
      exact ⟨h.next h.position rfl rfl rfl (by simp [selfMessages, saveState, Msg.fits]),
        by simp [passengerLines, saveState]⟩

/-! ### Its work -/

/-- What is left to do with the lines to this passenger. -/
def told (g : Grid) (own : ℕ → Bool) (n : ℕ) (effects : List Effect) : ℕ :=
  (((passengerLines effects).filter fun l => own l.1).map fun l => g.lineWork n l.2).sum

theorem work_resend (o : Oracle) (line : ServerLine) (t d : Driver) :
    ((d.resend o line).map (g.driverWork own n t)).sum ≤ 1 := by
  unfold resend
  split
  · exact Nat.zero_le 1
  · exact Nat.le_refl 1

/-- Only the messages of a ride look at where the driver is. -/
theorem work_same (h : rideMessages rest = [] ∨ t.position = d.position ∧
      t.passengerPosition = d.passengerPosition ∧ t.destination = d.destination) :
    (rest.map (g.driverWork own n t)).sum = (rest.map (g.driverWork own n d)).sum := by
  refine congrArg List.sum (List.map_congr_left fun m hm => ?_)
  rcases h with hnone | ⟨hposition, horigin, hdestination⟩
  · have hride := List.filter_eq_nil_iff.1 hnone m hm
    cases m <;> first | rfl | exact absurd rfl hride
  · cases m <;> simp only [Grid.driverWork, hposition, horigin, hdestination]

/-- A driver that moves holds the one message of its ride in its hands. -/
theorem same_or_spent (htoken : d.HasToken (m :: rest)) (hm : m.fits g = true)
    (hh : d.handle o m = some (t, effects)) :
    rideMessages rest = [] ∨ t.position = d.position ∧
      t.passengerPosition = d.passengerPosition ∧ t.destination = d.destination := by
  cases handle_outcome hh with
  | accepts r hfree =>
      left
      rw [HasToken, if_pos hfree, rideMessages_cons_aside rfl] at htoken
      exact htoken
  | approaches | picksUp | rides | arrives | endRide => exact .inl (htoken.spent rfl).2.1
  | responds | denies | recoversFree | recoversBusy | reconnectPassenger => cases hm
  | _ => exact .inr ⟨rfl, rfl, rfl⟩

/-- What the driver has to do after it has handled a message is less than that was. -/
theorem OnGrid.work_lt (h : d.OnGrid g known (m :: rest))
    (hh : d.handle o m = some (t, effects)) :
    ((selfMessages effects).map (g.driverWork own n t)).sum + told g own n effects <
      g.driverWork own n d m := by
  obtain ⟨ht, -⟩ := h.handled hh
  have hm := (h.mailbox m List.mem_cons_self).1
  unfold told
  cases handle_outcome hh with
  | register r =>
      have hresend := @work_resend g own n o (.newDriver r.socket r.name r.position)
        { d with isRegistered := true } d
      rw [selfMessages_append, selfMessages_sendToServer, passengerLines_append,
        (sendToServer_aside _ _).2.2, List.map_append, List.sum_append]
      simp only [selfMessages, saveState, passengerLines, List.filterMap_cons, List.filterMap_nil,
        List.append_nil, List.filter_nil, List.map_nil, List.sum_nil, Grid.driverWork]
      omega
  | refuses r =>
      cases hown : own r.addr <;>
        simp [selfMessages, passengerLines, Grid.driverWork, Grid.lineWork, hown, Grid.ride]
  | accepts r hfree ht =>
      have hresend := @work_resend g own n o (.busyDriver d.name) t t
      rw [selfMessages_append, selfMessages_append, selfMessages_sendToServer,
        passengerLines_append, passengerLines_append, (sendToServer_aside _ _).2.2,
        List.map_append, List.sum_append, List.map_append, List.sum_append]
      cases hown : own r.addr <;>
        simp [selfMessages, passengerLines, saveState, Grid.driverWork, Grid.lineWork, hown,
          Grid.ride]
      all_goals omega
  | startRide =>
      have hwalk : d.passengerPosition.elim 1 (walk d.position) ≤ g.size + 2 := by
        cases hpass : d.passengerPosition with
        | none => simp
        | some q => exact Grid.walk_le h.position (Grid.holds_of_isPlace (h.origin q hpass))
      simp [selfMessages, passengerLines, Grid.driverWork]
      omega
  | approaches q position hpass haway hmove =>
      have hcloser := (h.moved (h.origin q hpass) hmove).2 haway
      simp [selfMessages, passengerLines, Grid.driverWork, hpass]
      exact hcloser
  | picksUp q hpass hmove =>
      have hwalk : d.destination.elim 1 (walk q) ≤ g.size + 2 := by
        cases hdst : d.destination with
        | none => simp
        | some r => exact Grid.walk_le ht.position (Grid.holds_of_isPlace (h.destination r hdst))
      have hpos := walk_pos d.position q
      rw [selfMessages_append, (passengerLine_aside _ _).1]
      cases hconn : d.currentPassengerConnection with
      | none =>
          simp [selfMessages, passengerLines, Grid.driverWork, hpass]
          omega
      | some addr =>
          cases hown : own addr <;>
            simp [selfMessages, passengerLines, Grid.driverWork, Grid.lineWork, hpass, hown]
          all_goals omega
  | rides q position hdst haway hmove =>
      have hcloser := (h.moved (h.destination q hdst) hmove).2 haway
      simp [selfMessages, passengerLines, saveState, Grid.driverWork, hdst]
      exact hcloser
  | arrives q hdst hmove =>
      simp [selfMessages, passengerLines, saveState, Grid.driverWork, hdst]
  | endRide dst ht =>
      have hresend := @work_resend g own n o (.availableDriver d.name dst) t
        { d with position := dst }
      rw [selfMessages_append, selfMessages_sendToServer, passengerLines_append,
        (sendToServer_aside _ _).2.2, List.map_append, List.sum_append]
      simp only [selfMessages, saveState, passengerLines, List.filterMap_cons, List.filterMap_nil,
        List.append_nil, List.filter_nil, List.map_nil, List.sum_nil, Grid.driverWork]
      omega
  | responds | denies | recoversFree | recoversBusy | reconnectPassenger => cases hm
  | setReceiver | newConnection | noServer | newServer =>
      simp [selfMessages, passengerLines, Grid.driverWork]
  | noPassenger | noDestination =>
      simp [selfMessages, passengerLines, saveState, Grid.driverWork]

/-- **A driver does some of its work** with every message it handles. -/
theorem OnGrid.pays (h : d.OnGrid g known (m :: rest)) (htoken : d.HasToken (m :: rest))
    (hh : d.handle o m = some (t, effects)) :
    ((rest ++ selfMessages effects).map (g.driverWork own n t)).sum + told g own n effects <
      ((m :: rest).map (g.driverWork own n d)).sum := by
  have hself : ((selfMessages effects).map (g.driverWork own n t)).sum + told g own n effects <
      g.driverWork own n d m := h.work_lt hh
  have hrest : (rest.map (g.driverWork own n t)).sum = (rest.map (g.driverWork own n d)).sum :=
    work_same (same_or_spent htoken (h.mailbox m List.mem_cons_self).1 hh)
  rw [List.map_append, List.sum_append, List.map_cons, List.sum_cons, hrest]
  omega

end Driver

/-! ## The passenger on the grid -/

namespace Passenger

/-- A passenger on the grid, whose drivers are called on the `known` connections; `auths` is how
    many answers the gateway owes it. -/
structure OnGrid (g : Grid) (known : ℕ → Prop) (auths : ℕ) (p : Passenger) (mailbox : List Msg) :
    Prop where
  position : g.holds p.info.position = true
  destination : g.isPlace p.info.destination = true
  connections : ∀ c ∈ p.connections, known c.number
  dialled : auths ≠ 0 ∨ .requestDrive ∈ mailbox → p.connections ≠ []

variable {known known' : ℕ → Prop} {auths : ℕ} {distance : Position → Position → ℕ} {o : Oracle}
  {p q : Passenger} {m : Msg} {rest : List Msg} {effects : List Effect}

/-- A passenger on the grid never panics. -/
theorem OnGrid.handle_isSome (h : p.OnGrid g known auths (m :: rest)) (o : Oracle) :
    (p.handle distance o m).isSome = true := by
  cases m with
  | traveling =>
      obtain ⟨r, hr, -⟩ := Grid.move h.position h.destination
      simp only [handle, traveling, moveTo_eq_map, hr, Option.map_some, Option.bind_eq_bind,
        Option.bind_some]
      split <;> rfl
  | requestDrive =>
      have hne := h.dialled (.inr List.mem_cons_self)
      obtain ⟨c, others, hc⟩ := List.exists_cons_of_ne_nil hne
      simp [handle, requestDrive, hc]
  | _ => rfl

theorem OnGrid.moved (h : p.OnGrid g known auths (m :: rest)) {position : Position}
    (hmove : p.moveTo p.info.destination =
      some { p with info := { p.info with position := position } }) :
    g.holds position = true ∧ (position ≠ p.info.destination →
      walk position p.info.destination < walk p.info.position p.info.destination) := by
  obtain ⟨r, hr, hholds, hcloser⟩ := Grid.move h.position h.destination
  rw [moveTo_eq_map, hr] at hmove
  obtain rfl : r = position := congrArg (fun t : Passenger => t.info.position)
    (Option.some.inj hmove)
  exact ⟨hholds, hcloser⟩

theorem OnGrid.append {auths' : ℕ} {mailbox new : List Msg} (h : p.OnGrid g known auths mailbox)
    (hdialled : auths' ≠ 0 ∨ .requestDrive ∈ new → auths ≠ 0) :
    p.OnGrid g known auths' (mailbox ++ new) where
  position := h.position
  destination := h.destination
  connections := h.connections
  dialled := fun hwaits => h.dialled <| by
    rcases hwaits with hwaits | hwaits
    · exact .inl (hdialled (.inl hwaits))
    · exact (List.mem_append.1 hwaits).symm.imp_left fun hmem => hdialled (.inr hmem)

/-- The passenger asks the gateway only when it has a connection to a driver, and keeps it. -/
theorem connected_of_handle (hm : m.isPlain = true)
    (hh : p.handle distance o m = some (q, effects)) :
    (p.connections ≠ [] ∨ authorizations effects ≠ 0 → q.connections ≠ []) ∧
      .requestDrive ∉ selfMessages effects := by
  cases handle_outcome hh with
  | dials => exact ⟨fun _ => setConnection_ne_nil _ _, by simp [selfMessages, saveState]⟩
  | getDrivers | login =>
      unfold sendToServer
      split <;> exact ⟨fun h => h.resolve_right (by simp [authorizations,
        Effect.isAuthorizePayment]), by simp [selfMessages]⟩
  | noServer | newServer | noDriver | newDriver | rideEnded | rideGoesOn | rideWaits
  | recoversPaid | recoversDenied | recoversRide | recoversAlone => cases hm
  | _ => exact ⟨fun h => h.resolve_right (by simp [authorizations, saveState, finishRide,
      Effect.isAuthorizePayment]), by simp [selfMessages, saveState, finishRide]⟩

/-- **A passenger stays on the grid.** -/
theorem OnGrid.handled (h : p.OnGrid g known auths (m :: rest))
    (hhands : p.HandsOn distance o m q effects) (hm : m.isPlain = true)
    (hh : p.handle distance o m = some (q, effects)) (hmono : ∀ n, known n → known' n)
    (hnew : ∀ n, o.driver = some n → known' n) :
    q.OnGrid g known' (auths + authorizations effects) (rest ++ selfMessages effects) where
  position := by
    cases handle_outcome hh with
    | travels _ _ hmove | arrives _ _ hmove => exact (h.moved hmove).1
    | driverArrived => exact h.position
    | recoversPaid | recoversDenied | recoversRide | recoversAlone | rideEnded | rideGoesOn
    | rideWaits => cases hm
    | _ =>
        rw [hhands.position rfl]
        exact h.position
  destination := hhands.destination ▸ h.destination
  connections := fun c hc =>
    (hhands.connections c hc).elim (fun hold => hmono _ (h.connections c hold)) (hnew _)
  dialled := fun hwaits => by
    obtain ⟨hconnected, hself⟩ := connected_of_handle hm hh
    refine hconnected ?_
    by_cases hauths : authorizations effects = 0
    · refine .inl (h.dialled (hwaits.imp (by omega) fun hmem => ?_))
      exact List.mem_cons_of_mem m ((List.mem_append.1 hmem).resolve_right hself)
    · exact .inr hauths

/-- The requests of a passenger are for a ride from where it is to its destination. -/
theorem request_of_handle (hm : m.isPlain = true)
    (hh : p.handle distance o m = some (q, effects)) :
    ∀ l ∈ driverLines effects, m = .requestDrive ∧ l.1 ∈ p.connections ∧
      l.2 = .requestRide p.info.id p.info.position p.info.destination := by
  cases handle_outcome hh with
  | requestDrive c hc =>
      intro l hl
      obtain rfl := List.mem_singleton.1 hl
      exact ⟨rfl, List.mem_of_getElem? hc, rfl⟩
  | getDrivers | login =>
      unfold sendToServer
      split <;> simp [driverLines]
  | noServer | newServer | noDriver | newDriver | rideEnded | rideGoesOn | rideWaits
  | recoversPaid | recoversDenied | recoversRide | recoversAlone => cases hm
  | _ => simp [driverLines, saveState, finishRide]

theorem length_of_selectDriver {driversInfo others : List DriverInfo} {driver : DriverInfo}
    (h : selectDriver distance { p with driversInfo := driversInfo } 5 =
      ({ p with driversInfo := others }, some driver)) :
    driversInfo.length = others.length + 1 := by
  obtain ⟨others', htaken, heq⟩ := takenOut_of_selectDriver h
  obtain rfl : others = others' := congrArg Passenger.driversInfo heq
  exact htaken.perm.length_eq.symm

/-- What the passenger has to do after it has handled a message is less than that was. -/
theorem OnGrid.work_lt (h : p.OnGrid g known auths (m :: rest)) (hm : m.isPlain = true)
    (hup : (∀ k, m ≠ .setReceiver k) → (p.serverReceiver.isSome && o.connected) = true)
    (hh : p.handle distance o m = some (q, effects)) :
    ((selfMessages effects).map (g.passengerWork q)).sum + asks effects * g.askWork +
        authorizations effects * g.authorizationWork q.driversInfo.length +
        (driverLines effects).length * g.requestWork q.driversInfo.length <
      g.passengerWork p m := by
  cases handle_outcome hh with
  | getDrivers | login =>
      rw [sendToServer_up (hup (by simp))]
      simp [selfMessages, asks, authorizations, driverLines, Grid.passengerWork, Grid.askWork,
        Effect.isGetDrivers, Effect.isAuthorizePayment, ServerLine.isGetDrivers]
  | unreachable driversInfo others driver hselect =>
      have hlength := length_of_selectDriver hselect
      simp [selfMessages, asks, authorizations, driverLines, saveState, Grid.passengerWork,
        Effect.isGetDrivers, Effect.isAuthorizePayment]
      omega
  | dials driversInfo others driver number hselect =>
      have hlength := length_of_selectDriver hselect
      have hsame : ({ p with driversInfo := others }.setConnection
          ⟨driver.socket, number⟩).driversInfo = others := by
        unfold setConnection
        split <;> rfl
      simp [selfMessages, asks, authorizations, driverLines, saveState, Grid.passengerWork,
        Effect.isGetDrivers, Effect.isAuthorizePayment, Grid.authorizationWork, hsame]
      omega
  | travels position haway hmove =>
      have hcloser := (h.moved hmove).2 haway
      simp [selfMessages, asks, authorizations, driverLines, saveState, Grid.passengerWork,
        Effect.isGetDrivers, Effect.isAuthorizePayment]
      exact hcloser
  | driverArrived =>
      have hwalk := Grid.walk_le h.position (Grid.holds_of_isPlace h.destination)
      simp [selfMessages, asks, authorizations, driverLines, Grid.passengerWork,
        Effect.isGetDrivers, Effect.isAuthorizePayment]
      omega
  | noServer | newServer | noDriver | newDriver | rideEnded | rideGoesOn | rideWaits
  | recoversPaid | recoversDenied | recoversRide | recoversAlone => cases hm
  | _ =>
      simp [selfMessages, asks, authorizations, driverLines, saveState, finishRide,
        Grid.passengerWork, Effect.isGetDrivers, Effect.isAuthorizePayment, Grid.requestWork]

end Passenger

end ConcuRide
