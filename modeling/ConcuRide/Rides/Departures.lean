import ConcuRide.Passenger.Payments
import ConcuRide.Rides.Balance

set_option autoImplicit false

/-! # One departure per ride

A driver tells its passenger once that it has arrived, as long as the token of the ride says so: the
token is with the search, with a driver on its way to the passenger, or spent by a `driver_arrived`.
A driver that was started again goes by its file, so it must not crash between its arrival and the
next time it saves its state. -/

namespace ConcuRide

open Lib

/-! ## The token of a driver -/

namespace Driver

/-- The passenger was in the car when the driver saved the state. -/
def Version.pickedUp (v : Version) : Bool :=
  (v.status.get "passenger_picked_up").asBool == some true

/-- By its file, the driver is on its way to the passenger with the `own` connections. -/
def Version.approaching (own : ℕ → Bool) (v : Version) : Bool := v.holds own && !v.pickedUp

/-- By its memory, the driver is on its way to the passenger with the `own` connections. -/
def approaching (own : ℕ → Bool) (d : Driver) (ride : Option RequestRide) : Bool :=
  !d.isAvailable && !d.passengerPickedUp && isOwn own ride

/-- The arrivals a passenger with the `own` connections is told of. -/
def arrivals (own : ℕ → Bool) (lines : List (ℕ × PassengerLine)) : ℕ :=
  (lines.filter fun l => own l.1).countP fun l => l.2.isArrived

def PassengerLine.isResponse : PassengerLine → Bool
  | .recoverResponse _ _ _ => true
  | _ => false

/-- The connection a message makes the driver's current one. -/
def Msg.connection : Msg → Option ℕ
  | .requestRide r => some r.addr
  | .passengerRecover _ addr | .reconnectPassenger addr _ => some addr
  | _ => none

/-- A message of the passenger with the `own` connections that has read its state back. -/
def Msg.isRecoverOf (own : ℕ → Bool) : Msg → Bool
  | .passengerRecover _ addr => own addr
  | _ => false

namespace Process

/-- The driver is on its way to the passenger: by its memory, once it has read its file. -/
def approaching (own : ℕ → Bool) (s : Process) : Bool :=
  match s.actor with
  | some (d, mailbox) =>
    if mailbox.any Msg.isRecovery then s.versions.head?.any (Version.approaching own)
    else d.approaching own s.ride
  | none => s.versions.head?.any (Version.approaching own)

/-- The departures a driver may still bring about. -/
def departures (own : ℕ → Bool) (s : Process) : ℕ :=
  s.mailbox.countP (Msg.isRequestOf own) + (s.approaching own).toNat

/-- **The arrival is saved**: a driver on a ride of the passenger has saved whether the passenger is
    in the car. -/
def departureSaved (own : ℕ → Bool) (s : Process) : Bool :=
  match s.actor with
  | some (d, mailbox) =>
    mailbox.any Msg.isRecovery || d.isAvailable || !isOwn own s.ride ||
      s.versions.head?.any Version.pickedUp == d.passengerPickedUp
  | none => true

/-- **The passenger calls its own driver**: the driver that handles a reconnect of the passenger is
    free or on a ride of the passenger. -/
def calledByOwn (own : ℕ → Bool) (s : Process) : Bool :=
  match s.actor with
  | some (d, .reconnectPassenger addr _ :: _) => !own addr || d.isAvailable || isOwn own s.ride
  | _ => true

/-- The driver only calls the passenger when it is on a ride of it. -/
structure Calls (own : ℕ → Bool) (s : Process) : Prop where
  recovering : ∀ d mailbox, s.actor = some (d, mailbox) → mailbox.any Msg.isRecovery = true →
    d.currentPassengerConnection = none
  riding : ∀ d mailbox, s.actor = some (d, mailbox) → d.isAvailable = false →
    ∀ addr, d.currentPassengerConnection = some addr → own addr = true → isOwn own s.ride = true
  quiet : ∀ m ∈ s.mailbox, m.isRecoverOf own = false

end Process

variable {own : ℕ → Bool} {d t : Driver} {o : Oracle} {m : Msg} {ride : Option RequestRide}
  {file : Option Version} {chain rest : List Msg} {saved : List Json}
  {lines : List (ℕ × PassengerLine)} {effects : List Effect}

theorem pickedUp_status (d : Driver) (ride : Option RequestRide) :
    Version.pickedUp ⟨d.status, ride⟩ = d.passengerPickedUp := by
  have hget : d.status.get "passenger_picked_up" = .bool d.passengerPickedUp := by
    simp [status_get, List.lookup_cons]
  rw [Version.pickedUp, hget]
  cases d.passengerPickedUp <;> rfl

theorem approaching_status (d : Driver) (ride : Option RequestRide) :
    Version.approaching own ⟨d.status, ride⟩ = d.approaching own ride := by
  simp only [Version.approaching, Version.holds, busy_status, pickedUp_status, approaching]
  cases d.isAvailable <;> cases d.passengerPickedUp <;> cases isOwn own ride <;> rfl

theorem arrivals_other {addr : ℕ} {line : PassengerLine} (hline : line.isArrived = false) :
    arrivals own [(addr, line)] = 0 := by
  cases hown : own addr <;> simp [arrivals, hown, hline]

theorem approaching_same (hsame : d.SameRide t) : t.approaching own ride = d.approaching own ride := by
  rw [approaching, hsame.isAvailable, hsame.passengerPickedUp, approaching]

/-- **A driver arrives once**: a ride that is not accepted now was approached before, and one
    arrival ends the approach. -/
theorem Drives.departs (h : Drives d m t chain saved lines) (hrec : m.isRecovery = false)
    (hon : d.OnRide ride) (htoken : d.HasToken (m :: rest))
    (hcalls : d.isAvailable = false → ∀ addr, d.currentPassengerConnection = some addr →
      own addr = true → isOwn own ride = true) :
    (t.approaching own (Process.rideAfter ride d m)).toNat + refusals own lines
      + arrivals own lines ≤ (m.isRequestOf own).toNat + (d.approaching own ride).toNat := by
  cases h with
  | aside hm hrequest _ _ hsame =>
      have hsameRide : Process.rideAfter ride d m = ride := by
        cases m with
        | requestRide r => exact absurd rfl (hrequest r)
        | _ => rfl
      rw [hsameRide, approaching_same hsame]
      exact Nat.le_add_left ..
  | responds id addr hsame =>
      rw [refusals_other rfl, arrivals_other rfl, approaching_same hsame]
      exact Nat.le_add_left ..
  | refuses r hbusy =>
      have hsameRide : Process.rideAfter ride d (.requestRide r) = ride := by
        simp [Process.rideAfter, hbusy]
      rw [hsameRide, refusals_singleton, arrivals_other rfl, PassengerLine.isNo, Bool.and_true]
      show _ + (own r.addr).toNat + 0 ≤ (own r.addr).toNat + _
      omega
  | accepts r hfree =>
      have hnew : Process.rideAfter ride d (.requestRide r) = some r := by
        simp [Process.rideAfter, hfree]
      have hpicked : (d.take r).passengerPickedUp = false := hon.free hfree
      have happroaching : (d.take r).approaching own (some r) = own r.addr := by
        rw [approaching, hpicked]
        exact Bool.true_and _
      rw [hnew, refusals_other rfl, arrivals_other rfl, happroaching]
      exact Nat.le_add_right ..
  | starts | noPassenger | approaches | noDestination | rides | arrives => exact Nat.le_add_left ..
  | picksUp position =>
      obtain ⟨hbusy, -, hpick⟩ := htoken.spent rfl
      have hpicked : d.passengerPickedUp = false := by simpa [Msg.isPickUp] using hpick.symm
      have hgone : ({ d with position := position, passengerPickedUp := true } : Driver).approaching
          own (Process.rideAfter ride d .pickUpPassenger) = false := by
        simp [approaching]
      rw [hgone]
      cases hconn : d.currentPassengerConnection with
      | none => exact Nat.zero_le _
      | some addr =>
          show 0 + refusals own [(addr, .driverArrived)] + arrivals own [(addr, .driverArrived)] ≤ _
          rw [refusals_other rfl]
          cases hown : own addr with
          | false => simp [arrivals, hown]
          | true =>
              have happroaching : d.approaching own ride = true := by
                rw [approaching, hbusy, hpicked, hcalls hbusy addr hconn hown]
                rfl
              rw [happroaching]
              simp [arrivals, hown, PassengerLine.isArrived]
  | ends dst =>
      have hgone : (d.free dst).approaching own (Process.rideAfter ride d (.endRide dst)) = false := by
        simp [approaching, free]
      rw [hgone]
      exact Nat.zero_le _
  | recoversFree | recoversBusy => cases hrec

/-- A driver that held no ride of the passenger and accepts none holds none, and does not call it. -/
theorem Drives.unaccepted (h : Drives d m t chain saved lines) (hrec : m.isRecovery = false)
    (hfile : file.any Version.busy = !d.isAvailable)
    (hride : d.isAvailable = false → file.map Version.ride = some ride) (hon : d.OnRide ride)
    (htoken : d.HasToken (m :: rest))
    (hcalls : d.isAvailable = false → ∀ addr, d.currentPassengerConnection = some addr →
      own addr = true → isOwn own ride = true)
    (hold : file.any (Version.holds own) = false)
    (hok : (lines.filter fun l => own l.1).countP (fun l => l.2.isOk) = 0) :
    (newest file saved (Process.rideAfter ride d m)).any (Version.holds own) = false ∧
      arrivals own lines = 0 := by
  cases hrequest : m.isRequestOf own with
  | false =>
      have hload : ((newest file saved (Process.rideAfter ride d m)).any
          (Version.holds own)).toNat + refusals own lines ≤
          (m.isRequestOf own).toNat + (file.any (Version.holds own)).toNat :=
        h.token hrec hfile hride
      have hdeparts := h.departs hrec hon htoken hcalls
      have hfar : d.approaching own ride = false := by
        cases hav : d.isAvailable with
        | true => simp [approaching, hav]
        | false =>
            rw [holds_of_busy hav hfile hride] at hold
            simp [approaching, hold]
      rw [hrequest, hold] at hload
      rw [hrequest, hfar] at hdeparts
      refine ⟨?_, by simp only [Bool.toNat_false] at hdeparts; omega⟩
      cases hnew : (newest file saved (Process.rideAfter ride d m)).any (Version.holds own) with
      | false => rfl
      | true =>
          rw [hnew] at hload
          simp at hload
  | true =>
      cases h with
      | refuses r hbusy => exact ⟨hold, arrivals_other rfl⟩
      | accepts r =>
          have hown : own r.addr = true := hrequest
          simp [hown, PassengerLine.isOk] at hok
      | aside _ hne =>
          cases m with
          | requestRide r => exact absurd rfl (hne r)
          | _ => cases hrequest
      | _ => cases hrequest

/-- Only the answer to a passenger that has read its state back is a response. -/
theorem Drives.responses (h : Drives d m t chain saved lines) (hm : m.isRecoverOf own = false) :
    ∀ l ∈ lines.filter (fun l => own l.1), l.2.isResponse = false := by
  intro l hl
  obtain ⟨hl, hown⟩ := List.mem_filter.1 hl
  cases h with
  | responds id addr =>
      obtain rfl := List.mem_singleton.1 hl
      exact absurd (hown.symm.trans hm) (by simp)
  | refuses | accepts =>
      obtain rfl := List.mem_singleton.1 hl
      rfl
  | picksUp =>
      obtain ⟨addr, -, rfl⟩ := List.mem_map.1 hl
      rfl
  | _ => cases hl

theorem restore_connection {status : Json} (h : d.restore status = some t) :
    t.currentPassengerConnection = d.currentPassengerConnection := by
  simp only [restore, Option.bind_eq_bind, Option.bind_eq_some_iff] at h
  obtain ⟨_, -, _, -, _, -, ht⟩ := h
  obtain rfl := Option.some.inj ht
  rfl

/-- What a handler does to the current connection. -/
theorem handle_connection (h : d.handle o m = some (t, effects)) :
    t.currentPassengerConnection = d.currentPassengerConnection ∨
      m.connection = t.currentPassengerConnection ∧
        ∀ r, m = .requestRide r → d.isAvailable = true := by
  cases handle_outcome h with
  | accepts r hfree ht =>
      subst ht
      exact .inr ⟨rfl, fun _ _ => hfree⟩
  | responds | reconnectPassenger => exact .inr ⟨rfl, by simp⟩
  | recoversFree status socket ht | recoversBusy status socket ht =>
      exact .inl (restore_connection ht)
  | endRide dst ht =>
      subst ht
      exact .inl rfl
  | _ => exact .inl rfl

/-- A free driver gets busy when it accepts a ride, or reads one back. -/
theorem handle_busy (h : d.handle o m = some (t, effects)) (hfree : d.isAvailable = true)
    (hbusy : t.isAvailable = false) : (∃ r, m = .requestRide r ∧ t = d.take r) ∨
      m.isRecovery = true := by
  cases handle_outcome h with
  | accepts r _ ht => exact .inl ⟨r, rfl, ht⟩
  | recoversFree | recoversBusy => exact .inr rfl
  | endRide dst ht =>
      subst ht
      cases hbusy
  | _ => exact absurd (hbusy.symm.trans hfree) Bool.false_ne_true

/-- A handler that panics moves, or reads a saved state. -/
theorem handle_none (h : d.handle o m = none) :
    m = .pickUpPassenger ∨ m = .rideToDestination ∨ m.isRecovery = true := by
  cases m with
  | pickUpPassenger => exact .inl rfl
  | rideToDestination => exact .inr (.inl rfl)
  | recovery => exact .inr (.inr rfl)
  | _ => cases h

namespace Process

variable {s s' : Process}

theorem any_recovery_false {mailbox : List Msg} (h : ∀ m ∈ mailbox, m.isRecovery = false) :
    mailbox.any Msg.isRecovery = false :=
  List.any_eq_false.2 fun m hm => by simp [h m hm]

/-- A running driver that has read its file goes by its memory. -/
theorem approaching_running {mailbox : List Msg} (hactor : s.actor = some (d, mailbox))
    (hread : ∀ m ∈ mailbox, m.isRecovery = false) :
    s.approaching own = d.approaching own s.ride := by
  simp only [approaching, hactor, any_recovery_false hread, Bool.false_eq_true, if_false]

/-- A driver that still has to read its file goes by that. -/
theorem approaching_file {mailbox : List Msg} (hactor : s.actor = some (d, mailbox))
    (hread : mailbox.any Msg.isRecovery = true) :
    s.approaching own = s.versions.head?.any (Version.approaching own) := by
  simp only [approaching, hactor, hread, if_true]

theorem approaching_stopped (hactor : s.actor = none) :
    s.approaching own = s.versions.head?.any (Version.approaching own) := by
  simp only [approaching, hactor]

/-- A driver that panics is on its way to the passenger only if it was before. -/
theorem approaching_panicked {rest : List Msg} (hkept : s.Kept) (hs : s.Sound)
    (hactor : s.actor = some (d, m :: rest)) (hh : d.handle o m = none) :
    (((savedBeforePanic d m).map (fun status => (⟨status, s.ride⟩ : Version))
      ++ s.versions).head?.any (Version.approaching own)).toNat ≤ (s.approaching own).toNat := by
  cases (hkept d _ hactor).head with
  | running hm hrest hbusy hride =>
      have hread : ∀ x ∈ m :: rest, x.isRecovery = false := List.forall_mem_cons.2 ⟨hm, hrest⟩
      rw [approaching_running hactor hread]
      rcases handle_none hh with rfl | rfl | hrec
      · -- it still has to pick up the passenger
        obtain ⟨-, htoken⟩ := (hs.actor d _ hactor).of_read hread
        obtain ⟨hbusy', -, hpick⟩ := htoken.spent rfl
        have hpicked : d.passengerPickedUp = false := by simpa [Msg.isPickUp] using hpick.symm
        have hholds := @holds_of_busy own d s.ride _ hbusy' hbusy hride
        show (s.versions.head?.any (Version.approaching own)).toNat ≤ _
        rw [Driver.approaching, hbusy', hpicked]
        simp only [Bool.not_false, Bool.true_and, ← hholds]
        cases s.versions.head? with
        | none => exact Nat.le_refl _
        | some v =>
            simp only [Option.any_some, Version.approaching]
            cases v.holds own <;> cases v.pickedUp <;> simp
      · have hhead : ((savedBeforePanic d .rideToDestination).map
            (fun status => (⟨status, s.ride⟩ : Version)) ++ s.versions).head?
            = some ⟨d.status, s.ride⟩ := rfl
        rw [hhead, Option.any_some, approaching_status]
      · exact absurd (hrec.symm.trans hm) (by simp)
  | links => cases hh
  | reads =>
      rw [approaching_file hactor rfl]
      exact Nat.le_refl _

/-- The approach of a driver after a handler, with what it tells the passenger. -/
theorem approaching_handled {rest : List Msg} (hkept : s.Kept) (hs : s.Sound)
    (hcalls : s.Calls own) (hactor : s.actor = some (d, m :: rest))
    (hh : d.handle o m = some (t, effects))
    (hs' : s' = { actor := some (t, rest ++ selfMessages effects)
                  versions := (saves effects).map (fun status => ⟨status, rideAfter s.ride d m⟩)
                    ++ s.versions
                  ride := rideAfter s.ride d m }) :
    (s'.approaching own).toNat + refusals own (passengerLines effects)
      + arrivals own (passengerLines effects) ≤
      (m.isRequestOf own).toNat + (s.approaching own).toNat := by
  have hlater : (∀ x ∈ rest, x.isRecovery = false) →
      ∀ x ∈ rest ++ selfMessages effects, x.isRecovery = false := fun hrest =>
    List.forall_mem_append.2 ⟨hrest, not_recovery_of_self hh⟩
  have hactor' : s'.actor = some (t, rest ++ selfMessages effects) := by rw [hs']
  have hride' : s'.ride = rideAfter s.ride d m := by rw [hs']
  have hquiet : (s'.approaching own).toNat ≤ (s.approaching own).toNat →
      m.isRecovery = true ∨ (∃ link, m = .setReceiver link) →
      (s'.approaching own).toNat + refusals own (passengerLines effects)
        + arrivals own (passengerLines effects) ≤
        (m.isRequestOf own).toNat + (s.approaching own).toNat := by
    intro hle hm
    rw [(startUp_quiet hh hm).2]
    exact Nat.le_trans hle (Nat.le_add_left ..)
  cases (hkept d _ hactor).head with
  | running hm hrest _ _ =>
      have hread : ∀ x ∈ m :: rest, x.isRecovery = false := List.forall_mem_cons.2 ⟨hm, hrest⟩
      obtain ⟨hon, htoken⟩ := (hs.actor d _ hactor).of_read hread
      have hdrives := handle_drives hh
      unfold DrivesBy at hdrives
      rw [approaching_running hactor hread, approaching_running hactor' (hlater hrest), hride']
      exact hdrives.departs hm hon htoken fun hav => hcalls.riding d _ hactor hav
  | links hmem =>
      refine hquiet ?_ (.inr ⟨_, rfl⟩)
      have hmem' : (rest ++ selfMessages effects).any Msg.isRecovery = true := by
        rw [List.any_append, hmem, Bool.true_or]
      rw [approaching_file hactor (by rw [List.any_cons, hmem, Bool.or_true]),
        approaching_file hactor' hmem', hs', (startUp_quiet hh (.inr ⟨_, rfl⟩)).1]
      exact Nat.le_refl _
  | @reads v socket _ hfile hride hfree hrest =>
      refine hquiet ?_ (.inl rfl)
      obtain ⟨x, hx, -⟩ := hs.versions v (List.mem_of_mem_head? hfile)
      have ht := handle_recovery hh
      rw [hx, restore_status] at ht
      obtain rfl := Option.some.inj ht
      have hvx : v = ⟨x.status, v.ride⟩ := by rw [← hx]
      rw [approaching_file hactor rfl, approaching_running hactor' (hlater hrest), hride', hfile,
        Option.any_some, hvx, approaching_status]
      exact Nat.le_of_eq (congrArg _ (congrArg (Driver.approaching own x) hride))

/-- **A driver passes the token of the departure on.** -/
theorem departures_recv (hkept : s.Kept) (hs : s.Sound) (hcalls : s.Calls own)
    (h : s.recv o = some (s', effects)) :
    s'.departures own + refusals own (passengerLines effects) + arrivals own (passengerLines effects)
      ≤ s.departures own := by
  rcases recv_cases h with ⟨d, m, rest, hactor, hh, rfl, rfl⟩ | ⟨d, m, rest, t, hactor, hh, hs'⟩
  · show 0 + _ + 0 ≤ _
    rw [Nat.add_zero]
    exact Nat.add_le_add (Nat.zero_le _) (approaching_panicked hkept hs hactor hh)
  · have happroaching := approaching_handled hkept hs hcalls hactor hh hs'
    have hbox : s.mailbox = m :: rest := by simp [mailbox, hactor]
    have hbox' : s'.mailbox = rest ++ selfMessages effects := by simp [mailbox, hs']
    have hcount : (m :: rest).countP (Msg.isRequestOf own)
        = rest.countP (Msg.isRequestOf own) + (m.isRequestOf own).toNat := countP_cons_toNat ..
    rw [departures, departures, hbox, hbox', hcount, List.countP_append, requests_self hh]
    omega

/-- The driver answers no passenger that has read its state back. -/
theorem recv_responses (hcalls : s.Calls own) (h : s.recv o = some (s', effects)) :
    ∀ l ∈ (passengerLines effects).filter (fun l => own l.1), l.2.isResponse = false := by
  rcases recv_cases h with ⟨d, m, rest, -, -, rfl, -⟩ | ⟨d, m, rest, t, hactor, hh, -⟩
  · exact fun l hl => by cases hl
  · have hbox : s.mailbox = m :: rest := by simp [mailbox, hactor]
    have hdrives := handle_drives hh
    unfold DrivesBy at hdrives
    exact hdrives.responses (hcalls.quiet m (hbox ▸ List.mem_cons_self))

/-- A driver that held no ride of the passenger and accepts none holds none, and does not call it. -/
theorem recv_unaccepted (hkept : s.Kept) (hs : s.Sound) (hcalls : s.Calls own)
    (h : s.recv o = some (s', effects))
    (hold : s.versions.head?.any (Version.holds own) = false)
    (hok : ((passengerLines effects).filter fun l => own l.1).countP (fun l => l.2.isOk) = 0) :
    s'.versions.head?.any (Version.holds own) = false ∧
      arrivals own (passengerLines effects) = 0 := by
  rcases recv_cases h with ⟨d, m, rest, hactor, hh, rfl, rfl⟩ | ⟨d, m, rest, t, hactor, hh, rfl⟩
  · have hpanic := @holds_panicked own d m rest s hkept hactor
    rw [hold] at hpanic
    refine ⟨?_, rfl⟩
    cases hnew : (((savedBeforePanic d m).map (fun status => (⟨status, s.ride⟩ : Version))
        ++ s.versions).head?.any (Version.holds own)) with
    | false => rfl
    | true =>
        rw [hnew] at hpanic
        exact absurd hpanic (by decide)
  · rcases (hkept d _ hactor).running_or_quiet hh with ⟨hread, hfile, hride⟩ | ⟨hsaves, hlines⟩
    · obtain ⟨hon, htoken⟩ := (hs.actor d _ hactor).of_read hread
      have hdrives := handle_drives hh
      unfold DrivesBy at hdrives
      rw [List.head?_append]
      exact hdrives.unaccepted (hread m List.mem_cons_self) hfile hride hon htoken
        (fun hav => hcalls.riding d _ hactor hav) hold hok
    · rw [hsaves, hlines]
      exact ⟨hold, rfl⟩

/-- The driver only calls the passenger on a ride of it. -/
theorem Calls.recv (hcalls : s.Calls own) (hkept : s.Kept) (hok : s.calledByOwn own = true)
    (h : s.recv o = some (s', effects)) : s'.Calls own := by
  rcases recv_cases h with ⟨d, m, rest, hactor, -, -, rfl⟩ | ⟨d, m, rest, t, hactor, hh, rfl⟩
  · exact ⟨fun _ _ hactor' => (by cases hactor'), fun _ _ hactor' => (by cases hactor'),
      fun x hx => (by cases hx)⟩
  · have hself := self_cases hh
    have hbox : s.mailbox = m :: rest := by simp [mailbox, hactor]
    have hquiet := hcalls.quiet
    rw [hbox] at hquiet
    have hm := hquiet m List.mem_cons_self
    constructor
    case recovering =>
      intro d' mailbox hactor' hmem
      obtain ⟨rfl, rfl⟩ := Prod.mk.inj (Option.some.inj hactor')
      have hrest : rest.any Msg.isRecovery = true := by
        rw [List.any_append, any_recovery_false (not_recovery_of_self hh), Bool.or_false] at hmem
        exact hmem
      cases (hkept d _ hactor).head with
      | running _ hread | reads _ _ _ hread =>
          rw [any_recovery_false hread] at hrest
          cases hrest
      | links =>
          obtain ⟨rfl, -⟩ := Prod.mk.inj (Option.some.inj hh)
          refine hcalls.recovering d _ hactor ?_
          rw [List.any_cons, hrest, Bool.or_true]
    case riding =>
      intro d' mailbox hactor' hbusy addr haddr hown
      obtain ⟨rfl, rfl⟩ := Prod.mk.inj (Option.some.inj hactor')
      cases hav : d.isAvailable with
      | true =>
          rcases handle_busy hh hav hbusy with ⟨r, rfl, rfl⟩ | hrec
          · obtain rfl := Option.some.inj haddr
            simpa [rideAfter, hav, isOwn] using hown
          · have hnone := hcalls.recovering d _ hactor (by simp [hrec])
            rcases handle_connection hh with hsame | ⟨hconn, -⟩
            · rw [hsame, hnone] at haddr
              cases haddr
            · cases m with
              | recovery =>
                  rw [← hconn] at haddr
                  cases haddr
              | _ => cases hrec
      | false =>
          have hride : rideAfter s.ride d m = s.ride := by
            cases m with
            | requestRide r => simp [rideAfter, hav]
            | _ => rfl
          show isOwn own (rideAfter s.ride d m) = true
          rw [hride]
          rcases handle_connection hh with hsame | ⟨hconn, hrequest⟩
          · exact hcalls.riding d _ hactor hav addr (hsame.symm.trans haddr) hown
          · rw [haddr] at hconn
            cases m with
            | requestRide r => exact absurd (hav.symm.trans (hrequest r rfl)) (by simp)
            | passengerRecover id addr' =>
                obtain rfl := Option.some.inj hconn
                exact absurd (hown.symm.trans hm) (by simp)
            | reconnectPassenger addr' position =>
                obtain rfl := Option.some.inj hconn
                simpa [calledByOwn, hactor, hown, hav] using hok
            | _ => cases hconn
    case quiet =>
      intro x hx
      rcases List.mem_append.1 hx with hx | hx
      · exact hquiet x (List.mem_cons_of_mem m hx)
      · have hx := hself x hx
        cases x with
        | passengerRecover => simp [Msg.isRide, Msg.isReconnect] at hx
        | _ => rfl

theorem departures_enqueue (hm : m.isRecovery = false) (h : s.enqueue m = some s') :
    s'.departures own = s.departures own + (m.isRequestOf own).toNat := by
  obtain ⟨⟨d, mailbox⟩, hactor, rfl⟩ := Option.map_eq_some_iff.1 h
  simp only [departures, Process.mailbox, approaching, hactor, Option.elim_some, List.countP_append,
    List.countP_singleton, List.any_append, List.any_cons, List.any_nil, hm, Bool.or_false]
  cases m.isRequestOf own <;> simp [Nat.add_right_comm]

theorem Calls.enqueue (hcalls : s.Calls own) (hm : m.isRecovery = false)
    (hquiet : m.isRecoverOf own = false) (h : s.enqueue m = some s') : s'.Calls own := by
  obtain ⟨⟨d, mailbox⟩, hactor, rfl⟩ := Option.map_eq_some_iff.1 h
  have hbox : s.mailbox = mailbox := by simp [Process.mailbox, hactor]
  constructor
  case recovering =>
    intro d' mailbox' hactor' hmem
    obtain ⟨rfl, rfl⟩ := Prod.mk.inj (Option.some.inj hactor')
    refine hcalls.recovering d mailbox hactor ?_
    simpa [hm] using hmem
  case riding =>
    intro d' mailbox' hactor'
    obtain ⟨rfl, rfl⟩ := Prod.mk.inj (Option.some.inj hactor')
    exact hcalls.riding d mailbox hactor
  case quiet =>
    intro x hx
    rcases List.mem_append.1 hx with hx | hx
    · exact hcalls.quiet x (hbox ▸ hx)
    · rw [List.mem_singleton.1 hx]
      exact hquiet

/-- A driver that does not run calls nobody. -/
theorem calls_stopped (hactor : s.actor = none) : s.Calls own where
  recovering := fun d mailbox h => by
    rw [hactor] at h
    cases h
  riding := fun d mailbox h => by
    rw [hactor] at h
    cases h
  quiet := fun x hx => by
    rw [Process.mailbox, hactor] at hx
    cases hx

/-- A driver that crashes in time goes on from its file as it would from its memory. -/
theorem departures_crash (hkept : s.Kept) (hok : s.departureSaved own = true) :
    ({ s with actor := none } : Process).departures own ≤ s.departures own := by
  refine Nat.add_le_add (Nat.zero_le _) ?_
  rw [approaching_stopped rfl]
  cases hactor : s.actor with
  | none => rw [approaching_stopped hactor]
  | some a =>
      obtain ⟨d, mailbox⟩ := a
      cases hkept d mailbox hactor with
      | running hread hfile hride =>
          rw [approaching_running hactor hread]
          simp only [departureSaved, hactor, any_recovery_false hread, Bool.false_or] at hok
          show (s.versions.head?.any (Version.approaching own)).toNat ≤ _
          cases hav : d.isAvailable with
          | true =>
              have hnone := @not_holds_of_free own _ (hfile.trans (by rw [hav]; rfl))
              cases hhead : s.versions.head? with
              | none => exact Nat.zero_le _
              | some v =>
                  rw [hhead, Option.any_some] at hnone
                  simp [Version.approaching, hnone]
          | false =>
              have hholds := @holds_of_busy own d s.ride _ hav hfile hride
              cases hhead : s.versions.head? with
              | none => exact Nat.zero_le _
              | some v =>
                  simp only [hhead, Option.any_some] at hholds hok ⊢
                  rw [Version.approaching, Driver.approaching, hholds, hav]
                  cases hown : isOwn own s.ride with
                  | false => exact Nat.zero_le _
                  | true =>
                      simp only [hav, hown, Bool.not_true, Bool.or_self, Bool.false_or,
                        beq_iff_eq] at hok
                      rw [hok]
                      cases d.passengerPickedUp <;> exact Nat.le_refl _
      | starting =>
          rw [approaching_file hactor (by simp [Msg.isRecovery])]

/-- A driver that is started calls nobody. -/
theorem calls_launched {name : String} {at_ : Launch} {status : Option Json}
    (hactor : s.actor = some (launched name at_ status)) : s.Calls own where
  recovering := fun d mailbox h _ => by
    obtain ⟨rfl, -⟩ := Prod.mk.inj (Option.some.inj (hactor.symm.trans h))
    rfl
  riding := fun d mailbox h hbusy => by
    obtain ⟨rfl, -⟩ := Prod.mk.inj (Option.some.inj (hactor.symm.trans h))
    cases hbusy
  quiet := fun x hx => by
    rw [Process.mailbox, hactor] at hx
    cases status with
    | none =>
        simp only [launched, Option.elim_some, Option.toList_none, List.map_nil, List.cons_append,
          List.nil_append, List.mem_cons, List.not_mem_nil, or_false] at hx
        rcases hx with rfl | rfl <;> rfl
    | some status =>
        simp only [launched, Option.elim_some, Option.toList_some, List.map_cons, List.map_nil,
          List.cons_append, List.nil_append, List.mem_cons, List.not_mem_nil, or_false] at hx
        rcases hx with rfl | rfl | rfl <;> rfl

/-- A driver that is started is on its way to the passenger as its file says. -/
theorem departures_start {name : String} {at_ : Launch}
    (h : s.step name (World.startLabel s at_) = some s') :
    s'.departures own ≤ s.departures own ∧ s'.Calls own := by
  unfold World.startLabel at h
  split at h
  · cases step_cases h
    exact ⟨Nat.zero_le _, calls_launched rfl⟩
  · cases step_cases h with
    | recover _ hstopped hv =>
        refine ⟨Nat.add_le_add (Nat.zero_le _) ?_, calls_launched rfl⟩
        rw [approaching_stopped hstopped, approaching_file rfl (by simp [Msg.isRecovery])]

end Process

end Driver

/-! ## The token in the world -/

def Passenger.DriverLine.isRecover : Passenger.DriverLine → Bool
  | .recover _ => true
  | _ => false

/-- Only a passenger that reads its state back asks its driver how far the ride is. -/
theorem Passenger.Searches.recovered {distance : Position → Position → ℕ} {o : Passenger.Oracle}
    {p t : Passenger} {m : Passenger.Msg} {self : List Passenger.Msg} {n k : ℕ}
    {lines : List (Passenger.Connection × Passenger.DriverLine)}
    (h : Passenger.Searches distance o p m t self n k lines) (hm : ∀ status, m ≠ .recover status) :
    ∀ l ∈ lines, l.2.isRecover = false := by
  cases h with
  | recovers status => exact absurd rfl (hm status)
  | requests | reconnects =>
      intro l hl
      rw [List.mem_singleton.1 hl]
      rfl
  | _ =>
      intro l hl
      cases hl

namespace World

/-- The passenger does not crash. -/
def Label.keepsPassenger : Label → Bool
  | .crashPassenger | .restartPassenger _ _ _ => false
  | _ => true

/-- **Every departure counts once**: a driver on a ride of the passenger does not crash between its
    arrival and the next time it saves its state, and a driver on a ride of somebody else handles no
    reconnect of the passenger. -/
def departsOnce (own : ℕ → Bool) (w : World) : Label → Bool
  | .crashDriver d => (w.drivers d).departureSaved own
  | .drives d _ => (w.drivers d).calledByOwn own
  | _ => true

/-- The departures of a place that have been or may still be. -/
def departures (own : ℕ → Bool) (w : World) : Option String → ℕ
  | none => w.search + w.down.countP (fun l => l.2.isArrived) + w.arrivals
  | some d => (w.drivers d).departures own

/-- The invariant of the departures. -/
structure Departs (own : ℕ → Bool) (w : World) : Prop where
  token : AtMostOne (w.departures own)
  underway : ∀ d, (w.drivers d).Sound
  calls : ∀ d, (w.drivers d).Calls own
  travels : ∀ p mailbox, w.passenger = some (p, mailbox) →
    Passenger.travelings mailbox + mailbox.countP Passenger.Msg.isReport ≤ w.arrivals
  fresh : ∀ p mailbox, w.passenger = some (p, mailbox) → ∀ m ∈ mailbox, ∀ status, m ≠ .recover status
  asked : ∀ l ∈ w.up, l.2.isRecover = false
  told : ∀ l ∈ w.down, l.2.isResponse = false
  accepted : w.accepted = 0 → w.arrivals = 0 ∧ w.down.countP (fun l => l.2.isArrived) = 0 ∧
    ∀ d, (w.drivers d).versions.head?.any (Driver.Version.holds own) = false

variable {distance : Position → Position → ℕ} {own : ℕ → Bool} {name : String} {w w' : World}
  {l : Label} {p t : Passenger} {m : Passenger.Msg} {rest new : List Passenger.Msg}
  {effects : List Passenger.Effect} {o : Passenger.Oracle} {d : String}

/-- A step that changes nothing but the passenger, and lines to drivers. -/
theorem Departs.passenger (hd : w.Departs own) (hdrivers : w'.drivers = w.drivers)
    (hdown : w'.down = w.down) (harrivals : w'.arrivals = w.arrivals)
    (haccepted : w'.accepted = w.accepted) (hsearch : w'.search ≤ w.search)
    (htravels : ∀ p mailbox, w'.passenger = some (p, mailbox) →
      Passenger.travelings mailbox + mailbox.countP Passenger.Msg.isReport ≤ w.arrivals)
    (hfresh : ∀ p mailbox, w'.passenger = some (p, mailbox) →
      ∀ m ∈ mailbox, ∀ status, m ≠ .recover status)
    (hasked : ∀ l ∈ w'.up, l.2.isRecover = false) : w'.Departs own where
  token := hd.token.mono fun place => by
    cases place with
    | none =>
        simp only [departures, hdown, harrivals]
        omega
    | some d => exact Nat.le_of_eq (congrArg (fun f => (f d).departures own) hdrivers)
  underway := hdrivers ▸ hd.underway
  calls := hdrivers ▸ hd.calls
  travels := harrivals ▸ htravels
  fresh := hfresh
  asked := hasked
  told := hdown ▸ hd.told
  accepted := by
    rw [haccepted, harrivals, hdown, hdrivers]
    exact hd.accepted

/-- Messages that are no reports arrive at the passenger. -/
theorem Departs.enqueue {w₀ : World} (hd : w.Departs own) (h : w₀.enqueue new = some w')
    (hactor : w₀.passenger = w.passenger) (hdrivers : w₀.drivers = w.drivers)
    (hup : w₀.up = w.up) (hdown : w₀.down = w.down) (harrivals : w₀.arrivals = w.arrivals)
    (haccepted : w₀.accepted = w.accepted)
    (hsearch : w₀.search + new.countP Passenger.Msg.isToken = w.search)
    (hnew : ∀ m ∈ new, m.isReport = false ∧ m.isTraveling = false ∧ m.isStartUp = false) :
    w'.Departs own := by
  have hsearch' := (search_enqueue h).trans hsearch
  obtain ⟨⟨p, mailbox⟩, hsome, rfl⟩ := Option.map_eq_some_iff.1 h
  have hactor' := hactor.symm.trans hsome
  have hquiet : new.countP Passenger.Msg.isTraveling = 0 ∧ new.countP Passenger.Msg.isReport = 0 :=
    ⟨List.countP_eq_zero.2 fun m hm => by simp [(hnew m hm).2.1],
      List.countP_eq_zero.2 fun m hm => by simp [(hnew m hm).1]⟩
  refine hd.passenger hdrivers hdown harrivals haccepted (Nat.le_of_eq hsearch') ?_ ?_
    (hup ▸ hd.asked)
  · intro p' mailbox' h'
    obtain ⟨rfl, rfl⟩ := Prod.mk.inj (Option.some.inj h')
    have htravels := hd.travels p mailbox hactor'
    simp only [Passenger.travelings, List.countP_append, hquiet.1, hquiet.2] at htravels ⊢
    omega
  · intro p' mailbox' h' m hm
    obtain ⟨rfl, rfl⟩ := Prod.mk.inj (Option.some.inj h')
    exact (List.mem_append.1 hm).elim (hd.fresh p mailbox hactor' m)
      fun hm => Passenger.ne_recover (hnew m hm).2.2

theorem departs_handled (hs : w.Sound own) (hd : w.Departs own)
    (hactor : w.passenger = some (p, m :: rest)) (hlink : w.linkOk p o = true)
    (hh : p.handle distance o m = some (t, effects)) :
    (w.handled o d t rest effects).Departs own := by
  have hself := fun x hx => Passenger.isSelf_quiet ((Passenger.handle_keeps hh).messages x hx)
  have hfresh := hd.fresh p _ hactor
  refine hd.passenger rfl rfl rfl rfl (search_handled (hs.inStep p _ hactor) hactor hlink hh)
    ?_ ?_ ?_
  · intro p' mailbox h'
    obtain ⟨rfl, rfl⟩ := Prod.mk.inj (Option.some.inj h')
    have htravels := hd.travels p _ hactor
    have hadvances := Passenger.handle_advances hh
    have hreports : (Passenger.selfMessages effects).countP Passenger.Msg.isReport = 0 :=
      List.countP_eq_zero.2 fun x hx => by simp [(hself x hx).2.2]
    have hone : (if (m.isTraveling || m.isReport) = true then 1 else 0) ≤
        (if m.isTraveling = true then 1 else 0) + if m.isReport = true then 1 else 0 := by
      cases m.isTraveling <;> cases m.isReport <;> simp
    simp only [Passenger.advances] at hadvances
    simp only [Passenger.travelings, List.countP_append, List.countP_cons, hreports]
      at htravels hadvances ⊢
    omega
  · intro p' mailbox h' x hx
    obtain ⟨rfl, rfl⟩ := Prod.mk.inj (Option.some.inj h')
    exact (List.mem_append.1 hx).elim (fun hx => hfresh x (List.mem_cons_of_mem m hx))
      fun hx => Passenger.ne_recover (hself x hx).1
  · intro l hl
    rcases List.mem_append.1 hl with hl | hl
    · exact hd.asked l hl
    · obtain ⟨l', hl', rfl⟩ := List.mem_map.1 hl
      exact (Passenger.handle_searches hh).recovered (hfresh m List.mem_cons_self) l' hl'

theorem departs_endPassenger (hd : w.Departs own) : w.endPassenger.Departs own := by
  refine hd.passenger rfl rfl rfl rfl ?_ (fun p mailbox h => ?_) (fun p mailbox h => ?_) hd.asked
  · simp only [search, endPassenger, Option.elim_none, List.countP_nil]
    omega
  · cases h
  · cases h

theorem departs_panicked (hd : w.Departs own) : (w.panicked p m).Departs own := by
  have hend := departs_endPassenger hd
  unfold panicked
  split
  · exact ⟨hend.token, hend.underway, hend.calls, hend.travels, hend.fresh, hend.asked, hend.told,
      hend.accepted⟩
  · exact hend

theorem departs_toPassenger {i n : ℕ} {line : Driver.PassengerLine} {mailbox : List Passenger.Msg}
    (hd : w.Departs own) (hline : w.down[i]? = some (n, line))
    (hactor : w.passenger = some (p, mailbox)) : Departs own
      { w with
        passenger := some (p, mailbox ++ [line.toMsg])
        down := w.down.eraseIdx i
        arrivals := if line.isArrived then w.arrivals + 1 else w.arrivals } := by
  have hno : w.down.countP (fun l => l.2.isNo)
      = (w.down.eraseIdx i).countP (fun l => l.2.isNo) + line.isNo.toNat :=
    countP_eraseIdx _ hline
  have harrived : w.down.countP (fun l => l.2.isArrived)
      = (w.down.eraseIdx i).countP (fun l => l.2.isArrived) + line.isArrived.toNat :=
    countP_eraseIdx _ hline
  have hnew : (if line.isArrived = true then w.arrivals + 1 else w.arrivals)
      = w.arrivals + line.isArrived.toNat := by
    cases line <;> rfl
  have hresponse : line.isResponse = false := hd.told _ (List.mem_of_getElem? hline)
  have hreport : [line.toMsg].countP Passenger.Msg.isReport = line.isArrived.toNat ∧
      [line.toMsg].countP Passenger.Msg.isTraveling = 0 := by
    cases line with
    | recoverResponse => cases hresponse
    | _ => exact ⟨rfl, rfl⟩
  have htoken : [line.toMsg].countP Passenger.Msg.isToken = line.isNo.toNat := by
    cases line <;> rfl
  constructor
  case token =>
    refine hd.token.mono fun place => ?_
    cases place with
    | none =>
        simp only [departures, search, hactor, Option.elim_some, List.countP_append, hnew, htoken]
        omega
    | some d => exact Nat.le_refl _
  case underway => exact hd.underway
  case calls => exact hd.calls
  case travels =>
    intro p' mailbox' h'
    obtain ⟨rfl, rfl⟩ := Prod.mk.inj (Option.some.inj h')
    have htravels := hd.travels p mailbox hactor
    simp only [Passenger.travelings, List.countP_append, hreport.1, hreport.2, hnew] at htravels ⊢
    omega
  case fresh =>
    intro p' mailbox' h' x hx
    obtain ⟨rfl, rfl⟩ := Prod.mk.inj (Option.some.inj h')
    rcases List.mem_append.1 hx with hx | hx
    · exact hd.fresh p mailbox hactor x hx
    · rw [List.mem_singleton.1 hx]
      exact fun status => by cases line <;> simp [Driver.PassengerLine.toMsg]
  case asked => exact hd.asked
  case told => exact fun l hl => hd.told l (List.mem_of_mem_eraseIdx hl)
  case accepted =>
    intro hzero
    obtain ⟨harrivals, hdown, hheld⟩ := hd.accepted hzero
    refine ⟨?_, ?_, hheld⟩
    · simp only [hnew]
      omega
    · show (w.down.eraseIdx i).countP _ = 0
      omega

/-- A step of one driver. -/
theorem Departs.driver (hd : w.Departs own) (hpassenger : w'.passenger = w.passenger)
    (harrivals : w'.arrivals = w.arrivals) (hothers : ∀ x, x ≠ d → w'.drivers x = w.drivers x)
    (hunderway : (w'.drivers d).Sound) (hcalls : (w'.drivers d).Calls own)
    (hsum : w'.departures own none + w'.departures own (some d) ≤
      w.departures own none + w.departures own (some d))
    (hasked : ∀ l ∈ w'.up, l ∈ w.up) (htold : ∀ l ∈ w'.down, l.2.isResponse = false)
    (haccepted : w'.accepted = 0 → w.accepted = 0 ∧
      w'.down.countP (fun l => l.2.isArrived) ≤ w.down.countP (fun l => l.2.isArrived) ∧
      (w'.drivers d).versions.head?.any (Driver.Version.holds own) = false) :
    w'.Departs own where
  token := hd.token.move (Option.some_ne_none d).symm hsum fun place hnone hplace => by
    cases place with
    | none => exact absurd rfl hnone
    | some x =>
        have hx : x ≠ d := fun hx => hplace (congrArg some hx)
        exact Nat.le_of_eq (congrArg (fun s : Driver.Process => s.departures own) (hothers x hx))
  underway := fun x => by
    by_cases hx : x = d
    · exact hx ▸ hunderway
    · exact hothers x hx ▸ hd.underway x
  calls := fun x => by
    by_cases hx : x = d
    · exact hx ▸ hcalls
    · exact hothers x hx ▸ hd.calls x
  travels := by
    rw [hpassenger, harrivals]
    exact hd.travels
  fresh := by
    rw [hpassenger]
    exact hd.fresh
  asked := fun l hl => hd.asked l (hasked l hl)
  told := htold
  accepted := fun hzero => by
    obtain ⟨hold, hdown, hhead⟩ := haccepted hzero
    obtain ⟨harr, hnone, hheld⟩ := hd.accepted hold
    refine ⟨harrivals.trans harr, by omega, fun x => ?_⟩
    by_cases hx : x = d
    · exact hx ▸ hhead
    · rw [hothers x hx]
      exact hheld x

theorem sound_enqueueDriver {s s' : Driver.Process} {x : Driver.Msg} (hs : s.Sound)
    (hx : x.mayArrive = true) (h : s.enqueue x = some s') : s'.Sound := by
  refine @Driver.Process.sound_step "" _ _ (.arrives x) hs ?_
  simp only [Driver.Process.step, hx, if_true]
  exact h

theorem versions_enqueue {s s' : Driver.Process} {x : Driver.Msg} (h : s.enqueue x = some s') :
    s'.versions = s.versions := by
  obtain ⟨a, -, rfl⟩ := Option.map_eq_some_iff.1 h
  rfl

theorem departs_toDriver {i n : ℕ} {line : Passenger.DriverLine} {s : Driver.Process}
    (hd : w.Departs own) (hline : w.up[i]? = some (n, line))
    (h : (w.drivers d).enqueue (line.toMsg n) = some s) :
    Departs own { w.setDriver d s with up := w.up.eraseIdx i } := by
  have hrecover : line.isRecover = false := hd.asked _ (List.mem_of_getElem? hline)
  have hquiet : (line.toMsg n).isRecovery = false ∧ (line.toMsg n).mayArrive = true ∧
      (line.toMsg n).isRecoverOf own = false := by
    cases line with
    | recover => cases hrecover
    | _ => exact ⟨rfl, rfl, rfl⟩
  have hrequest := @request_toMsg_le own n line
  have hcount : w.up.countP (fun l => l.2.isRequest)
      = (w.up.eraseIdx i).countP (fun l => l.2.isRequest) + line.isRequest.toNat :=
    countP_eraseIdx _ hline
  have hload : s.departures own
      = (w.drivers d).departures own + ((line.toMsg n).isRequestOf own).toNat :=
    Driver.Process.departures_enqueue hquiet.1 h
  have hsame : (w.setDriver d s).drivers d = s := setDriver_same w d s
  refine hd.driver (d := d) rfl rfl (fun x hx => setDriver_other w s hx) ?_ ?_ ?_
    (fun l hl => List.mem_of_mem_eraseIdx hl) hd.told ?_
  · show ((w.setDriver d s).drivers d).Sound
    rw [hsame]
    exact sound_enqueueDriver (hd.underway d) hquiet.2.1 h
  · show ((w.setDriver d s).drivers d).Calls own
    rw [hsame]
    exact (hd.calls d).enqueue hquiet.1 hquiet.2.2 h
  · show _ + ((w.setDriver d s).drivers d).departures own ≤ _
    rw [hsame]
    simp only [departures, search, setDriver]
    omega
  · intro hzero
    refine ⟨hzero, Nat.le_refl _, ?_⟩
    show ((w.setDriver d s).drivers d).versions.head?.any _ = false
    rw [hsame, versions_enqueue h]
    exact (hd.accepted hzero).2.2 d

theorem departs_foreign {x : Driver.Msg} {s : Driver.Process} (hd : w.Departs own)
    (hx : x.isForeign own = true) (h : (w.drivers d).enqueue x = some s) :
    (w.setDriver d s).Departs own := by
  have hquiet : x.isRecovery = false ∧ x.mayArrive = true ∧ x.isRequestOf own = false ∧
      x.isRecoverOf own = false := by
    cases x with
    | requestRide r => exact ⟨rfl, rfl, (Bool.not_eq_true' _).mp hx, rfl⟩
    | passengerRecover id addr => exact ⟨rfl, rfl, rfl, (Bool.not_eq_true' _).mp hx⟩
    | newConnection | reconnectPassenger => exact ⟨rfl, rfl, rfl, rfl⟩
    | _ => cases hx
  have hload := @Driver.Process.departures_enqueue own x _ _ hquiet.1 h
  have hsame : (w.setDriver d s).drivers d = s := setDriver_same w d s
  refine hd.driver (d := d) rfl rfl (fun x hx => setDriver_other w s hx) ?_ ?_ ?_
    (fun l hl => hl) hd.told ?_
  · rw [hsame]
    exact sound_enqueueDriver (hd.underway d) hquiet.2.1 h
  · rw [hsame]
    exact (hd.calls d).enqueue hquiet.1 hquiet.2.2.2 h
  · show _ + ((w.setDriver d s).drivers d).departures own ≤ _
    rw [hsame, hload, hquiet.2.2.1]
    exact Nat.le_refl _
  · intro hzero
    refine ⟨hzero, Nat.le_refl _, ?_⟩
    rw [hsame, versions_enqueue h]
    exact (hd.accepted hzero).2.2 d

theorem departs_crashDriver {s : Driver.Process} (hs : w.Sound own) (hd : w.Departs own)
    (hok : (w.drivers d).departureSaved own = true)
    (h : (w.drivers d).step d .crash = some s) : (w.setDriver d s).Departs own := by
  have hsound := Driver.Process.sound_step (hd.underway d) h
  cases Driver.Process.step_cases h
  have hsame := setDriver_same w d { w.drivers d with actor := none }
  refine hd.driver (d := d) rfl rfl (fun x hx => setDriver_other w _ hx) ?_ ?_ ?_
    (fun l hl => hl) hd.told ?_
  · exact hsame.symm ▸ hsound
  · exact hsame.symm ▸ Driver.Process.calls_stopped rfl
  · show _ + ((w.setDriver d _).drivers d).departures own ≤ _
    rw [hsame]
    exact Nat.add_le_add_left (Driver.Process.departures_crash (hs.kept d) hok) _
  · intro hzero
    refine ⟨hzero, Nat.le_refl _, ?_⟩
    rw [hsame]
    exact (hd.accepted hzero).2.2 d

theorem departs_startDriver {s : Driver.Process} {at_ : Driver.Launch} (hd : w.Departs own)
    (h : (w.drivers d).step d (startLabel (w.drivers d) at_) = some s) : Departs own
    { w.setDriver d s with starts := Function.update w.starts d (w.starts d + 1) } := by
  have hsound := Driver.Process.sound_step (hd.underway d) h
  obtain ⟨hload, hcalls⟩ := @Driver.Process.departures_start own _ _ _ _ h
  have hversions := (@started own _ _ _ _ h).2.1
  have hsame : (w.setDriver d s).drivers d = s := setDriver_same w d s
  refine hd.driver (d := d) rfl rfl (fun x hx => setDriver_other w _ hx) ?_ ?_ ?_
    (fun l hl => hl) hd.told ?_
  · show ((w.setDriver d s).drivers d).Sound
    exact hsame.symm ▸ hsound
  · show ((w.setDriver d s).drivers d).Calls own
    exact hsame.symm ▸ hcalls
  · show _ + ((w.setDriver d s).drivers d).departures own ≤ _
    rw [hsame]
    exact Nat.add_le_add_left hload _
  · intro hzero
    refine ⟨hzero, Nat.le_refl _, ?_⟩
    show ((w.setDriver d s).drivers d).versions.head?.any _ = false
    rw [hsame, hversions]
    exact (hd.accepted hzero).2.2 d

theorem departs_drives {o : Driver.Oracle} {s : Driver.Process} {effects : List Driver.Effect}
    {lines : List (ℕ × Driver.PassengerLine)} (hs : w.Sound own) (hd : w.Departs own)
    (hok : (w.drivers d).calledByOwn own = true) (hrecv : (w.drivers d).recv o = some (s, effects))
    (hlines : lines = (Driver.passengerLines effects).filter fun l => own l.1) : Departs own
      { w.setDriver d s with
        down := w.down ++ lines
        accepted := w.accepted + lines.countP fun l => l.2.isOk } := by
  subst hlines
  have hload := Driver.Process.departures_recv (hs.kept d) (hd.underway d) (hd.calls d) hrecv
  unfold Driver.refusals Driver.arrivals at hload
  have hsame : (w.setDriver d s).drivers d = s := setDriver_same w d s
  refine hd.driver (d := d) rfl rfl (fun x hx => setDriver_other w s hx) ?_ ?_ ?_
    (fun l hl => hl) ?_ ?_
  · show ((w.setDriver d s).drivers d).Sound
    rw [hsame]
    exact Driver.Process.sound_recv (hd.underway d) hrecv
  · show ((w.setDriver d s).drivers d).Calls own
    rw [hsame]
    exact (hd.calls d).recv (hs.kept d) hok hrecv
  · show _ + ((w.setDriver d s).drivers d).departures own ≤ _
    rw [hsame]
    simp only [departures, search, setDriver, List.countP_append]
    omega
  · intro l hl
    rcases List.mem_append.1 hl with hl | hl
    · exact hd.told l hl
    · exact Driver.Process.recv_responses (hd.calls d) hrecv l hl
  · intro hzero
    obtain ⟨hold, hok⟩ := Nat.add_eq_zero_iff.1 hzero
    obtain ⟨hhead, harrivals⟩ := Driver.Process.recv_unaccepted (hs.kept d) (hd.underway d)
      (hd.calls d) hrecv ((hd.accepted hold).2.2 d) hok
    refine ⟨hold, ?_, ?_⟩
    · unfold Driver.arrivals at harrivals
      simp only [List.countP_append]
      omega
    · show ((w.setDriver d s).drivers d).versions.head?.any _ = false
      rw [hsame]
      exact hhead

theorem departs_step (hs : w.Sound own) (hd : w.Departs own)
    (hok : (l.keepsPassenger && w.departsOnce own l) = true)
    (h : step distance own name w l = some w') : w'.Departs own := by
  rw [Bool.and_eq_true] at hok
  cases step_cases h with
  | handles hactor hlink hh => exact departs_handled hs hd hactor hlink hh
  | panics => exact departs_panicked hd
  | @notice m _ hm hnext =>
      refine hd.enqueue hnext rfl rfl rfl rfl rfl rfl
        (by rw [token_notice hm, Nat.add_zero]) fun x hx => ?_
      rw [List.mem_singleton.1 hx]
      cases m with
      | completeLogin | reconnectDriver => exact ⟨rfl, rfl, rfl⟩
      | _ => cases hm
  | answer hi hnext =>
      refine hd.enqueue hnext rfl rfl rfl rfl rfl rfl (search_answer hi) fun x hx => ?_
      rw [List.mem_singleton.1 hx]
      exact ⟨rfl, rfl, rfl⟩
  | @gateway isAuthorized _ hauths hnext =>
      refine hd.enqueue hnext rfl rfl rfl rfl rfl rfl
        (by rw [token_answer]; exact search_gateway hauths) fun x hx => ?_
      cases isAuthorized with
      | true =>
          simp only [Passenger.paymentAuthorizationStatus, if_true, List.mem_cons,
            List.not_mem_nil, or_false] at hx
          rcases hx with rfl | rfl <;> exact ⟨rfl, rfl, rfl⟩
      | false =>
          obtain rfl := List.mem_singleton.1 hx
          exact ⟨rfl, rfl, rfl⟩
  | linkDies k =>
      exact hd.passenger rfl rfl rfl rfl (search_linkDies k) hd.travels hd.fresh hd.asked
  | toDriver hline hnext => exact departs_toDriver hd hline hnext
  | toPassenger hline hactor => exact departs_toPassenger hd hline hactor
  | drives hrecv hlines => exact departs_drives hs hd hok.2 hrecv hlines
  | foreign hm hnext => exact departs_foreign hd hm hnext
  | crashPassenger | restartPassenger => cases hok.1
  | crashDriver hnext => exact departs_crashDriver hs hd hok.2 hnext
  | startDriver hnext => exact departs_startDriver hd hnext

theorem departs_init (name : String) (position destination : Position) (k : ℕ) :
    (init name position destination k).Departs own where
  token := @AtMostOne.single _ _ none (Nat.le_refl _) fun place hne => by
    cases place with
    | none => exact absurd rfl hne
    | some d => rfl
  underway := fun _ => Driver.Process.sound_init
  calls := fun _ => Driver.Process.calls_stopped rfl
  travels := fun p mailbox h => by
    obtain ⟨rfl, rfl⟩ := Prod.mk.inj (Option.some.inj h)
    exact Nat.le_refl _
  fresh := fun p mailbox h => by
    obtain ⟨rfl, rfl⟩ := Prod.mk.inj (Option.some.inj h)
    simp [launched]
  asked := fun l hl => by cases hl
  told := fun l hl => by cases hl
  accepted := fun _ => ⟨rfl, rfl, fun _ => rfl⟩

variable {ls : List Label}

/-- **One departure per ride.** In every run of a passenger that does not crash, with drivers that
    crash between handlers and are started again, in which every departure counts once, the
    passenger receives at most one `driver_arrived` per accepted ride, and at most one `Traveling`
    waits in its mailbox. -/
theorem one_departure_per_ride {position destination : Position} {k : ℕ}
    (h : Run (step distance own name)
      (fun w l => (l.keepsPassenger && w.departsOnce own l) = true)
      (init name position destination k) ls w) :
    w.arrivals ≤ w.accepted ∧ ∀ p mailbox, w.passenger = some (p, mailbox) →
      Passenger.travelings mailbox ≤ 1 := by
  obtain ⟨-, hd⟩ : w.Sound own ∧ w.Departs own :=
    h.invariant (P := fun w => w.Sound own ∧ w.Departs own)
      (fun _ _ _ hinv hok hst => ⟨sound_step hinv.1 hst, departs_step hinv.1 hinv.2 hok hst⟩)
      ⟨sound_init name position destination k, departs_init name position destination k⟩
  have hone : w.search + w.down.countP (fun l => l.2.isArrived) + w.arrivals ≤ 1 :=
    hd.token.le_one none
  constructor
  · rcases Nat.eq_zero_or_pos w.accepted with hzero | hpos
    · rw [(hd.accepted hzero).1]
      exact Nat.zero_le _
    · omega
  · intro p mailbox hactor
    have htravels := hd.travels p mailbox hactor
    omega

/-- Driver "mario" starts next to passenger "peach", which asks it for a ride. It accepts, arrives,
    and tells the passenger. -/
def arrival : List Label :=
  [.startDriver "mario" ⟨(1, 1), "127.0.0.1:40000", ⟨⟨1, 1⟩, 0⟩⟩, .drives "mario" Driver.Process.up,
    .drives "mario" Driver.Process.up, .recv .up "", .recv .up "", .notice (.completeLogin 1),
    .recv .up "", .recv .up "", .answer 0 [⟨"127.0.0.1:40000", (1, 1)⟩],
    .recv { connected := true, driver := some 1, server := none } "mario", .gateway true,
    .recv .up "", .recv .up "", .toDriver 0, .drives "mario" Driver.Process.up,
    .drives "mario" Driver.Process.up, .drives "mario" Driver.Process.up,
    .drives "mario" Driver.Process.up, .toPassenger 0, .toPassenger 0]

/-- The driver crashes and reads its file back. The leader tells the passenger, which calls it
    again. -/
def restarted : List Label :=
  [.crashDriver "mario", .startDriver "mario" ⟨(1, 1), "127.0.0.1:40000", ⟨⟨1, 1⟩, 1⟩⟩,
    .drives "mario" Driver.Process.up, .drives "mario" Driver.Process.up,
    .notice (.reconnectDriver "127.0.0.1:40000"), .recv .up "", .recv .up "",
    .recv { connected := true, driver := some 2, server := none } "mario", .toDriver 0,
    .drives "mario" Driver.Process.up, .drives "mario" Driver.Process.up,
    .drives "mario" Driver.Process.up]

/-- The driver saves its state before it crashes. -/
theorem one_departure_per_ride_restart : ∃ w : World, w.arrivals = 1 ∧ w.arrivals ≤ w.accepted ∧
    ∀ p mailbox, w.passenger = some (p, mailbox) → Passenger.travelings mailbox ≤ 1 := by
  obtain ⟨w, hrun, hone⟩ := exists_run_of_exec
    (fun (w : World) (l : Label) => l.keepsPassenger && w.departsOnce (fun _ => true) l)
    (init "peach" (3, 3) (6, 6) 0) (arrival ++ .drives "mario" Driver.Process.up :: restarted)
    (fun (w : World) => decide (w.arrivals = 1))
    (show (exec (step (fun _ _ => 1) (fun _ => true) "peach") _ _ _).any _ = true by
      decide +kernel)
  exact ⟨w, of_decide_eq_true hone, one_departure_per_ride hrun⟩

/-- The driver crashes before it saves its state, and drives to the passenger once more. -/
theorem not_one_departure_per_ride : ¬ ∀ (ls : List Label) (w : World),
    Run (step (fun _ _ => 1) (fun _ => true) "peach") (fun _ l => l.keepsPassenger = true)
      (init "peach" (3, 3) (6, 6) 0) ls w →
    w.arrivals ≤ w.accepted ∧ ∀ p mailbox, w.passenger = some (p, mailbox) →
      Passenger.travelings mailbox ≤ 1 := by
  intro hall
  obtain ⟨w, hrun, htwice⟩ := exists_run_of_exec (fun _ (l : Label) => l.keepsPassenger)
    (init "peach" (3, 3) (6, 6) 0)
    (arrival ++ restarted ++ [.drives "mario" Driver.Process.up, .drives "mario" Driver.Process.up,
      .toPassenger 0, .recv .up "", .recv .up ""])
    (fun (w : World) => decide (w.arrivals = 2) && decide (w.accepted = 1) &&
      w.passenger.any (fun (a : Passenger × List Passenger.Msg) =>
        decide (Passenger.travelings a.2 = 2)))
    (show (exec (step (fun _ _ => 1) (fun _ => true) "peach") _ _ _).any _ = true by
      decide +kernel)
  simp only [Bool.and_eq_true, decide_eq_true_eq] at htwice
  have hle := (hall _ w hrun).1
  omega

end World

end ConcuRide
