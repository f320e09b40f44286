import ConcuRide.Rides.Departures
import ConcuRide.Rides.Hunt

set_option autoImplicit false

/-! # Handing the token on

What `Rides/Balance` and `Rides/Departures` bound from above, counted exactly for a passenger that
keeps its leader and for drivers that keep running: a handler never loses the token. A message of the
search is followed by the next one or ends the search, a request is accepted or refused, and a ride
that is approached ends with an arrival. -/

namespace ConcuRide

open Lib

/-! ## The passenger -/

namespace Passenger

/-- The messages of a passenger whose driver has arrived. -/
def Msg.isWay (m : Msg) : Bool := m.isTraveling || m.isReport

/-- The messages of a passenger that keeps its leader, and whose driver keeps running. -/
def Msg.isPlain : Msg → Bool
  | .recover _ | .reconnect _ | .reconnectDriver _ | .recoverResponse _ => false
  | _ => true

/-- The search ends here: no driver of the list can be selected. -/
def givesUp (distance : Position → Position → ℕ) (p : Passenger) : Msg → Bool
  | .drivers driversInfo =>
    (selectDriver distance { p with driversInfo := driversInfo } 5).2.isNone
  | _ => false

/-- **A handler hands the token on**: a message of the search is followed by another one, a question
    to the leader, the gateway or a driver, or the end of the search; a message of the way by
    another one or the payment. -/
structure HandsOn (distance : Position → Position → ℕ) (o : Oracle) (p : Passenger) (m : Msg)
    (t : Passenger) (effects : List Effect) : Prop where
  search : (selfMessages effects).countP Msg.isToken + asks effects + authorizations effects +
    (driverLines effects).countP (fun l => l.2.isRequest) + (p.givesUp distance m).toNat =
      m.isToken.toNat
  plain : ∀ x ∈ selfMessages effects, x.isPlain = true
  requests : ∀ l ∈ driverLines effects, l.2.isRequest = true ∧ l.1 ∈ p.connections
  connections : ∀ c ∈ t.connections, c ∈ p.connections ∨ o.driver = some c.number
  gaveUp : p.givesUp distance m = true → Exhausted distance t t.driversInfo
  list : m.isToken = false → t.driversInfo = p.driversInfo
  position : m.isWay = false → t.info.position = p.info.position
  destination : t.info.destination = p.info.destination
  arrived : payments effects ≠ 0 → t.info.position = t.info.destination

variable {distance : Position → Position → ℕ} {o : Oracle} {p t : Passenger} {m : Msg}
  {effects : List Effect}

theorem sendToServer_up (hup : (p.serverReceiver.isSome && o.connected) = true)
    (line : ServerLine) : p.sendToServer o.connected line = [.server line] := by
  rw [sendToServer, if_pos hup]

theorem givesUp_drivers {driversInfo others : List DriverInfo} {driver : Option DriverInfo}
    (hselect : selectDriver distance { p with driversInfo := driversInfo } 5
      = ({ p with driversInfo := others }, driver)) :
    p.givesUp distance (.drivers driversInfo) = driver.isNone := by
  rw [givesUp, hselect]

theorem mem_setConnection {c c' : Connection} (h : c' ∈ (p.setConnection c).connections) :
    c' ∈ p.connections ∨ c' = c := by
  unfold setConnection at h
  split at h
  · exact .inr (List.mem_singleton.1 h)
  · exact List.mem_or_eq_of_mem_set h

theorem handle_handsOn (h : p.handle distance o m = some (t, effects)) (hm : m.isPlain = true)
    (hup : (∀ k, m ≠ .setReceiver k) → (p.serverReceiver.isSome && o.connected) = true) :
    HandsOn distance o p m t effects := by
  cases handle_outcome h with
  | getDrivers | login =>
      rw [sendToServer_up (hup (by simp))]
      exact ⟨rfl, by simp [selfMessages], by simp [driverLines], fun c hc => .inl hc,
        by simp [givesUp], fun _ => rfl, fun _ => rfl, rfl, by simp [payments, Effect.isPayment]⟩
  | nobody driversInfo others hselect =>
      have hgives := givesUp_drivers hselect
      refine ⟨by rw [hgives]; rfl, by simp [selfMessages, saveState], by simp [driverLines, saveState],
        fun c hc => .inl hc, fun _ => ?_, fun hm => (by cases hm), fun _ => rfl, rfl,
        by simp [payments, saveState, Effect.isPayment]⟩
      obtain ⟨heq, hout⟩ := nobody_of_selectDriver hselect
      have hsame : others = driversInfo := congrArg Passenger.driversInfo heq
      exact fun e he => hout e (hsame ▸ he)
  | unreachable driversInfo others driver hselect =>
      have hgives := givesUp_drivers hselect
      exact ⟨by rw [hgives]; rfl, by simp [selfMessages, saveState, Msg.isPlain],
        by simp [driverLines, saveState], fun c hc => .inl hc, by rw [hgives]; simp,
        fun hm => (by cases hm), fun _ => rfl, rfl, by simp [payments, saveState, Effect.isPayment]⟩
  | dials driversInfo others driver number hselect hdriver =>
      have hgives := givesUp_drivers hselect
      refine ⟨by rw [hgives]; rfl, by simp [selfMessages, saveState],
        by simp [driverLines, saveState], fun c hc => ?_, by rw [hgives]; simp,
        fun hm => (by cases hm), fun _ => ?_, ?_, by simp [payments, saveState, Effect.isPayment]⟩
      · rcases mem_setConnection hc with hold | rfl
        · exact .inl hold
        · exact .inr hdriver
      all_goals
        unfold setConnection
        split <;> rfl
  | recoversPaid | recoversDenied | recoversRide | recoversAlone | noServer | newServer | noDriver
  | newDriver | rideEnded | rideGoesOn | rideWaits => cases hm
  | requestDrive c hc =>
      exact ⟨rfl, by simp [selfMessages],
        by simpa [driverLines, DriverLine.isRequest] using List.mem_of_getElem? hc,
        fun c hc => .inl hc, by simp [givesUp], fun _ => rfl, fun _ => rfl, rfl,
        by simp [payments, Effect.isPayment]⟩
  | arrives position hthere =>
      exact ⟨rfl, by simp [selfMessages, saveState, finishRide],
        by simp [driverLines, saveState, finishRide], fun c hc => .inl hc, by simp [givesUp],
        fun _ => rfl, fun hm => (by cases hm), rfl, fun _ => hthere⟩
  | travels =>
      exact ⟨rfl, by simp [selfMessages, saveState, Msg.isPlain], by simp [driverLines, saveState],
        fun c hc => .inl hc, by simp [givesUp], fun _ => rfl, fun hm => (by cases hm), rfl,
        by simp [payments, saveState, Effect.isPayment]⟩
  | setReceiver | driverArrived | completeLogin | rideAccepted | keepLooking | paymentAuthorized
  | paymentDeny =>
      exact ⟨rfl, by simp [selfMessages, saveState, Msg.isPlain], by simp [driverLines, saveState],
        fun c hc => .inl hc, by simp [givesUp], fun _ => rfl, fun _ => rfl, rfl,
        by simp [payments, saveState, Effect.isPayment]⟩

/-- A message of the way is followed by another one, or by the payment. -/
theorem handle_way (h : p.handle distance o m = some (t, effects)) :
    (selfMessages effects).countP Msg.isWay + payments effects = m.isWay.toNat := by
  have hreport : ∀ x ∈ selfMessages effects, x.isReport = false := fun x hx =>
    (isSelf_quiet ((handle_keeps h).messages x hx)).2.2
  have hcount : (selfMessages effects).countP Msg.isWay = travelings (selfMessages effects) :=
    List.countP_congr fun x hx => by simp [Msg.isWay, hreport x hx]
  have hadvances : travelings (selfMessages effects) + payments effects
      = if m.isWay then 1 else 0 := handle_advances h
  rw [hcount, hadvances]
  cases m.isWay <;> rfl

end Passenger

/-! ## The drivers -/

namespace Driver

/-- The messages of a driver that keeps running, and of passengers that keep their drivers. -/
def Msg.isPlain (own : ℕ → Bool) : Msg → Bool
  | .recovery _ _ | .reconnectPassenger _ _ => false
  | .passengerRecover _ addr => !own addr
  | _ => true

/-- The rides a passenger with the `own` connections is granted. -/
def acceptances (own : ℕ → Bool) (lines : List (ℕ × PassengerLine)) : ℕ :=
  (lines.filter fun l => own l.1).countP fun l => l.2.isOk

/-- A driver on a ride calls the passenger of the ride, and nobody else. -/
def CallsRider (own : ℕ → Bool) (d : Driver) (ride : Option RequestRide) : Prop :=
  d.isAvailable = false →
    ∃ addr, d.currentPassengerConnection = some addr ∧ own addr = isOwn own ride

namespace Process

/-- The driver is about to take somebody else for its passenger: it is on a ride of the passenger
    with the `own` connections, and the one that calls goes by the same id. -/
def misled (own : ℕ → Bool) (s : Process) : Bool :=
  match s.actor with
  | some (d, .passengerRecover id _ :: _) =>
    !d.isAvailable && isOwn own s.ride && decide (d.idCurrentPassenger = id)
  | _ => false

/-- A driver that goes on undisturbed. -/
structure Calm (own : ℕ → Bool) (s : Process) : Prop where
  sound : s.Sound
  plain : ∀ m ∈ s.mailbox, m.isPlain own = true
  calls : ∀ d mailbox, s.actor = some (d, mailbox) → d.CallsRider own s.ride

/-- The requests of the passenger that wait in the mailbox. -/
def requests (own : ℕ → Bool) (s : Process) : ℕ := s.mailbox.countP (Msg.isRequestOf own)

end Process

variable {own : ℕ → Bool} {d t : Driver} {o : Oracle} {m : Msg} {ride : Option RequestRide}
  {chain rest : List Msg} {saved : List Json} {lines : List (ℕ × PassengerLine)}
  {effects : List Effect}

theorem isRecovery_of_isPlain (hm : m.isPlain own = true) : m.isRecovery = false := by
  cases m with
  | recovery => cases hm
  | _ => rfl

theorem isRecoverOf_of_isPlain (hm : m.isPlain own = true) : m.isRecoverOf own = false := by
  cases m with
  | passengerRecover id addr => exact (Bool.not_eq_true' _).mp hm
  | _ => rfl

theorem acceptances_singleton (addr : ℕ) (line : PassengerLine) :
    acceptances own [(addr, line)] = (own addr && line.isOk).toNat := by
  cases hown : own addr <;> cases hok : line.isOk <;> simp [acceptances, hown, hok]

theorem arrivals_singleton (addr : ℕ) (line : PassengerLine) :
    arrivals own [(addr, line)] = (own addr && line.isArrived).toNat := by
  cases hown : own addr <;> cases harr : line.isArrived <;> simp [arrivals, hown, harr]

/-- **A driver answers every request**: it accepts or refuses. -/
theorem Drives.answers (h : Drives d m t chain saved lines) :
    acceptances own lines + refusals own lines = (m.isRequestOf own).toNat := by
  cases h with
  | @aside m _ _ _ hrequest =>
      cases m with
      | requestRide r => exact absurd rfl (hrequest r)
      | _ => rfl
  | responds | accepts | refuses =>
      simp [acceptances_singleton, refusals_singleton, PassengerLine.isOk, PassengerLine.isNo,
        Msg.isRequestOf]
  | picksUp =>
      cases d.currentPassengerConnection with
      | none => rfl
      | some addr =>
          simp [acceptances_singleton, refusals_singleton, PassengerLine.isOk, PassengerLine.isNo,
            Msg.isRequestOf]
  | _ => rfl

/-- **A driver hands the token on**: a request becomes a refusal or a ride, and a ride that is
    approached an arrival. -/
theorem Drives.handsOn (h : Drives d m t chain saved lines) (hrec : m.isRecovery = false)
    (hon : d.OnRide ride) (htoken : d.HasToken (m :: rest)) (hcalls : d.CallsRider own ride) :
    (t.approaching own (Process.rideAfter ride d m)).toNat + refusals own lines +
      arrivals own lines = (m.isRequestOf own).toNat + (d.approaching own ride).toNat := by
  cases h with
  | @aside m _ _ _ hrequest _ _ hsame =>
      have hride : Process.rideAfter ride d m = ride := by
        cases m with
        | requestRide r => exact absurd rfl (hrequest r)
        | _ => rfl
      have hnone : m.isRequestOf own = false := by
        cases m with
        | requestRide r => exact absurd rfl (hrequest r)
        | _ => rfl
      rw [hride, approaching_same hsame, hnone]
      simp [refusals, arrivals]
  | responds id addr hsame =>
      rw [refusals_other rfl, arrivals_other rfl]
      show (t.approaching own ride).toNat + 0 + 0 = 0 + (d.approaching own ride).toNat
      rw [approaching_same hsame]
      omega
  | refuses r hbusy =>
      have hride : Process.rideAfter ride d (.requestRide r) = ride := by
        simp [Process.rideAfter, hbusy]
      rw [hride, refusals_singleton, arrivals_other rfl]
      simp [PassengerLine.isNo, Msg.isRequestOf, Nat.add_comm]
  | accepts r hfree =>
      have hride : Process.rideAfter ride d (.requestRide r) = some r := by
        simp [Process.rideAfter, hfree]
      have hnew : (d.take r).approaching own (some r) = own r.addr := by
        simp [approaching, take, hon.free hfree, isOwn]
      have hold : d.approaching own ride = false := by simp [approaching, hfree]
      rw [hride, hnew, hold, refusals_other rfl, arrivals_other rfl]
      rfl
  | picksUp position =>
      obtain ⟨hbusy, -, hpick⟩ := htoken.spent rfl
      obtain ⟨addr, haddr, hown⟩ := hcalls hbusy
      have hup : d.passengerPickedUp = false := by simpa [Msg.isPickUp] using hpick.symm
      have hgone : Driver.approaching own
          { d with position := position, passengerPickedUp := true } ride = false := by
        simp [approaching]
      have hold : d.approaching own ride = own addr := by simp [approaching, hbusy, hup, hown]
      show (Driver.approaching own _ ride).toNat + _ + _ = 0 + _
      rw [hgone, hold, haddr]
      simp [refusals_singleton, arrivals_singleton, PassengerLine.isNo, PassengerLine.isArrived]
  | ends dst =>
      obtain ⟨-, -, hpick⟩ := htoken.spent rfl
      have hold : d.approaching own ride = false := by
        have hup : d.passengerPickedUp = true := by simpa [Msg.isPickUp] using hpick.symm
        simp [approaching, hup]
      have hgone : (d.free dst).approaching own ride = false := by simp [approaching, free]
      show ((d.free dst).approaching own ride).toNat + 0 + 0 = 0 + _
      rw [hgone, hold]
      rfl
  | starts | noPassenger | approaches | noDestination | rides | arrives =>
      exact (Nat.zero_add _).symm
  | recoversFree | recoversBusy => cases hrec

theorem handle_callsRider (h : d.handle o m = some (t, effects)) (hm : m.isPlain own = true)
    (hcalls : d.CallsRider own ride)
    (hknown : ∀ id addr, m = .passengerRecover id addr → d.isAvailable = false →
      isOwn own ride = true → d.idCurrentPassenger ≠ id) :
    t.CallsRider own (Process.rideAfter ride d m) := by
  cases handle_outcome h with
  | accepts r hfree ht =>
      have hride : Process.rideAfter ride d (.requestRide r) = some r := by
        simp [Process.rideAfter, hfree]
      subst ht
      rw [hride]
      exact fun _ => ⟨r.addr, rfl, rfl⟩
  | refuses r hbusy =>
      have hride : Process.rideAfter ride d (.requestRide r) = ride := by
        simp [Process.rideAfter, hbusy]
      rw [hride]
      exact hcalls
  | responds id addr hid =>
      intro hbusy
      have hother : own addr = false := (Bool.not_eq_true' _).mp hm
      have hride : isOwn own ride = false := by
        cases hown : isOwn own ride with
        | false => rfl
        | true => exact absurd hid (hknown id addr rfl hbusy hown)
      exact ⟨addr, rfl, hother.trans hride.symm⟩
  | endRide dst ht =>
      subst ht
      exact fun hbusy => by cases hbusy
  | recoversFree | recoversBusy | reconnectPassenger => cases hm
  | _ => exact hcalls

/-- A driver sends itself nothing that disturbs it. -/
theorem plain_of_self (h : d.handle o m = some (t, effects)) :
    ∀ x ∈ selfMessages effects, x.isPlain own = true := fun x hx => by
  have hx := self_cases h x hx
  cases x with
  | recovery | passengerRecover | reconnectPassenger => simp [Msg.isRide, Msg.isReconnect] at hx
  | _ => rfl

namespace Process

variable {s s' : Process} {name : String} {at_ : Launch}

theorem departures_running {mailbox : List Msg} (hactor : s.actor = some (d, mailbox))
    (hread : ∀ m ∈ mailbox, m.isRecovery = false) :
    s.departures own = mailbox.countP (Msg.isRequestOf own) + (d.approaching own s.ride).toNat := by
  rw [departures, approaching_running hactor hread, Process.mailbox, hactor]
  rfl

/-- What a running driver makes of the messages it handles. -/
structure Answers (own : ℕ → Bool) (s s' : Process) (effects : List Effect) : Prop where
  calm : s'.Calm own
  requests : s'.requests own + acceptances own (passengerLines effects) +
    refusals own (passengerLines effects) = s.requests own
  departures : s'.departures own + refusals own (passengerLines effects) +
    arrivals own (passengerLines effects) = s.departures own
  told : ∀ l ∈ (passengerLines effects).filter (fun l => own l.1), l.2.isResponse = false

theorem Calm.recv (hs : s.Calm own) (hok : s.misled own = false)
    (h : s.recv o = some (s', effects)) (hruns : s'.actor.isSome = true) :
    Answers own s s' effects := by
  rcases recv_cases h with ⟨d, m, rest, -, -, -, rfl⟩ | ⟨d, m, rest, t, hactor, hh, hs'⟩
  · cases hruns
  · have hbox : s.mailbox = m :: rest := by simp [mailbox, hactor]
    have hplain : ∀ x ∈ m :: rest, x.isPlain own = true := fun x hx => hs.plain x (hbox ▸ hx)
    have hm := hplain m List.mem_cons_self
    have hread : ∀ x ∈ m :: rest, x.isRecovery = false := fun x hx =>
      isRecovery_of_isPlain (hplain x hx)
    obtain ⟨hon, htoken⟩ := (hs.sound.actor d _ hactor).of_read hread
    have hcalls := hs.calls d _ hactor
    have hplain' : ∀ x ∈ rest ++ selfMessages effects, x.isPlain own = true :=
      List.forall_mem_append.2
        ⟨fun x hx => hplain x (List.mem_cons_of_mem m hx), plain_of_self hh⟩
    have hactor' : s'.actor = some (t, rest ++ selfMessages effects) := by rw [hs']
    have hride' : s'.ride = rideAfter s.ride d m := by rw [hs']
    have hbox' : s'.mailbox = rest ++ selfMessages effects := by simp [mailbox, hactor']
    have hcount : (rest ++ selfMessages effects).countP (Msg.isRequestOf own)
        = rest.countP (Msg.isRequestOf own) := by
      rw [List.countP_append, requests_self hh, Nat.add_zero]
    have hcons : (m :: rest).countP (Msg.isRequestOf own)
        = rest.countP (Msg.isRequestOf own) + (m.isRequestOf own).toNat := countP_cons_toNat ..
    have hanswers := @Drives.answers own _ _ _ _ _ _ (handle_drives hh)
    have hhands := (handle_drives hh).handsOn (hread m List.mem_cons_self) hon htoken hcalls
    constructor
    case calm =>
      refine ⟨sound_recv hs.sound h, hbox' ▸ hplain', fun d' mailbox hactor'' => ?_⟩
      obtain ⟨rfl, rfl⟩ := Prod.mk.inj (Option.some.inj (hactor'.symm.trans hactor''))
      rw [hride']
      refine handle_callsRider hh hm hcalls ?_
      rintro id addr rfl hbusy hown rfl
      simp [misled, hactor, hbusy, hown] at hok
    case requests =>
      rw [requests, requests, hbox, hbox', hcount, hcons]
      omega
    case departures =>
      rw [departures_running hactor hread,
        departures_running hactor' fun x hx => isRecovery_of_isPlain (hplain' x hx), hride', hcount,
        hcons]
      omega
    case told => exact (handle_drives hh).responses (isRecoverOf_of_isPlain hm)

/-- A message that does not disturb the driver arrives. -/
theorem Calm.enqueue (hs : s.Calm own) (hm : m.isPlain own = true) (harrives : m.mayArrive = true)
    (h : s.enqueue m = some s') : s'.Calm own := by
  have hsound := World.sound_enqueueDriver hs.sound harrives h
  obtain ⟨⟨d, mailbox⟩, hactor, rfl⟩ := Option.map_eq_some_iff.1 h
  refine ⟨hsound, fun x hx => ?_, fun d' mailbox' hactor' => ?_⟩
  · rcases List.mem_append.1 hx with hx | hx
    · exact hs.plain x (by rw [Process.mailbox, hactor]; exact hx)
    · exact List.mem_singleton.1 hx ▸ hm
  · obtain ⟨rfl, rfl⟩ := Prod.mk.inj (Option.some.inj hactor')
    exact hs.calls d mailbox hactor

theorem requests_enqueue (h : s.enqueue m = some s') :
    s'.requests own = s.requests own + (m.isRequestOf own).toNat := by
  obtain ⟨⟨d, mailbox⟩, hactor, rfl⟩ := Option.map_eq_some_iff.1 h
  simp only [requests, Process.mailbox, hactor, Option.elim_some, List.countP_append,
    List.countP_singleton]
  cases m.isRequestOf own <;> rfl

/-- A driver that is started for the first time. -/
theorem calm_launch (h : init.step name (.launch at_) = some s') :
    s'.Calm own ∧ s'.requests own = 0 ∧ s'.departures own = 0 := by
  have hsound := sound_step sound_init h
  cases step_cases h
  refine ⟨⟨hsound, by simp [mailbox, launched, Msg.isPlain], fun d mailbox hactor => ?_⟩, rfl, rfl⟩
  obtain ⟨rfl, rfl⟩ := Prod.mk.inj (Option.some.inj hactor)
  exact fun hbusy => by cases hbusy

theorem calm_init : init.Calm own :=
  ⟨sound_init, fun m hm => (by cases hm), fun d mailbox hactor => by cases hactor⟩

/-- A driver at rest is free. -/
theorem Calm.free_of_rest (hs : s.Calm own) (hactor : s.actor = some (d, [])) :
    d.isAvailable = true := by
  obtain ⟨-, htoken⟩ := (hs.sound.actor d _ hactor).of_read (by simp)
  cases hav : d.isAvailable with
  | true => rfl
  | false =>
      rw [HasToken, hav, if_neg Bool.false_ne_true] at htoken
      obtain ⟨m, hm, -⟩ := htoken
      cases hm

end Process

end Driver

end ConcuRide
