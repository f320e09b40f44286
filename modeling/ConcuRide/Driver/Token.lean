import ConcuRide.Driver.Process

set_option autoImplicit false

/-! # One message of the ride

A driver on a ride has one message of the ride in its mailbox, and one that is free has none. The
chain survives a crash: `Recovery` sends its next message again, and the saved state says which one.
-/

namespace ConcuRide.Driver

open Lib

/-- The messages of a ride that come before the passenger is picked up. -/
def Msg.isPickUp : Msg → Bool
  | .startRide | .pickUpPassenger => true
  | _ => false

/-- A driver that is not free is on the ride it accepted last. -/
structure OnRide (ride : Option RequestRide) (d : Driver) : Prop where
  free : d.isAvailable = true → d.passengerPickedUp = false
  passenger : d.isAvailable = false → d.passengerPosition.isSome = true
  accepted : d.isAvailable = false → ∃ r, ride = some r ∧
    d.idCurrentPassenger = r.idPassenger ∧ d.destination = some r.destination

/-- One message of the ride waits while the driver is on a ride, the one its state calls for. -/
def HasToken (d : Driver) (mailbox : List Msg) : Prop :=
  if d.isAvailable then rideMessages mailbox = []
  else ∃ m, rideMessages mailbox = [m] ∧ m.isPickUp = !d.passengerPickedUp

/-- A state that was saved on the given ride. -/
def SavedOn (ride : Option RequestRide) (status : Json) : Prop :=
  ∃ d : Driver, status = d.status ∧ d.OnRide ride

def Msg.isRecovery : Msg → Bool
  | .recovery _ _ => true
  | _ => false

variable {ride : Option RequestRide} {o : Oracle} {d t : Driver} {m : Msg} {effects : List Effect}
  {rest self : List Msg} {saved : List Json} {lines : List (ℕ × PassengerLine)}

theorem rideMessages_cons_aside (hm : m.isRide = false) :
    rideMessages (m :: rest) = rideMessages rest :=
  List.filter_cons_of_neg (by simp [hm])

theorem rideMessages_cons_ride (hm : m.isRide = true) :
    rideMessages (m :: rest) = m :: rideMessages rest :=
  List.filter_cons_of_pos hm

/-- Whoever handles a message of the ride is on a ride, and this was the only one. -/
theorem HasToken.spent (h : d.HasToken (m :: rest)) (hm : m.isRide = true) :
    d.isAvailable = false ∧ rideMessages rest = [] ∧ m.isPickUp = !d.passengerPickedUp := by
  unfold HasToken at h
  rw [rideMessages_cons_ride hm] at h
  cases hav : d.isAvailable with
  | true => simp [hav] at h
  | false =>
      simp only [hav, Bool.false_eq_true, if_false] at h
      obtain ⟨m', hm', hpick⟩ := h
      obtain ⟨rfl, hrest⟩ := List.cons.inj hm'
      exact ⟨rfl, hrest, hpick⟩

theorem HasToken.of_empty (hfree : d.isAvailable = true) (h : rideMessages rest = []) :
    d.HasToken rest := by
  rw [HasToken, if_pos hfree]
  exact h

theorem HasToken.of_single (hbusy : d.isAvailable = false) (h : rideMessages rest = [m])
    (hpick : m.isPickUp = !d.passengerPickedUp) : d.HasToken rest := by
  rw [HasToken, hbusy, if_neg Bool.false_ne_true]
  exact ⟨m, h, hpick⟩

/-- The token after a message that leaves the ride alone. -/
theorem HasToken.aside (h : d.HasToken (m :: rest)) (hm : m.isRide = false)
    (hself : rideMessages self = []) (hsame : d.SameRide t) : t.HasToken (rest ++ self) := by
  unfold HasToken at h ⊢
  rw [rideMessages_cons_aside hm] at h
  rw [rideMessages_append, hself, List.append_nil, hsame.isAvailable, hsame.passengerPickedUp]
  exact h

theorem OnRide.same (h : d.OnRide ride) (hsame : d.SameRide t) : t.OnRide ride where
  free := fun hav => by
    rw [hsame.passengerPickedUp]
    exact h.free (hsame.isAvailable ▸ hav)
  passenger := fun hav => hsame.passengerPosition (h.passenger (hsame.isAvailable ▸ hav))
  accepted := fun hav => by
    rw [hsame.idCurrentPassenger, hsame.destination]
    exact h.accepted (hsame.isAvailable ▸ hav)

/-- What the driver restores is on the ride that was saved. -/
theorem OnRide.restored {status : Json} (h : SavedOn ride status)
    (hrestore : d.restore status = some t) : t.OnRide ride := by
  obtain ⟨saved, rfl, hon⟩ := h
  rw [restore_status] at hrestore
  obtain rfl := Option.some.inj hrestore
  constructor
  case free => exact hon.free
  case passenger =>
    intro hav
    obtain ⟨position, hpos⟩ := Option.isSome_iff_exists.1 (hon.passenger hav)
    simp [hpos]
  case accepted =>
    intro hav
    obtain ⟨r, hride, hid, hdst⟩ := hon.accepted hav
    exact ⟨r, hride, hid, by simp [hdst]⟩

/-- **A handler keeps the ride going**: the driver stays on the ride it accepted last, every state
    it saves is on that ride, and the message of the ride it handles is followed by the next one. -/
theorem Drives.keeps (h : Drives d m t (rideMessages self) saved lines)
    (hrec : m.isRecovery = false) (hon : d.OnRide ride) (htoken : d.HasToken (m :: rest)) :
    t.OnRide (Process.rideAfter ride d m) ∧ t.HasToken (rest ++ self) ∧
      ∀ status ∈ saved, SavedOn (Process.rideAfter ride d m) status := by
  generalize hself : rideMessages self = chain at h
  -- the next message of the ride takes the place of the one that was handled
  have next : ∀ {t' : Driver} {x : Msg}, chain = [x] → m.isRide = true →
      t'.isAvailable = d.isAvailable → x.isPickUp = !t'.passengerPickedUp →
      t'.HasToken (rest ++ self) := by
    intro t' x hx hm hav hpick
    obtain ⟨hbusy, hrest, -⟩ := htoken.spent hm
    refine .of_single (hav.trans hbusy) ?_ hpick
    rw [rideMessages_append, hrest, hself, hx]
    rfl
  have moves : ∀ {position : Position}, OnRide ride { d with position := position } := fun {_} =>
    ⟨hon.free, hon.passenger, hon.accepted⟩
  have saves : ∀ {t' : Driver}, t'.OnRide ride → ∀ status ∈ [t'.status], SavedOn ride status :=
    fun ht' status hstatus => ⟨_, List.mem_singleton.1 hstatus, ht'⟩
  cases h with
  | aside hm hrequest _ _ hsame hsaved =>
      have hride : Process.rideAfter ride d m = ride := by
        cases m with
        | requestRide r => exact absurd rfl (hrequest r)
        | _ => rfl
      rw [hride]
      have ht := hon.same hsame
      exact ⟨ht, htoken.aside hm hself hsame, fun status hstatus =>
        ⟨t, hsaved status hstatus, ht⟩⟩
  | responds id addr hsame =>
      exact ⟨hon.same hsame, htoken.aside rfl hself hsame, by simp⟩
  | refuses r hbusy =>
      have hride : Process.rideAfter ride d (.requestRide r) = ride := by
        simp [Process.rideAfter, hbusy]
      rw [hride]
      exact ⟨hon, htoken.aside rfl hself (.refl d), by simp⟩
  | accepts r hfree =>
      have hride : Process.rideAfter ride d (.requestRide r) = some r := by
        simp [Process.rideAfter, hfree]
      rw [hride]
      have ht : (d.take r).OnRide (some r) :=
        ⟨nofun, fun _ => rfl, fun _ => ⟨r, rfl, rfl, rfl⟩⟩
      refine ⟨ht, ?_, fun status hstatus => ⟨_, List.mem_singleton.1 hstatus, ht⟩⟩
      have hrest : rideMessages rest = [] := by
        rw [HasToken, if_pos hfree] at htoken
        exact htoken
      refine .of_single rfl (m := .startRide) ?_ ?_
      · rw [rideMessages_append, hrest, hself]
        rfl
      · have hup : (d.take r).passengerPickedUp = false := hon.free hfree
        rw [hup]
        rfl
  | starts =>
      obtain ⟨-, -, hpick⟩ := htoken.spent rfl
      exact ⟨hon, next rfl rfl rfl hpick, by simp⟩
  | noPassenger hnone =>
      obtain ⟨hbusy, -, -⟩ := htoken.spent rfl
      have := hon.passenger hbusy
      rw [hnone] at this
      cases this
  | approaches position =>
      obtain ⟨-, -, hpick⟩ := htoken.spent rfl
      exact ⟨moves, next rfl rfl rfl hpick, by simp⟩
  | picksUp position =>
      obtain ⟨hbusy, -, -⟩ := htoken.spent rfl
      refine ⟨⟨fun hav => ?_, hon.passenger, hon.accepted⟩, next rfl rfl rfl rfl, by simp⟩
      exact absurd (hbusy.symm.trans hav) Bool.false_ne_true
  | noDestination hnone =>
      obtain ⟨hbusy, -, -⟩ := htoken.spent rfl
      obtain ⟨r, -, -, hdst⟩ := hon.accepted hbusy
      rw [hnone] at hdst
      cases hdst
  | rides position =>
      obtain ⟨-, -, hpick⟩ := htoken.spent rfl
      exact ⟨moves, next rfl rfl rfl hpick, saves hon⟩
  | arrives position =>
      obtain ⟨-, -, hpick⟩ := htoken.spent rfl
      exact ⟨moves, next rfl rfl rfl hpick, saves hon⟩
  | ends dst =>
      obtain ⟨-, hrest, -⟩ := htoken.spent rfl
      have ht : (d.free dst).OnRide ride :=
        ⟨fun _ => rfl, nofun, nofun⟩
      refine ⟨ht, .of_empty rfl ?_, saves ht⟩
      rw [rideMessages_append, hrest, hself]
      rfl
  | recoversFree | recoversBusy => cases hrec

/-- A driver sends itself the messages of its ride, and lines to send again. -/
theorem self_cases (h : d.handle o m = some (t, effects)) :
    ∀ x ∈ selfMessages effects, x.isRide = true ∨ x.isReconnect = true := by
  have resent : ∀ {d' : Driver} {line : ServerLine}, ∀ x ∈ d'.resend o line,
      x.isRide = true ∨ x.isReconnect = true := fun x hx => by
    rw [mem_resend hx]
    exact .inr rfl
  cases handle_outcome h with
  | register r | endRide dst =>
      rw [selfMessages_append, selfMessages_sendToServer]
      exact fun x hx => (List.mem_append.1 hx).elim (resent x) (by simp [selfMessages, saveState])
  | accepts r =>
      rw [selfMessages_append, selfMessages_append, selfMessages_sendToServer]
      intro x hx
      rcases List.mem_append.1 hx with hx | hx
      · exact (List.mem_append.1 hx).elim (by simp [selfMessages, saveState]) (resent x)
      · obtain rfl := List.mem_singleton.1 hx
        exact .inl rfl
  | picksUp origin =>
      rw [selfMessages_append, (passengerLine_aside _ _).1]
      simp [selfMessages, Msg.isRide]
  | recoversBusy status socket =>
      intro x hx
      obtain rfl := List.mem_singleton.1 hx
      split <;> exact .inl rfl
  | setReceiver | newConnection | refuses | startRide | noPassenger | approaches | noDestination
  | rides | arrives | responds | denies | noServer | newServer | recoversFree
  | reconnectPassenger => simp [selfMessages, saveState, Msg.isRide]

/-- What a driver sends itself is never `Recovery`. -/
theorem not_recovery_of_self (h : d.handle o m = some (t, effects)) :
    ∀ x ∈ selfMessages effects, x.isRecovery = false := fun x hx => by
  have hx := self_cases h x hx
  cases x with
  | recovery => simp [Msg.isRide, Msg.isReconnect] at hx
  | _ => rfl

/-! ## The process -/

/-- How far a driver is, by its mailbox: it is on the ride it accepted last, with the one message of
    the ride, or it has not read the state yet that was saved on that ride. -/
inductive Underway (ride : Option RequestRide) (d : Driver) : List Msg → Prop
  | riding {mailbox : List Msg} (hon : d.OnRide ride) (htoken : d.HasToken mailbox)
      (hread : ∀ m ∈ mailbox, m.isRecovery = false) : Underway ride d mailbox
  | starting {pre post : List Msg} {status : Json} {socket : String}
      (hpre : ∀ m ∈ pre, ∃ link, m = .setReceiver link) (hfree : d.isAvailable = true)
      (hpost : rideMessages post = []) (hread : ∀ m ∈ post, m.isRecovery = false)
      (hsaved : SavedOn ride status) :
      Underway ride d (pre ++ .recovery status socket :: post)

theorem Underway.append {mailbox : List Msg} (h : Underway ride d mailbox)
    (hm : m.isRide = false) (hrec : m.isRecovery = false) : Underway ride d (mailbox ++ [m]) := by
  have hquiet : rideMessages [m] = [] := rideMessages_cons_aside hm
  have hnew : ∀ x ∈ [m], x.isRecovery = false := List.forall_mem_singleton.2 hrec
  cases h with
  | riding hon htoken hl =>
      refine .riding hon ?_ (List.forall_mem_append.2 ⟨hl, hnew⟩)
      unfold HasToken at htoken ⊢
      rw [rideMessages_append, hquiet, List.append_nil]
      exact htoken
  | starting hpre hfree hpost hl hsaved =>
      rw [List.append_assoc, List.cons_append]
      refine .starting hpre hfree ?_ (List.forall_mem_append.2 ⟨hl, hnew⟩) hsaved
      rw [rideMessages_append, hpost, hquiet]
      rfl

/-- What a driver under way handles next. -/
inductive Underway.Head (ride : Option RequestRide) (d : Driver) : Msg → List Msg → Prop
  | riding {m : Msg} {rest : List Msg} (hon : d.OnRide ride) (htoken : d.HasToken (m :: rest))
      (hm : m.isRecovery = false) (hrest : ∀ x ∈ rest, x.isRecovery = false) : Head ride d m rest
  | links {link : Link} {rest : List Msg}
      (hafter : ∀ t : Driver, t.isAvailable = true → Underway ride t rest)
      (hfree : d.isAvailable = true) : Head ride d (.setReceiver link) rest
  | reads {status : Json} {socket : String} {rest : List Msg} (hfree : d.isAvailable = true)
      (hquiet : rideMessages rest = []) (hrest : ∀ x ∈ rest, x.isRecovery = false)
      (hsaved : SavedOn ride status) : Head ride d (.recovery status socket) rest

theorem Underway.head (h : Underway ride d (m :: rest)) : Underway.Head ride d m rest := by
  generalize hbox : m :: rest = mailbox at h
  cases h with
  | riding hon htoken hread =>
      subst hbox
      exact .riding hon htoken (hread m List.mem_cons_self)
        fun x hx => hread x (List.mem_cons_of_mem m hx)
  | @starting pre post status socket hpre hfree hpost hread hsaved =>
      cases pre with
      | nil =>
          obtain ⟨rfl, rfl⟩ := List.cons.inj hbox
          exact .reads hfree hpost hread hsaved
      | cons x pre =>
          obtain ⟨rfl, rfl⟩ := List.cons.inj hbox
          obtain ⟨link, rfl⟩ := hpre _ List.mem_cons_self
          exact .links (fun _ ht => .starting (fun x hx => hpre x (List.mem_cons_of_mem _ hx)) ht
            hpost hread hsaved) hfree

theorem Underway.handled (h : Underway ride d (m :: rest)) (hh : d.handle o m = some (t, effects)) :
    Underway (Process.rideAfter ride d m) t (rest ++ selfMessages effects) ∧
      ∀ status ∈ saves effects, SavedOn (Process.rideAfter ride d m) status := by
  have hlater : (∀ x ∈ rest, x.isRecovery = false) →
      ∀ x ∈ rest ++ selfMessages effects, x.isRecovery = false := fun hrest =>
    List.forall_mem_append.2 ⟨hrest, not_recovery_of_self hh⟩
  cases h.head with
  | riding hon htoken hm hrest =>
      obtain ⟨hon', htoken', hsaved⟩ := (handle_drives hh).keeps hm hon htoken
      exact ⟨.riding hon' htoken' (hlater hrest), hsaved⟩
  | @links link _ hafter hfree =>
      obtain ⟨rfl, rfl⟩ := Prod.mk.inj (Option.some.inj hh)
      have hstarting := hafter { d with serverReceiver := some link } hfree
      exact ⟨(List.append_nil rest).symm ▸ hstarting, by simp [saves]⟩
  | @reads status socket _ hfree hquiet hrest hsaved =>
      cases handle_outcome hh with
      | recoversFree _ _ ht hav =>
          refine ⟨.riding (.restored hsaved ht) (.of_empty hav ?_) (hlater hrest), by simp [saves]⟩
          rw [rideMessages_append, hquiet]
          rfl
      | recoversBusy _ _ ht hav =>
          refine ⟨.riding (.restored hsaved ht) (.of_single hav
            (m := if t.passengerPickedUp then .rideToDestination else .pickUpPassenger) ?_ ?_)
            (hlater hrest), by simp [saves]⟩
          · rw [rideMessages_append, hquiet]
            cases t.passengerPickedUp <;> rfl
          · cases t.passengerPickedUp <;> rfl

/-- A driver that has read its file is on the ride it accepted last. -/
theorem Underway.of_read {mailbox : List Msg} (h : Underway ride d mailbox)
    (hread : ∀ m ∈ mailbox, m.isRecovery = false) : d.OnRide ride ∧ d.HasToken mailbox := by
  cases h with
  | riding hon htoken => exact ⟨hon, htoken⟩
  | starting =>
      have := hread _ (List.mem_append_right _ List.mem_cons_self)
      cases this

theorem Underway.length_eq {mailbox : List Msg} (h : Underway ride d mailbox) :
    (rideMessages mailbox).length = if d.isAvailable then 0 else 1 := by
  cases h with
  | riding _ htoken =>
      unfold HasToken at htoken
      split
      · next hav => rw [hav, if_pos rfl] at htoken; rw [htoken]; rfl
      · next hav =>
          rw [if_neg hav] at htoken
          obtain ⟨m, hm, -⟩ := htoken
          rw [hm]
          rfl
  | @starting pre post status socket hpre hfree hpost =>
      have hquiet : rideMessages pre = [] := List.filter_eq_nil_iff.2 fun m hm => by
        obtain ⟨link, rfl⟩ := hpre m hm
        simp [Msg.isRide]
      rw [if_pos hfree, rideMessages_append, hquiet, rideMessages_cons_aside rfl, hpost]
      rfl

theorem Underway.onRide {mailbox : List Msg} (h : Underway ride d mailbox)
    (hbusy : d.isAvailable = false) : d.OnRide ride := by
  cases h with
  | riding hon => exact hon
  | starting _ hfree => exact absurd (hbusy.symm.trans hfree) Bool.false_ne_true

/-- A driver that panics on its ride has saved a state of the ride. -/
theorem Underway.panics {ride : Option RequestRide} (h : Underway ride d (m :: rest)) :
    ∀ status ∈ Process.savedBeforePanic d m, SavedOn ride status := by
  intro status hstatus
  cases m with
  | rideToDestination =>
      obtain rfl := List.mem_singleton.1 hstatus
      cases h.head with
      | riding hon => exact ⟨d, rfl, hon⟩
  | _ => cases hstatus

namespace Process

variable {name : String} {s s' : Process} {l : Label} {ls : List Label}

/-- The invariant: the driver is under way, and so is every state it has saved. -/
structure Sound (s : Process) : Prop where
  actor : ∀ d mailbox, s.actor = some (d, mailbox) → Underway s.ride d mailbox
  versions : ∀ v ∈ s.versions, SavedOn v.ride v.status

/-- A step of the actor: it handles the first message of its mailbox, or panics. -/
theorem recv_cases {o : Oracle} {effects : List Effect} (h : s.recv o = some (s', effects)) :
    (∃ d m rest, s.actor = some (d, m :: rest) ∧ d.handle o m = none ∧ effects = [] ∧
      s' = { s with
             actor := none
             versions := (savedBeforePanic d m).map (fun status => ⟨status, s.ride⟩)
               ++ s.versions }) ∨
    ∃ d m rest t, s.actor = some (d, m :: rest) ∧ d.handle o m = some (t, effects) ∧
      s' = { actor := some (t, rest ++ selfMessages effects)
             versions := (saves effects).map (fun status => ⟨status, rideAfter s.ride d m⟩)
               ++ s.versions
             ride := rideAfter s.ride d m } := by
  unfold recv at h
  split at h
  · cases h
  · cases h
  · next d m rest hactor =>
      split at h
      · next hh =>
          obtain ⟨rfl, rfl⟩ := Prod.mk.inj (Option.some.inj h)
          exact .inl ⟨d, m, rest, hactor, hh, rfl, rfl⟩
      · next t effects' hh =>
          obtain ⟨rfl, rfl⟩ := Prod.mk.inj (Option.some.inj h)
          exact .inr ⟨d, m, rest, t, hactor, hh, rfl⟩

theorem underway_launched (at_ : Launch) :
    Underway none (launched name at_ none).1 (launched name at_ none).2 :=
  .riding ⟨fun _ => rfl, nofun, nofun⟩ (.of_empty rfl rfl) (by simp [launched, Msg.isRecovery])

theorem underway_recovered {ride : Option RequestRide} {status : Json} (at_ : Launch)
    (hsaved : SavedOn ride status) :
    Underway ride (launched name at_ (some status)).1 (launched name at_ (some status)).2 :=
  have hpre : ∀ m ∈ [Msg.setReceiver at_.serverSender], ∃ link, m = .setReceiver link :=
    fun _ hm => ⟨_, List.mem_singleton.1 hm⟩
  .starting hpre rfl rfl (by simp [Msg.isRecovery]) hsaved

theorem sound_recv {o : Oracle} {effects : List Effect} (hs : s.Sound)
    (h : s.recv o = some (s', effects)) : s'.Sound := by
  rcases recv_cases h with ⟨d, m, rest, hactor, -, -, rfl⟩ | ⟨d, m, rest, t, hactor, hh, rfl⟩
  · refine ⟨fun d' mailbox hactor' => (by cases hactor'), fun v hv => ?_⟩
    rcases List.mem_append.1 hv with hv | hv
    · obtain ⟨status, hstatus, rfl⟩ := List.mem_map.1 hv
      exact (hs.actor d _ hactor).panics status hstatus
    · exact hs.versions v hv
  · obtain ⟨hunderway, hsaved⟩ := (hs.actor d _ hactor).handled hh
    constructor
    case actor =>
      intro d' mailbox hactor'
      obtain ⟨rfl, rfl⟩ := Prod.mk.inj (Option.some.inj hactor')
      exact hunderway
    case versions =>
      intro v hv
      rcases List.mem_append.1 hv with hv | hv
      · obtain ⟨status, hstatus, rfl⟩ := List.mem_map.1 hv
        exact hsaved status hstatus
      · exact hs.versions v hv

theorem sound_step (hs : s.Sound) (hstep : step name s l = some s') : s'.Sound := by
  cases step_cases hstep with
  | recv h => exact sound_recv hs h
  | @arrives m d mailbox hm hactor =>
      refine ⟨fun d' mailbox' hactor' => ?_, hs.versions⟩
      obtain ⟨rfl, rfl⟩ := Prod.mk.inj (Option.some.inj hactor')
      refine (hs.actor d mailbox hactor).append ?_ ?_ <;>
        cases m <;> first | rfl | cases hm
  | crash => exact ⟨nofun, hs.versions⟩
  | launch at_ =>
      refine ⟨fun d mailbox hactor => ?_, hs.versions⟩
      obtain ⟨rfl, rfl⟩ := Prod.mk.inj (Option.some.inj hactor)
      exact underway_launched at_
  | recover at_ _ hv =>
      refine ⟨fun d mailbox hactor => ?_, hs.versions⟩
      obtain ⟨rfl, rfl⟩ := Prod.mk.inj (Option.some.inj hactor)
      exact underway_recovered at_ (hs.versions _ (List.mem_of_getElem? hv))

theorem sound_init : init.Sound := ⟨nofun, nofun⟩

/-- **One message of the ride per driver.** In every run of a driver, started afresh or from any
    state it has saved, no message of a ride waits while it is free, and exactly one while it is
    not. A driver that is not free knows where its passenger and the destination are, is on the ride
    it accepted last, and whatever it handles does not change that while the ride lasts. -/
theorem one_ride_message (h : Run (step name) (fun _ _ => True) init ls s) {d : Driver}
    {mailbox : List Msg} (hactor : s.actor = some (d, mailbox)) :
    (rideMessages mailbox).length = (if d.isAvailable then 0 else 1) ∧
    (d.isAvailable = false → d.passengerPosition.isSome = true ∧ d.destination.isSome = true ∧
      ∃ r, s.ride = some r ∧ d.idCurrentPassenger = r.idPassenger ∧
        d.destination = some r.destination) ∧
    (∀ o s' effects d' mailbox', s.recv o = some (s', effects) →
      s'.actor = some (d', mailbox') → d.isAvailable = false → d'.isAvailable = false →
      d'.idCurrentPassenger = d.idCurrentPassenger ∧ d'.destination = d.destination) := by
  have hs : s.Sound := h.invariant (fun _ _ _ hs _ hst => sound_step hs hst) sound_init
  have hunderway := hs.actor d mailbox hactor
  refine ⟨hunderway.length_eq, fun hbusy => ?_, ?_⟩
  · have hon := hunderway.onRide hbusy
    obtain ⟨r, hride, hid, hdst⟩ := hon.accepted hbusy
    exact ⟨hon.passenger hbusy, by rw [hdst]; rfl, r, hride, hid, hdst⟩
  · intro o s' effects d' mailbox' hrecv hactor' hbusy hbusy'
    have hs' := sound_recv hs hrecv
    obtain ⟨r, hride, hid, hdst⟩ := (hunderway.onRide hbusy).accepted hbusy
    obtain ⟨r', hride', hid', hdst'⟩ :=
      ((hs'.actor d' mailbox' hactor').onRide hbusy').accepted hbusy'
    -- a driver on a ride accepts no other
    have hsame : s'.ride = s.ride := by
      rcases recv_cases hrecv with ⟨d₀, m, rest, -, -, -, rfl⟩ | ⟨d₀, m, rest, t, hactor₀, -, rfl⟩
      · rfl
      · rw [hactor] at hactor₀
        obtain ⟨rfl, -⟩ := Prod.mk.inj (Option.some.inj hactor₀)
        cases m with
        | requestRide r => simp [rideAfter, hbusy]
        | _ => rfl
    obtain rfl := Option.some.inj ((hride'.symm.trans hsame).trans hride)
    exact ⟨hid'.trans hid.symm, hdst'.trans hdst.symm⟩

/-- The connection to the leader is up. -/
def up : Oracle := { connected := true, server := none }

/-- Driver "mario" takes a ride, crashes on the way to the passenger, and is started again with the
    state it saved when it accepted. -/
def interruptedRide : List Label :=
  [.launch ⟨(5, 3), "127.0.0.1:40000", ⟨⟨1, 1⟩, 0⟩⟩, .recv up, .recv up,
    .arrives (.requestRide ⟨7, (2, 2), (8, 8), 1⟩), .recv up, .recv up, .recv up, .crash,
    .recover 0 ⟨(5, 3), "127.0.0.1:40000", ⟨⟨1, 1⟩, 1⟩⟩, .recv up, .recv up, .recv up]

theorem one_ride_message_interruptedRide : ∃ (s : Process) (d : Driver) (mailbox : List Msg),
    s.actor = some (d, mailbox) ∧ d.isAvailable = false ∧ (rideMessages mailbox).length = 1 := by
  obtain ⟨s, hrun, hbusy⟩ := exists_run_of_exec (fun _ _ => true) init interruptedRide
    (fun (s : Process) => s.actor.any fun (p : Driver × List Msg) => !p.1.isAvailable)
    (show (exec (step "mario") _ _ _).any _ = true by decide +kernel)
  obtain ⟨⟨d, mailbox⟩, hactor, hav⟩ := Option.any_eq_true _ _ |>.1 hbusy
  simp only [Bool.not_eq_true'] at hav
  have hone := (one_ride_message (hrun.mono fun _ _ _ => trivial) hactor).1
  rw [hav] at hone
  exact ⟨s, d, mailbox, hactor, hav, hone⟩

end Process

end ConcuRide.Driver
