import ConcuRide.Driver.Saved
import ConcuRide.Rides.Walk

set_option autoImplicit false

/-! # What a driver reports of a ride

A driver tells a passenger that asks for its ride that the ride has ended whenever it stands at the
destination, also while it is still on its way to the passenger. The rides a driver accepts are
numbered here, so that "the passenger of this ride has been picked up" can be said. -/

namespace ConcuRide.Driver

open Lib

/-- The driver accepts a ride when it handles `m`. -/
def accepts (d : Driver) : Msg → Bool
  | .requestRide _ => d.isAvailable
  | _ => false

/-- The driver reaches its passenger when it handles `m`. -/
def picksUp (d : Driver) : Msg → Bool
  | .pickUpPassenger =>
    d.pickUpPassenger.any fun r => decide (some r.1.position = d.passengerPosition)
  | _ => false

/-- A driver process, the number of rides it has accepted, the number of the ride it is on (or was
    on last) and those of the rides its saved states belong to, and the rides whose passenger it has
    picked up. -/
structure Shift where
  process : Process
  accepted : ℕ
  number : ℕ
  saved : List ℕ
  pickedUp : List ℕ

namespace Shift

def init : Shift := { process := .init, accepted := 0, number := 0, saved := [], pickedUp := [] }

/-- The actor handles the first message of its mailbox, and it is one that `p` holds of. -/
def handles (t : Shift) (p : Driver → Msg → Bool) : Process.Label → Bool
  | .recv _ =>
    match t.process.actor with
    | some (d, m :: _) => p d m
    | _ => false
  | _ => false

/-- The ride the driver is on after a step. -/
def numberAfter (t : Shift) : Process.Label → ℕ
  | .recv o => if t.handles accepts (.recv o) then t.accepted + 1 else t.number
  | .launch _ => 0
  | .recover i _ => t.saved.getD i 0
  | _ => t.number

/-- The process after a step, and what is remembered of its rides. -/
def step (name : String) (t : Shift) (l : Process.Label) : Option Shift :=
  (t.process.step name l).map fun process =>
    { process := process
      accepted := if t.handles accepts l then t.accepted + 1 else t.accepted
      number := t.numberAfter l
      saved := List.replicate (process.versions.length - t.process.versions.length)
        (t.numberAfter l) ++ t.saved
      pickedUp := if t.handles picksUp l then t.number :: t.pickedUp else t.pickedUp }

end Shift

/-! ## The way to the passenger -/

/-- The way to the passenger that begins when the driver handles `m` does not come by the
    destination. -/
def CleanPickUp (d : Driver) : Msg → Prop
  | .requestRide r => d.isAvailable = true →
    ¬OnTheWay (movePosition r.origin) r.origin d.position r.destination
  | .reconnectPassenger _ p => d.isAvailable = false → d.passengerPickedUp = false →
    ∀ destination, d.destination = some destination →
      ¬OnTheWay (movePosition p) p p destination
  | _ => True

/-- A driver on a ride has picked up the passenger, or has a way to the passenger before it that
    does not come by the destination. -/
structure Truthful (pickedUp : List ℕ) (number : ℕ) (d : Driver) : Prop where
  picked : d.isAvailable = false → d.passengerPickedUp = true → number ∈ pickedUp
  way : d.isAvailable = false → d.passengerPickedUp = false → ∃ origin destination,
    d.passengerPosition = some origin ∧ d.destination = some destination ∧
      ¬OnTheWay (movePosition origin) origin d.position destination

/-- A state that was saved by such a driver. -/
def SavedTruthful (pickedUp : List ℕ) (number : ℕ) (status : Json) : Prop :=
  ∃ d : Driver, status = d.status ∧ d.Truthful pickedUp number

variable {pickedUp : List ℕ} {number accepted : ℕ} {ride : Option RequestRide} {o : Oracle}
  {d t : Driver} {m : Msg} {effects : List Effect} {rest : List Msg}

theorem Truthful.of_free (hfree : d.isAvailable = true) : d.Truthful pickedUp number where
  picked := fun hbusy => absurd (hbusy.symm.trans hfree) Bool.false_ne_true
  way := fun hbusy => absurd (hbusy.symm.trans hfree) Bool.false_ne_true

theorem Truthful.mono {more : List ℕ} (h : d.Truthful pickedUp number)
    (hmore : ∀ n ∈ pickedUp, n ∈ more) : d.Truthful more number where
  picked := fun hbusy hup => hmore _ (h.picked hbusy hup)
  way := h.way

theorem SavedTruthful.mono {more : List ℕ} {status : Json} (h : SavedTruthful pickedUp number status)
    (hmore : ∀ n ∈ pickedUp, n ∈ more) : SavedTruthful more number status := by
  obtain ⟨d, hd, ht⟩ := h
  exact ⟨d, hd, ht.mono hmore⟩

/-- A driver that knows the same of its ride is at the same point of it. -/
theorem Truthful.same (h : d.Truthful pickedUp number) (hav : t.isAvailable = d.isAvailable)
    (hup : t.passengerPickedUp = d.passengerPickedUp) (hpos : t.position = d.position)
    (hpass : t.passengerPosition = d.passengerPosition) (hdst : t.destination = d.destination) :
    t.Truthful pickedUp number where
  picked := by
    rw [hav, hup]
    exact h.picked
  way := by
    rw [hav, hup, hpos, hpass, hdst]
    exact h.way

/-- What a driver restores is what was saved. -/
theorem SavedTruthful.restored {status : Json} (h : SavedTruthful pickedUp number status)
    (hrestore : d.restore status = some t) : t.Truthful pickedUp number := by
  obtain ⟨saved, rfl, htrue⟩ := h
  rw [restore_status] at hrestore
  obtain rfl := Option.some.inj hrestore
  constructor
  case picked => exact htrue.picked
  case way =>
    intro hbusy hup
    obtain ⟨origin, destination, hpass, hdst, hway⟩ := htrue.way hbusy hup
    exact ⟨origin, destination, by simp [hpass], by simp [hdst], hway⟩

/-- A message that neither `main` nor a crash has anything to do with is handled by a driver that
    has read its file. -/
theorem Underway.of_head (h : Underway ride d (m :: rest)) (hset : ∀ link, m ≠ .setReceiver link)
    (hrec : m.isRecovery = false) : d.OnRide ride ∧ d.HasToken (m :: rest) := by
  cases h.head with
  | riding hon htoken => exact ⟨hon, htoken⟩
  | @links link => exact absurd rfl (hset link)
  | reads => cases hrec

/-- Nothing but `SetReceiver` waits before a `Recovery`. -/
theorem Underway.before_recovery {status : Json} {socket : String}
    (h : Underway ride d (m :: rest)) (hmem : .recovery status socket ∈ rest) :
    ∃ link, m = .setReceiver link := by
  cases h.head with
  | riding _ _ _ hrest => cases hrest _ hmem
  | @links link => exact ⟨link, rfl⟩
  | reads _ _ hrest => cases hrest _ hmem

/-- A driver on its way to the passenger moves on, and picks the passenger up once it is there. -/
theorem picksUp_eq {origin position : Position} (hpass : d.passengerPosition = some origin)
    (hh : d.handle o .pickUpPassenger = some (t, effects)) (ht : t.position = position) :
    d.picksUp .pickUpPassenger = decide (position = origin) := by
  rw [picksUp, show d.pickUpPassenger = some _ from hh, Option.any_some, hpass, ht]
  exact decide_eq_decide.2 Option.some_inj

/-- **A driver stays truthful** when it handles a message, as long as the way to the passenger that
    begins with it does not come by the destination. -/
theorem Truthful.handled (h : d.Truthful pickedUp number) (hunder : Underway ride d (m :: rest))
    (hclean : d.CleanPickUp m)
    (hsaved : ∀ status socket, m = .recovery status socket → SavedTruthful pickedUp number status)
    (hh : d.handle o m = some (t, effects)) :
    t.Truthful (if d.picksUp m then number :: pickedUp else pickedUp)
      (if d.accepts m then accepted + 1 else number) := by
  cases handle_outcome hh with
  | setReceiver | register | newConnection | startRide | responds | denies | noServer
  | newServer => exact h.same rfl rfl rfl rfl rfl
  | recoversFree status socket ht | recoversBusy status socket ht =>
      exact (hsaved status socket rfl).restored ht
  | endRide dst ht =>
      subst ht
      exact .of_free rfl
  | reconnectPassenger addr p =>
      refine ⟨h.picked, fun hbusy hup => ?_⟩
      obtain ⟨-, destination, -, hdst, -⟩ := h.way hbusy hup
      exact ⟨p, destination, rfl, hdst, hclean hbusy hup destination hdst⟩
  | refuses r hbusy => simpa only [accepts, picksUp, hbusy, Bool.false_eq_true, if_false] using h
  | accepts r hfree ht =>
      subst ht
      have hdown : d.passengerPickedUp = false := (hunder.of_head (by simp) rfl).1.free hfree
      constructor
      · intro _ hup
        exact absurd (hdown.symm.trans hup) Bool.false_ne_true
      · intro _ _
        exact ⟨r.origin, r.destination, rfl, rfl, hclean hfree⟩
  | noPassenger hnone =>
      obtain ⟨hbusy, -, hpick⟩ := (hunder.of_head (by simp) rfl).2.spent rfl
      obtain ⟨origin, -, hpass, -⟩ := h.way hbusy (by simpa [Msg.isPickUp] using hpick)
      exact absurd (hnone.symm.trans hpass) (by simp)
  | approaches origin position hpass haway hmove =>
      rw [picksUp_eq hpass hh rfl, decide_eq_false haway, if_neg Bool.false_ne_true]
      refine ⟨h.picked, fun hbusy hup => ?_⟩
      obtain ⟨origin', destination, hpass', hdst, hway⟩ := h.way hbusy hup
      obtain rfl := Option.some.inj (hpass.symm.trans hpass')
      exact ⟨origin, destination, hpass, hdst, fun hon =>
        hway (hon.of_move (movePosition_of_moveTo hmove) haway)⟩
  | picksUp origin hpass =>
      -- the driver has reached the passenger
      rw [picksUp_eq hpass hh rfl, decide_eq_true rfl, if_pos rfl]
      refine ⟨fun _ _ => List.mem_cons_self, fun _ hup => ?_⟩
      exact absurd hup (by simp)
  | noDestination | rides | arrives =>
      obtain ⟨hbusy, -, hpick⟩ := (hunder.of_head (by simp) rfl).2.spent rfl
      have hup : d.passengerPickedUp = true := by simpa [Msg.isPickUp] using hpick.symm
      refine ⟨h.picked, fun _ hdown => ?_⟩
      exact absurd (hup.symm.trans hdown) (by simp)

/-- A driver on its way to the passenger moves on. -/
theorem pickUpPassenger_on (o : Oracle) {origin position : Position}
    (hpass : d.passengerPosition = some origin)
    (hmove : movePosition origin d.position = some position) (haway : position ≠ origin) :
    d.handle o .pickUpPassenger = some (d.at_ position, [.trySend .pickUpPassenger]) := by
  have hmoved : d.moveTo origin = some (d.at_ position) := by rw [moveTo_eq_map, hmove]; rfl
  simp [handle, pickUpPassenger, hpass, hmoved, at_, haway]

/-- What a driver at the destination answers its passenger. -/
theorem passengerRecover_there (o : Oracle) {destination : Position}
    (hdst : d.destination = some destination) (hpos : d.position = destination) (addr : ℕ) :
    d.handle o (.passengerRecover d.idCurrentPassenger addr) =
      some ({ d with currentPassengerConnection := some addr },
        [.passenger addr (.recoverResponse d.passengerPickedUp destination true)]) := by
  simp [handle, passengerRecover, hdst, hpos]

/-- A handler saves the state it leaves, and `RideToDestination` the one it finds. -/
theorem saves_cases (hh : d.handle o m = some (t, effects)) {status : Json}
    (hstatus : status ∈ saves effects) :
    status = t.status ∨ m = .rideToDestination ∧ status = d.status := by
  have hdrives := handle_drives hh
  unfold DrivesBy at hdrives
  generalize rideMessages (selfMessages effects) = chain at hdrives
  generalize saves effects = saved at hdrives hstatus
  generalize passengerLines effects = lines at hdrives
  cases hdrives with
  | aside _ _ _ _ _ hsaved => exact .inl (hsaved status hstatus)
  | accepts | ends => exact .inl (List.mem_singleton.1 hstatus)
  | noDestination | rides | arrives => exact .inr ⟨rfl, List.mem_singleton.1 hstatus⟩
  | _ => exact absurd hstatus List.not_mem_nil

/-- A state saved before a panic is the one the handler finds. -/
theorem saved_of_panic {status : Json} (h : status ∈ Process.savedBeforePanic d m) :
    m = .rideToDestination ∧ status = d.status := by
  cases m with
  | rideToDestination => exact ⟨rfl, List.mem_singleton.1 h⟩
  | _ => exact absurd h List.not_mem_nil

namespace Shift

/-- The condition on a step: the way to the passenger that begins with it does not come by the
    destination. -/
def CleanPickUp (s : Shift) : Process.Label → Prop
  | .recv _ => ∀ d m rest, s.process.actor = some (d, m :: rest) → d.CleanPickUp m
  | _ => True

/-- The invariant: the driver, what it is about to read and all it has saved are truthful. -/
structure Sound (s : Shift) : Prop where
  process : s.process.Sound
  actor : ∀ d mailbox, s.process.actor = some (d, mailbox) → d.Truthful s.pickedUp s.number
  file : ∀ d mailbox status socket, s.process.actor = some (d, mailbox) →
    .recovery status socket ∈ mailbox → SavedTruthful s.pickedUp s.number status
  versions : List.Forall₂ (fun v n => SavedTruthful s.pickedUp n v.status) s.process.versions s.saved

variable {name : String} {s s' : Shift} {l : Process.Label} {ls : List Process.Label}

theorem sound_init : init.Sound where
  process := Process.sound_init
  actor := fun _ _ h => by cases h
  file := fun _ _ _ _ h => by cases h
  versions := .nil

/-- The rides whose passengers have been picked up are never forgotten. -/
theorem pickedUp_mono (s : Shift) (p : Bool) :
    ∀ n ∈ s.pickedUp, n ∈ if p then s.number :: s.pickedUp else s.pickedUp := by
  intro n hn
  cases p with
  | true => exact List.mem_cons_of_mem _ hn
  | false => exact hn

/-- The states a step saves go on record with the ride the driver is on. -/
theorem forall₂_versions {R : Version → ℕ → Prop} {new old : List Version} {saved : List ℕ} {n : ℕ}
    (hnew : ∀ v ∈ new, R v n) (hold : List.Forall₂ R old saved) :
    List.Forall₂ R (new ++ old)
      (List.replicate ((new ++ old).length - old.length) n ++ saved) := by
  rw [List.length_append, Nat.add_sub_cancel]
  induction new with
  | nil => exact hold
  | cons v new ih =>
      rw [List.length_cons, List.replicate_succ, List.cons_append, List.cons_append]
      exact .cons (hnew v List.mem_cons_self)
        (ih fun v' hv' => hnew v' (List.mem_cons_of_mem v hv'))

/-- A step that saves nothing leaves the record as it is. -/
theorem forall₂_unchanged {R : Version → ℕ → Prop} {versions : List Version} {saved : List ℕ}
    (n : ℕ) (h : List.Forall₂ R versions saved) :
    List.Forall₂ R versions (List.replicate (versions.length - versions.length) n ++ saved) := by
  rw [Nat.sub_self]
  exact h

theorem forall₂_getD {R : Version → ℕ → Prop} {versions : List Version} {saved : List ℕ} {i : ℕ}
    {v : Version} (h : List.Forall₂ R versions saved) (hv : versions[i]? = some v) :
    R v (saved.getD i 0) := by
  induction h generalizing i with
  | nil => simp at hv
  | cons hR _ ih =>
      cases i with
      | zero =>
          obtain rfl := Option.some.inj hv
          exact hR
      | succ i => exact ih hv

theorem handles_recv {p : Driver → Msg → Bool} (hactor : s.process.actor = some (d, m :: rest)) :
    s.handles p (.recv o) = p d m := by
  simp only [handles, hactor]

/-- The driver handles a message, or panics. -/
theorem sound_recv (hs : s.Sound) (hclean : s.CleanPickUp (.recv o))
    (hstep : s.step name (.recv o) = some s') : s'.Sound := by
  obtain ⟨process, hprocess, rfl⟩ := Option.map_eq_some_iff.1 hstep
  have hsound := Process.sound_step hs.process hprocess
  obtain ⟨⟨process', effects⟩, hrecv, rfl⟩ := Option.map_eq_some_iff.1 hprocess
  -- what was saved before stays truthful
  have hold : List.Forall₂ (fun v n => SavedTruthful
      (if s.handles picksUp (.recv o) then s.number :: s.pickedUp else s.pickedUp) n v.status)
      s.process.versions s.saved :=
    hs.versions.imp fun _ _ h => h.mono (s.pickedUp_mono _)
  rcases Process.recv_cases hrecv with ⟨d, m, rest, hactor, -, -, rfl⟩ |
    ⟨d, m, rest, t, hactor, hh, rfl⟩
  · refine ⟨hsound, fun _ _ h => (by cases h), fun _ _ _ _ h => (by cases h), ?_⟩
    refine forall₂_versions (fun v hv => ?_) hold
    obtain ⟨status, hstatus, rfl⟩ := List.mem_map.1 hv
    obtain ⟨rfl, rfl⟩ := saved_of_panic hstatus
    have haccepts : s.handles accepts (.recv o) = false := handles_recv hactor
    simp only [numberAfter, haccepts, Bool.false_eq_true, if_false]
    exact ⟨d, rfl, (hs.actor d _ hactor).mono (s.pickedUp_mono _)⟩
  · have hd := hs.actor d _ hactor
    have hunder := hs.process.actor d _ hactor
    have haccepts : s.handles accepts (.recv o) = d.accepts m := handles_recv hactor
    have hpicks : s.handles picksUp (.recv o) = d.picksUp m := handles_recv hactor
    have ht : t.Truthful (if s.handles picksUp (.recv o) then s.number :: s.pickedUp
        else s.pickedUp) (s.numberAfter (.recv o)) := by
      rw [numberAfter, haccepts, hpicks]
      refine hd.handled hunder (hclean d m rest hactor) ?_ hh
      rintro status socket rfl
      exact hs.file d _ status socket hactor List.mem_cons_self
    constructor
    case process => exact hsound
    case actor =>
      intro d' mailbox hactor'
      obtain ⟨rfl, -⟩ := Prod.mk.inj (Option.some.inj hactor')
      exact ht
    case file =>
      intro d' mailbox status socket hactor' hmem
      obtain ⟨rfl, rfl⟩ := Prod.mk.inj (Option.some.inj hactor')
      rcases List.mem_append.1 hmem with hmem | hmem
      · -- only `SetReceiver` comes before `Recovery`
        obtain ⟨link, rfl⟩ := hunder.before_recovery hmem
        have hsaved := hs.file d _ status socket hactor (List.mem_cons_of_mem _ hmem)
        rw [hpicks, numberAfter, haccepts]
        exact hsaved
      · exact absurd (not_recovery_of_self hh _ hmem) (by simp [Msg.isRecovery])
    case versions =>
      refine forall₂_versions (fun v hv => ?_) hold
      obtain ⟨status, hstatus, rfl⟩ := List.mem_map.1 hv
      rcases saves_cases hh hstatus with rfl | ⟨rfl, rfl⟩
      · exact ⟨t, rfl, ht⟩
      · have hsame : s.numberAfter (.recv o) = s.number := by
          rw [numberAfter, haccepts]
          rfl
        rw [hsame]
        exact ⟨d, rfl, hd.mono (s.pickedUp_mono _)⟩

theorem sound_step (hs : s.Sound) (hclean : s.CleanPickUp l) (hstep : s.step name l = some s') :
    s'.Sound := by
  have hrecv := hstep
  obtain ⟨process, hprocess, rfl⟩ := Option.map_eq_some_iff.1 hstep
  have hsound := Process.sound_step hs.process hprocess
  have hvers := fun n => forall₂_unchanged n hs.versions
  cases Process.step_cases hprocess with
  | recv => exact sound_recv hs hclean hrecv
  | @arrives m d mailbox hm hactor =>
      refine ⟨hsound, fun d' mailbox' hactor' => ?_, ?_, hvers _⟩
      · obtain ⟨rfl, -⟩ := Prod.mk.inj (Option.some.inj hactor')
        exact hs.actor d mailbox hactor
      · intro d' mailbox' status socket hactor' hmem
        obtain ⟨rfl, rfl⟩ := Prod.mk.inj (Option.some.inj hactor')
        rcases List.mem_append.1 hmem with hmem | hmem
        · exact hs.file d mailbox status socket hactor hmem
        · rw [← List.mem_singleton.1 hmem] at hm
          cases hm
  | crash => exact ⟨hsound, fun _ _ h => (by cases h), fun _ _ _ _ h => (by cases h), hvers _⟩
  | launch at_ =>
      refine ⟨hsound, fun d mailbox hactor => ?_, ?_, hvers _⟩
      · obtain ⟨rfl, -⟩ := Prod.mk.inj (Option.some.inj hactor)
        exact .of_free rfl
      · intro d mailbox status socket hactor hmem
        obtain ⟨-, rfl⟩ := Prod.mk.inj (Option.some.inj hactor)
        simp at hmem
  | @recover i v at_ _ hv =>
      refine ⟨hsound, fun d mailbox hactor => ?_, ?_, hvers _⟩
      · obtain ⟨rfl, -⟩ := Prod.mk.inj (Option.some.inj hactor)
        exact .of_free rfl
      · intro d mailbox status socket hactor hmem
        obtain ⟨-, rfl⟩ := Prod.mk.inj (Option.some.inj hactor)
        have hmsg : status = v.status ∧ socket = at_.driverSocket := by simpa using hmem
        rw [hmsg.1]
        exact forall₂_getD hs.versions hv

/-- The message sends the driver to a passenger whose destination is no farther out than both of
    them, or to the same passenger once more. -/
def comesBack (d : Driver) : Msg → Bool
  | .requestRide r => decide (r.destination.1 ≤ max d.position.1 r.origin.1)
  | .reconnectPassenger _ _ => true
  | _ => false

theorem cleanPickUp_of_not_comesBack (h : s.handles comesBack l = false) : s.CleanPickUp l := by
  cases l with
  | recv o =>
      intro d m rest hactor
      rw [handles_recv hactor] at h
      cases m with
      | requestRide r =>
          intro _ hway
          have hbound : r.destination.1 ≤ max d.position.1 r.origin.1 := by
            refine hway.invariant (I := fun p => p.1 ≤ max d.position.1 r.origin.1) ?_
              (le_max_left _ _)
            intro p q hp hq
            simp only [movePosition, Option.bind_eq_bind, Option.bind_eq_some_iff] at hq
            obtain ⟨x, hx, y, -, hq⟩ := hq
            obtain rfl := Option.some.inj hq
            have := moveCoordinate_le hx
            omega
          simp [comesBack, hbound] at h
      | reconnectPassenger => cases h
      | _ => trivial
  | _ => trivial

/-- **The end of a ride is reported early** on a way to the passenger that does come by the
    destination: a driver that is left alone gets there, and has not picked the passenger up. -/
theorem reports_early (name : String) (o : Oracle) {origin destination : Position}
    (hactor : s.process.actor = some (d, [.pickUpPassenger]))
    (hpass : d.passengerPosition = some origin) (hdst : d.destination = some destination)
    (hnumber : s.number ∉ s.pickedUp)
    (hway : OnTheWay (movePosition origin) origin d.position destination) :
    ∃ n s' t, Run (step name) (fun _ _ => True) s (List.replicate n (.recv o)) s' ∧
      s'.process.actor = some (t, [.pickUpPassenger]) ∧ s'.number ∉ s'.pickedUp ∧
      ∀ addr, ∃ u effects, t.handle o (.passengerRecover t.idCurrentPassenger addr) =
        some (u, effects) ∧
          .passenger addr (.recoverResponse t.passengerPickedUp destination true) ∈ effects := by
  obtain ⟨n, hn, hbefore⟩ := hway
  induction n generalizing s d with
  | zero =>
      have hpos : d.position = destination := Option.some.inj hn
      exact ⟨0, s, d, .nil s, hactor, hnumber, fun addr =>
        ⟨_, _, passengerRecover_there o hdst hpos addr, List.mem_singleton_self _⟩⟩
  | succ n ih =>
      simp only [moves, Option.bind_eq_some_iff] at hn
      obtain ⟨position, hmove, hn⟩ := hn
      have haway : position ≠ origin := by
        rintro rfl
        exact hbefore 1 (by omega) (by omega) (by simp [moves, hmove])
      have hon := pickUpPassenger_on o hpass hmove haway
      have hpicks : s.handles picksUp (.recv o) = false := by
        rw [handles_recv hactor, picksUp_eq hpass hon rfl]
        exact decide_eq_false haway
      have haccepts : s.handles accepts (.recv o) = false := handles_recv hactor
      obtain ⟨process, hprocess, hactor'⟩ :
          ∃ process, s.process.step name (.recv o) = some process ∧
            process.actor = some (d.at_ position, [.pickUpPassenger]) := by
        simp only [Process.step, Process.recv, hactor, hon]
        exact ⟨_, rfl, rfl⟩
      obtain ⟨s₁, hstep, hs₁, hnumber₁⟩ : ∃ s₁, s.step name (.recv o) = some s₁ ∧
          s₁.process = process ∧ s₁.number ∉ s₁.pickedUp := by
        simp only [step, hprocess, Option.map_some, numberAfter, hpicks, haccepts,
          Bool.false_eq_true, if_false]
        exact ⟨_, rfl, rfl, hnumber⟩
      obtain ⟨k, s', t, hrun, hend⟩ := ih (d := d.at_ position) (hs₁ ▸ hactor') hpass hdst
        hnumber₁ hn fun j hj hpos hgoal => hbefore (j + 1) (by omega) (by omega) (by
          simp only [moves, hmove, Option.bind_some]
          exact hgoal)
      exact ⟨k + 1, s', t, .cons trivial hstep hrun, hend⟩

/-- **The end of a ride is reported only when it has ended**, in every run (with any rides, crashes
    and recoveries) in which no way to a passenger comes by the destination: a driver on a ride that
    tells the passenger of the ride that it has ended has picked the passenger up and is at the
    destination. -/
theorem end_ride_reported (h : Run (step name) CleanPickUp init ls s) {mailbox : List Msg}
    (hactor : s.process.actor = some (d, mailbox)) (hbusy : d.isAvailable = false) :
    ∃ r, s.process.ride = some r ∧ ∀ (o : Oracle) (addr : ℕ) (t : Driver) (effects : List Effect)
      (pickedUp : Bool) (position : Position),
      d.handle o (.passengerRecover r.idPassenger addr) = some (t, effects) →
      .passenger addr (.recoverResponse pickedUp position true) ∈ effects →
      s.number ∈ s.pickedUp ∧ position = r.destination ∧ d.position = r.destination := by
  have hs : s.Sound := h.invariant (fun _ _ _ hs hok hst => sound_step hs hok hst) sound_init
  obtain ⟨r, hride, hid, hdst⟩ := ((hs.process.actor d mailbox hactor).onRide hbusy).accepted hbusy
  refine ⟨r, hride, fun o addr t effects pickedUp position hh hmem => ?_⟩
  simp only [handle, passengerRecover, if_pos hid, hdst, Option.any_some, Option.some.injEq] at hh
  obtain ⟨-, rfl⟩ := Prod.mk.inj hh
  obtain ⟨-, hresponse⟩ := Effect.passenger.inj (List.mem_singleton.1 hmem)
  obtain ⟨-, rfl, hend⟩ := PassengerLine.recoverResponse.inj hresponse
  have hthere : d.position = r.destination := of_decide_eq_true hend.symm
  refine ⟨?_, hthere, hthere⟩
  have htrue := hs.actor d mailbox hactor
  cases hup : d.passengerPickedUp with
  | true => exact htrue.picked hbusy hup
  | false =>
      -- a driver on its way to the passenger is not at the destination
      obtain ⟨origin, destination, -, hdst', hway⟩ := htrue.way hbusy hup
      obtain rfl := Option.some.inj (hdst.symm.trans hdst')
      exact absurd (hthere ▸ onTheWay_start) hway

/-- Driver "mario" takes a passenger from (3, 3) to (6, 6), and crashes on the way there. -/
def wholeRide : List Process.Label :=
  [.launch ⟨(1, 1), "127.0.0.1:40000", ⟨⟨1, 1⟩, 0⟩⟩, .recv Process.up, .recv Process.up,
    .arrives (.requestRide ⟨7, (3, 3), (6, 6), 1⟩), .recv Process.up, .recv Process.up,
    .recv Process.up, .recv Process.up, .recv Process.up, .crash,
    .recover 0 ⟨(1, 1), "127.0.0.1:40000", ⟨⟨1, 1⟩, 1⟩⟩, .recv Process.up, .recv Process.up,
    .recv Process.up, .recv Process.up, .recv Process.up, .recv Process.up]

theorem end_ride_reported_wholeRide : ∃ (s : Shift) (d t : Driver) (addr : ℕ)
    (effects : List Effect), s.process.actor.map Prod.fst = some d ∧ d.isAvailable = false ∧
      d.handle Process.up (.passengerRecover 7 addr) = some (t, effects) ∧
      .passenger addr (.recoverResponse true (6, 6) true) ∈ effects ∧ s.number ∈ s.pickedUp := by
  obtain ⟨s, hrun, hs⟩ := exists_run_of_exec (fun s l => !s.handles comesBack l) init wholeRide
    (fun (s : Shift) => s.process.actor.any fun (p : Driver × List Msg) =>
      !p.1.isAvailable && decide (p.1.idCurrentPassenger = 7) &&
        decide (p.1.destination = some (6, 6)) && decide (p.1.position = (6, 6)) &&
        p.1.passengerPickedUp && s.process.ride.any fun (r : RequestRide) =>
          decide (r.idPassenger = 7))
    (show (exec (step "mario") _ _ _).any _ = true by decide +kernel)
  obtain ⟨⟨d, mailbox⟩, hactor, hd⟩ := Option.any_eq_true _ _ |>.1 hs
  simp only [Bool.and_eq_true, Bool.not_eq_true', decide_eq_true_eq, Option.any_eq_true] at hd
  obtain ⟨⟨⟨⟨⟨hbusy, hid⟩, hdst⟩, hpos⟩, hup⟩, r, hride, hr⟩ := hd
  have hclean := hrun.mono fun s l h => cleanPickUp_of_not_comesBack (by simpa using h)
  obtain ⟨r', hride', hreported⟩ := end_ride_reported hclean hactor hbusy
  obtain rfl := Option.some.inj (hride.symm.trans hride')
  have hh : d.handle Process.up (.passengerRecover 7 0) =
      some ({ d with currentPassengerConnection := some 0 },
        [.passenger 0 (.recoverResponse true (6, 6) true)]) := by
    simp [handle, passengerRecover, hid, hdst, hpos, hup]
  rw [← hr] at hh
  have hmem := List.mem_singleton_self (Effect.passenger 0 (.recoverResponse true (6, 6) true))
  exact ⟨s, d, _, 0, _, by rw [hactor]; rfl, hbusy, hr ▸ hh, hmem,
    (hreported _ _ _ _ _ _ hh hmem).1⟩

/-- Driver "mario" is at (8, 8) when it takes a ride there. -/
def rideToHere : List Process.Label :=
  [.launch ⟨(8, 8), "127.0.0.1:40000", ⟨⟨1, 1⟩, 0⟩⟩, .recv Process.up, .recv Process.up,
    .arrives (.requestRide ⟨7, (2, 2), (8, 8), 1⟩), .recv Process.up]

theorem not_end_ride_reported : ¬ ∀ (name : String) (ls : List Process.Label) (s : Shift)
    (d t : Driver) (mailbox : List Msg) (r : RequestRide) (o : Oracle) (addr : ℕ)
    (effects : List Effect) (pickedUp : Bool) (position : Position),
    Run (step name) (fun _ _ => True) init ls s → s.process.actor = some (d, mailbox) →
    d.isAvailable = false → s.process.ride = some r →
    d.handle o (.passengerRecover r.idPassenger addr) = some (t, effects) →
    .passenger addr (.recoverResponse pickedUp position true) ∈ effects →
    s.number ∈ s.pickedUp ∧ position = r.destination := by
  intro h
  obtain ⟨s, hrun, hs⟩ := exists_run_of_exec (fun _ _ => true) init rideToHere
    (fun (s : Shift) => s.pickedUp.isEmpty && s.process.actor.any fun (p : Driver × List Msg) =>
      !p.1.isAvailable && s.process.ride.any fun (r : RequestRide) =>
        decide (p.1.idCurrentPassenger = r.idPassenger) &&
          decide (p.1.destination = some p.1.position))
    (show (exec (step "mario") _ _ _).any _ = true by decide +kernel)
  rw [Bool.and_eq_true, Option.any_eq_true] at hs
  obtain ⟨hnone, ⟨d, mailbox⟩, hactor, hd⟩ := hs
  simp only [Bool.and_eq_true, Bool.not_eq_true', decide_eq_true_eq, Option.any_eq_true] at hd
  obtain ⟨hbusy, r, hride, hid, hdst⟩ := hd
  have hh : d.handle Process.up (.passengerRecover r.idPassenger 0) =
      some ({ d with currentPassengerConnection := some 0 },
        [.passenger 0 (.recoverResponse d.passengerPickedUp d.position true)]) := by
    simp [handle, passengerRecover, hid, hdst]
  have hpicked := (h "mario" rideToHere s d _ mailbox r _ 0 _ _ _ (hrun.mono fun _ _ _ => trivial)
    hactor hbusy hride hh (List.mem_singleton_self _)).1
  rw [List.isEmpty_iff.1 hnone] at hpicked
  exact absurd hpicked List.not_mem_nil

end Shift

end ConcuRide.Driver
