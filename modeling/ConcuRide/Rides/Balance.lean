import Mathlib.Data.List.Perm.Basic
import ConcuRide.Driver.Saved
import ConcuRide.Lib.Token
import ConcuRide.Passenger.Authorization
import ConcuRide.Rides.World

set_option autoImplicit false

/-! # No double booking

The search of a passenger is one token. It is with the passenger, the leader or the gateway, in a
request or its refusal on the way, or with the driver that holds the ride. A restart only starts a
new search while no payment is authorized, and as long as that is so no request has left the
passenger. -/

namespace ConcuRide

open Lib

/-! ## The token of the passenger -/

namespace Passenger

/-- The messages that hold the token. A saved state holds it when the search starts again with it. -/
def Msg.isToken : Msg → Bool
  | .recover status => !authorizedIn status
  | m => m.isSearch

def DriverLine.isRequest : DriverLine → Bool
  | .requestRide _ _ _ => true
  | _ => false

variable {distance : Position → Position → ℕ} {o : Oracle} {p t : Passenger} {m : Msg}
  {self : List Msg} {n k : ℕ} {lines : List (Connection × DriverLine)}

theorem isToken_of_aside (hm : m.isSearch = false) (hrecover : ∀ status, m ≠ .recover status) :
    m.isToken = false := by
  cases m with
  | recover status => exact absurd rfl (hrecover status)
  | _ => exact hm

/-- **A handler passes the token on**, at most once. -/
theorem Searches.token (h : Searches distance o p m t self n k lines)
    (hself : ∀ x ∈ self, x.isStartUp = false) (dead : ℕ → Bool)
    (hlink : m = .getDrivers → (p.serverReceiver.isSome && o.connected) = true ∨
      dead p.serverSender = true)
    (hfresh : ∀ status, m = .recover status → p.paymentAuthorized = false) :
    self.countP Msg.isToken + (if dead t.serverSender then 0 else n) + k +
      lines.countP (fun l => l.2.isRequest) ≤ m.isToken.toNat := by
  cases h with
  | aside hm hstatus _ _ _ hquiet =>
      have hzero : self.countP Msg.isToken = 0 := List.countP_eq_zero.2 fun x hx => by
        rw [isToken_of_aside (hquiet x hx) (ne_recover (hself x hx))]
        exact Bool.false_ne_true
      simp [hzero]
  | asks =>
      rcases hlink rfl with hup | hdead
      · rw [if_pos hup]
        split <;> simp [Msg.isToken, Msg.isSearch]
      · rw [hdead]
        split <;> simp [Msg.isToken, Msg.isSearch, ServerLine.isGetDrivers]
  | asksAgain id hsame n hn =>
      subst hn
      simp only [List.countP_nil, Msg.isToken, Msg.isSearch, ServerLine.isGetDrivers]
      split
      · simp
      · split <;> simp
  | nobody => simp
  | recovers status hlines =>
      have hnone : lines.countP (fun l => l.2.isRequest) = 0 := List.countP_eq_zero.2 fun l hl => by
        simp [hlines l hl, DriverLine.isRequest]
      have hauth : (p.restore status).startsOver = true → authorizedIn status = false := by
        simp only [startsOver, restore, hfresh status rfl, authorizedIn]
        cases (status.get "payment_authorized").asBool with
        | none => simp
        | some b => cases b <;> simp
      rw [hnone]
      split
      · next hstart => simp [Msg.isToken, Msg.isSearch, hauth hstart]
      · simp [Msg.isToken, Msg.isSearch]
  | unreachable | selects | requests | keepsLooking | authorized | denied | reconnects =>
      simp [Msg.isToken, Msg.isSearch, rideRequest, DriverLine.isRequest]

/-- Only `RequestDrive` asks a driver. -/
theorem Searches.request (h : Searches distance o p m t self n k lines) (hm : m ≠ .requestDrive) :
    lines.countP (fun l => l.2.isRequest) = 0 := by
  cases h with
  | recovers status hlines =>
      exact List.countP_eq_zero.2 fun l hl => by simp [hlines l hl, DriverLine.isRequest]
  | requests => exact absurd rfl hm
  | reconnects => simp [DriverLine.isRequest]
  | _ => rfl

end Passenger

/-! ## The token of a driver -/

namespace Driver

/-- A request of the passenger with the `own` connections. -/
def Msg.isRequestOf (own : ℕ → Bool) : Msg → Bool
  | .requestRide r => own r.addr
  | _ => false

def PassengerLine.isNo : PassengerLine → Bool
  | .no => true
  | _ => false

/-- A ride of the passenger with the `own` connections. -/
def isOwn (own : ℕ → Bool) (ride : Option RequestRide) : Bool := ride.any fun r => own r.addr

/-- The driver was on a ride of the passenger when it saved the state. -/
def Version.holds (own : ℕ → Bool) (v : Version) : Bool := v.busy && isOwn own v.ride

/-- The tokens of a driver: requests of the passenger in its mailbox, and its ride. -/
def Process.load (own : ℕ → Bool) (s : Process) : ℕ :=
  s.mailbox.countP (Msg.isRequestOf own) + (s.versions.head?.any (Version.holds own)).toNat

/-- The refusals a passenger with the `own` connections gets. -/
def refusals (own : ℕ → Bool) (lines : List (ℕ × PassengerLine)) : ℕ :=
  (lines.filter fun l => own l.1).countP fun l => l.2.isNo

variable {own : ℕ → Bool} {d t : Driver} {o : Oracle} {m : Msg} {ride : Option RequestRide}
  {file : Option Version} {chain rest : List Msg} {saved : List Json}
  {lines : List (ℕ × PassengerLine)} {effects : List Effect}

theorem refusals_nil : refusals own [] = 0 := rfl

theorem refusals_singleton (addr : ℕ) (line : PassengerLine) :
    refusals own [(addr, line)] = (own addr && line.isNo).toNat := by
  cases hown : own addr <;> cases hno : line.isNo <;> simp [refusals, hown, hno]

theorem refusals_other {addr : ℕ} {line : PassengerLine} (hno : line.isNo = false) :
    refusals own [(addr, line)] = 0 := by
  rw [refusals_singleton, hno, Bool.and_false]
  rfl

/-- A driver on a ride holds the ride that its newest state names. -/
theorem holds_of_busy (hbusy : d.isAvailable = false) (hfile : file.any Version.busy = !d.isAvailable)
    (hride : d.isAvailable = false → file.map Version.ride = some ride) :
    file.any (Version.holds own) = isOwn own ride := by
  cases file with
  | none => cases hride hbusy
  | some v =>
      have hv : v.ride = ride := Option.some.inj (hride hbusy)
      have hvbusy : v.busy = true := by simpa [hbusy] using hfile
      simp [Version.holds, hvbusy, hv]

theorem not_holds_of_free (hfile : file.any Version.busy = false) :
    file.any (Version.holds own) = false := by
  cases file with
  | none => rfl
  | some v =>
      have hv : v.busy = false := hfile
      simp [Version.holds, hv]

/-- The ride is saved again, or its end. -/
theorem holds_again {x : Driver} {more : List Json}
    (hfile : file.any Version.busy = !d.isAvailable)
    (hride : d.isAvailable = false → file.map Version.ride = some ride)
    (hx : x.isAvailable = false → d.isAvailable = false) :
    ((newest file (x.status :: more) ride).any (Version.holds own)).toNat ≤
      (file.any (Version.holds own)).toNat := by
  cases hholds : (newest file (x.status :: more) ride).any (Version.holds own) with
  | false => exact Nat.zero_le _
  | true =>
      simp only [newest, List.map_cons, List.head?_cons, Option.some_or, Option.any_some,
        Version.holds, Bool.and_eq_true, busy_status, Bool.not_eq_true'] at hholds
      rw [holds_of_busy (hx hholds.1) hfile hride, hholds.2]

/-- A driver that has read its file holds a ride after a handler only if it has held it before, or
    has accepted it now. -/
theorem Drives.token (h : Drives d m t chain saved lines) (hrec : m.isRecovery = false)
    (hfile : file.any Version.busy = !d.isAvailable)
    (hride : d.isAvailable = false → file.map Version.ride = some ride) :
    ((newest file saved (Process.rideAfter ride d m)).any (Version.holds own)).toNat
      + refusals own lines ≤
      (m.isRequestOf own).toNat + (file.any (Version.holds own)).toNat := by
  have keeps : ∀ {x : Driver} {more : List Json}, (x.isAvailable = false → d.isAvailable = false) →
      ((newest file (x.status :: more) ride).any (Version.holds own)).toNat ≤
        (file.any (Version.holds own)).toNat := fun hx => holds_again hfile hride hx
  cases h with
  | @aside m t saved hm hrequest _ _ hsame hsaved =>
      have hsameRide : Process.rideAfter ride d m = ride := by
        cases m with
        | requestRide r => exact absurd rfl (hrequest r)
        | _ => rfl
      rw [hsameRide, refusals_nil, Nat.add_zero]
      refine Nat.le_trans ?_ (Nat.le_add_left (file.any (Version.holds own)).toNat _)
      cases saved with
      | nil => exact Nat.le_refl _
      | cons status more =>
          rw [hsaved status List.mem_cons_self]
          exact keeps fun hav => hsame.isAvailable.symm.trans hav
  | responds id addr hsame pickedUp position endRide =>
      rw [refusals_other rfl]
      exact Nat.le_add_left ..
  | refuses r hbusy =>
      have hsameRide : Process.rideAfter ride d (.requestRide r) = ride := by
        simp [Process.rideAfter, hbusy]
      rw [hsameRide, refusals_singleton, PassengerLine.isNo, Bool.and_true, Nat.add_comm]
      exact Nat.le_refl _
  | accepts r hfree =>
      have hnew : Process.rideAfter ride d (.requestRide r) = some r := by
        simp [Process.rideAfter, hfree]
      rw [hnew, refusals_other rfl]
      refine Nat.le_trans ?_ (Nat.le_add_right ..)
      simp only [newest, List.map_cons, List.head?_cons, Option.some_or, Option.any_some,
        Version.holds, isOwn, Msg.isRequestOf]
      cases own r.addr <;> simp
      exact Bool.toNat_le _
  | starts | noPassenger | approaches =>
      rw [refusals_nil, Nat.add_zero]
      exact Nat.le_add_left ..
  | picksUp position =>
      have hno : refusals own (d.currentPassengerConnection.toList.map
          fun addr => (addr, .driverArrived)) = 0 := by
        cases d.currentPassengerConnection with
        | none => rfl
        | some addr => exact refusals_other rfl
      rw [hno]
      exact Nat.le_add_left ..
  | noDestination | rides | arrives =>
      rw [refusals_nil, Nat.add_zero]
      exact Nat.le_trans (keeps fun hav => hav) (Nat.le_add_left ..)
  | ends dst =>
      rw [refusals_nil, Nat.add_zero]
      exact Nat.le_trans (keeps fun hav => absurd hav (by simp [free])) (Nat.le_add_left ..)
  | recoversFree | recoversBusy => cases hrec

/-- What a driver sends itself is no request. -/
theorem requests_self (h : d.handle o m = some (t, effects)) :
    (selfMessages effects).countP (Msg.isRequestOf own) = 0 :=
  List.countP_eq_zero.2 fun x hx => by
    have hx := self_cases h x hx
    cases x with
    | requestRide => simp [Msg.isRide, Msg.isReconnect] at hx
    | _ => exact Bool.false_ne_true

/-- A driver that panics holds a ride only if it has held it before. -/
theorem Process.holds_panicked {s : Process} (hkept : s.Kept)
    (hactor : s.actor = some (d, m :: rest)) :
    (((savedBeforePanic d m).map (fun status => (⟨status, s.ride⟩ : Version))
      ++ s.versions).head?.any (Version.holds own)).toNat ≤
      (s.versions.head?.any (Version.holds own)).toNat := by
  cases m with
  | rideToDestination =>
      cases (hkept d _ hactor).head with
      | running _ _ hbusy hride => exact @holds_again _ _ _ _ _ [] hbusy hride fun hav => hav
  | _ => exact Nat.le_refl _

/-- **A driver passes the token on**, as a refusal, or keeps it with the ride. -/
theorem Process.load_recv {s s' : Process} (hkept : s.Kept) (h : s.recv o = some (s', effects)) :
    s'.load own + refusals own (passengerLines effects) ≤ s.load own := by
  rcases recv_cases h with ⟨d, m, rest, hactor, -, rfl, rfl⟩ | ⟨d, m, rest, t, hactor, hh, rfl⟩
  · show _ + 0 ≤ _
    rw [Nat.add_zero]
    exact Nat.add_le_add (Nat.zero_le _) (holds_panicked hkept hactor)
  · have htoken : ((newest s.versions.head? (saves effects)
          (rideAfter s.ride d m)).any (Version.holds own)).toNat
        + refusals own (passengerLines effects) ≤
        (m.isRequestOf own).toNat + (s.versions.head?.any (Version.holds own)).toNat := by
      rcases (hkept d _ hactor).running_or_quiet hh with ⟨hread, hbusy, hride⟩ | ⟨hsaves, hlines⟩
      · exact (handle_drives hh).token (hread m List.mem_cons_self) hbusy hride
      · rw [hsaves, hlines]
        exact Nat.le_add_left ..
    have hbox : s.mailbox = m :: rest := by simp [mailbox, hactor]
    have hcount : (m :: rest).countP (Msg.isRequestOf own)
        = rest.countP (Msg.isRequestOf own) + (m.isRequestOf own).toNat := countP_cons_toNat ..
    have hhead : ((saves effects).map (fun status => (⟨status, rideAfter s.ride d m⟩ : Version))
        ++ s.versions).head? = newest s.versions.head? (saves effects) (rideAfter s.ride d m) :=
      List.head?_append
    have hload : ∀ s'' : Process, s''.actor = some (t, rest ++ selfMessages effects) →
        s''.mailbox.countP (Msg.isRequestOf own) = rest.countP (Msg.isRequestOf own) := by
      intro s'' hactor''
      simp only [mailbox, hactor'', Option.elim_some, List.countP_append, requests_self hh,
        Nat.add_zero]
    rw [load, load, hbox, hcount, hload _ rfl, hhead]
    omega

end Driver

/-! ## The token in the world -/

namespace World

/-- The token in the search, with the passenger and in the lines on their way. -/
def search (w : World) : ℕ :=
  (w.passenger.elim [] Prod.snd).countP Passenger.Msg.isToken + w.asks.length + w.auths +
    w.up.countP (fun l => l.2.isRequest) + w.down.countP (fun l => l.2.isNo)

/-- The tokens of a place: a driver, or else the search. -/
def load (own : ℕ → Bool) (w : World) : Option String → ℕ
  | none => w.search
  | some d => (w.drivers d).load own

/-- The tokens of a place that have left the passenger with an authorized payment. -/
def outward (own : ℕ → Bool) (w : World) : Option String → ℕ
  | none => w.up.countP (fun l => l.2.isRequest) + w.down.countP (fun l => l.2.isNo)
  | some d => (w.drivers d).load own

/-- The invariant of the search. -/
structure Sound (own : ℕ → Bool) (w : World) : Prop where
  inStep : ∀ p mailbox, w.passenger = some (p, mailbox) → Passenger.InStep w.file p mailbox
  kept : ∀ d, (w.drivers d).Kept
  token : AtMostOne (w.load own)
  authorized : Passenger.authorizedFile w.file = false → ∀ place, w.outward own place = 0

variable {distance : Position → Position → ℕ} {own : ℕ → Bool} {name : String} {w w' : World}
  {l : Label} {p t : Passenger} {m : Passenger.Msg} {rest new : List Passenger.Msg}
  {effects : List Passenger.Effect} {o : Passenger.Oracle} {d : String}

theorem outward_le (place : Option String) : w.outward own place ≤ w.load own place := by
  cases place with
  | none =>
      simp only [outward, load, search]
      omega
  | some d => exact Nat.le_refl _

theorem search_of_actor (hactor : w.passenger = some (p, rest)) : w.search =
    rest.countP Passenger.Msg.isToken + w.asks.length + w.auths +
      w.up.countP (fun l => l.2.isRequest) + w.down.countP (fun l => l.2.isNo) := by
  rw [search, hactor]
  rfl

/-- The passenger passes the token on. -/
theorem search_handled (hin : Passenger.InStep w.file p (m :: rest))
    (hactor : w.passenger = some (p, m :: rest)) (hlink : w.linkOk p o = true)
    (hh : p.handle distance o m = some (t, effects)) :
    (w.handled o d t rest effects).search ≤ w.search := by
  have hkeeps := Passenger.handle_keeps hh
  have htoken := (Passenger.handle_searches hh).token
    (fun x hx => (Passenger.isSelf_quiet (hkeeps.messages x hx)).1) w.dead ?_
    fun status hm => (hm ▸ hin.settled).fresh.2
  · rw [search_of_actor hactor, @search_of_actor _ t (rest ++ Passenger.selfMessages effects) rfl]
    have hasks : (if w.dead t.serverSender = true then []
        else List.replicate (Passenger.asks effects) t.serverSender).length
        = if w.dead t.serverSender = true then 0 else Passenger.asks effects := by
      split <;> simp
    have hlines : ((Passenger.driverLines effects).map fun l => (l.1.number, l.2)).countP
        (fun l => l.2.isRequest)
        = (Passenger.driverLines effects).countP fun l => l.2.isRequest := by
      rw [List.countP_map]
      rfl
    have hcons : (m :: rest).countP Passenger.Msg.isToken
        = rest.countP Passenger.Msg.isToken + m.isToken.toNat := countP_cons_toNat ..
    simp only [handled, List.countP_append, List.length_append, hasks, hlines, hcons]
    omega
  · rintro rfl
    have hreceiver := hin.linked.receiver (by simp)
    simp only [linkOk, hreceiver, Option.all_some, Bool.and_eq_true, Bool.or_eq_true] at hlink
    rw [hreceiver]
    exact hlink.1

/-- As long as no payment is authorized in the file, nothing has left the passenger. -/
theorem outward_handled (hs : w.Sound own) (hactor : w.passenger = some (p, m :: rest))
    (hh : p.handle distance o m = some (t, effects))
    (hfile : Passenger.authorizedFile (w.handled o d t rest effects).file = false)
    (place : Option String) : (w.handled o d t rest effects).outward own place = 0 := by
  have hin := hs.inStep p _ hactor
  have hsame : m ≠ .requestDrive →
      (w.handled o d t rest effects).outward own place = w.outward own place := by
    intro hm
    cases place with
    | none =>
        have hnone := (Passenger.handle_searches hh).request hm
        have hlines : ((Passenger.driverLines effects).map fun l => (l.1.number, l.2)).countP
            (fun l => l.2.isRequest) = 0 := by
          rw [List.countP_map]
          exact hnone
        simp only [outward, handled, List.countP_append, hlines, Nat.add_zero]
    | some d => rfl
  by_cases hold : Passenger.authorizedFile w.file = false
  · refine (hsame ?_).trans (hs.authorized hold place)
    rintro rfl
    have := hin.settled.memory rfl
    rw [hin.ready.1 rfl, hold] at this
    cases this
  · -- the authorization is lost with a denial, which holds the token
    obtain rfl := hin.revoked hh (by simpa using hold) hfile
    rw [hsame (by simp)]
    have hsearch := search_of_actor hactor
    rw [List.countP_cons_of_pos rfl] at hsearch
    have hone : w.load own none ≤ 1 := hs.token.le_one none
    cases place with
    | none =>
        simp only [outward, load] at hone ⊢
        omega
    | some d =>
        have hzero : w.load own none ≠ 0 := by
          simp only [load]
          omega
        exact hs.token.others hzero (Option.some_ne_none d)

/-- Nothing the passenger has sent changes the drivers. -/
theorem sound_handled (hs : w.Sound own) (hactor : w.passenger = some (p, m :: rest))
    (hlink : w.linkOk p o = true) (hh : p.handle distance o m = some (t, effects)) :
    (w.handled o d t rest effects).Sound own where
  inStep := fun p' mailbox hactor' => by
    obtain ⟨rfl, rfl⟩ := Prod.mk.inj (Option.some.inj hactor')
    exact (hs.inStep p _ hactor).handled hh
  kept := hs.kept
  token := hs.token.mono fun place => by
    cases place with
    | none => exact search_handled (hs.inStep p _ hactor) hactor hlink hh
    | some d => exact Nat.le_refl _
  authorized := outward_handled hs hactor hh

/-- The passenger stops, and nothing it waits for is there any more. -/
theorem sound_endPassenger (hs : w.Sound own) : w.endPassenger.Sound own where
  inStep := fun p mailbox hactor => by cases hactor
  kept := hs.kept
  token := hs.token.mono fun place => by
    cases place with
    | none =>
        simp only [load, search, endPassenger, Option.elim_none, List.countP_nil]
        omega
    | some d => exact Nat.le_refl _
  authorized := hs.authorized

/-- A panic leaves the authorization in the file alone. -/
theorem sound_panicked (hs : w.Sound own) (hactor : w.passenger = some (p, m :: rest)) :
    (w.panicked p m).Sound own := by
  unfold panicked
  split
  · have hend := @sound_endPassenger own w hs
    have hmemory := (hs.inStep p _ hactor).settled.memory rfl
    exact ⟨fun p' mailbox hactor' => (by cases hactor'), hend.kept, hend.token, fun hfile =>
      hend.authorized (hmemory.symm.trans ((Passenger.authorizedIn_status p).symm.trans hfile))⟩
  · exact sound_endPassenger hs

theorem search_enqueue {w₀ : World} (h : w₀.enqueue new = some w') :
    w'.search = w₀.search + new.countP Passenger.Msg.isToken := by
  obtain ⟨⟨p, mailbox⟩, hsome, rfl⟩ := Option.map_eq_some_iff.1 h
  simp only [search, hsome, Option.elim_some, List.countP_append]
  omega

theorem search_answer {i : ℕ} (hi : i < w.asks.length) :
    World.search { w with asks := w.asks.eraseIdx i } + 1 = w.search := by
  have hlength := List.length_eraseIdx_of_lt hi
  simp only [search]
  omega

theorem search_gateway (hauths : 0 < w.auths) :
    World.search { w with auths := w.auths - 1 } + 1 = w.search := by
  simp only [search]
  omega

theorem search_linkDies (k : ℕ) : World.search
    { w with dead := Function.update w.dead k true, asks := w.asks.filter (· ≠ k) } ≤ w.search := by
  have hlength := List.length_filter_le (fun x => decide (x ≠ k)) w.asks
  simp only [search]
  omega

theorem token_answer (isAuthorized : Bool) :
    (Passenger.paymentAuthorizationStatus isAuthorized).countP Passenger.Msg.isToken = 1 := by
  cases isAuthorized <;> rfl

theorem token_notice (hm : m.isNotice = true) : [m].countP Passenger.Msg.isToken = 0 := by
  cases m with
  | completeLogin | reconnectDriver => rfl
  | _ => cases hm

/-- Messages from outside arrive at the passenger, and bring the token with them if it was on its
    way. -/
theorem sound_enqueue {w₀ : World} (hs : w.Sound own) (h : w₀.enqueue new = some w')
    (hactor : w₀.passenger = w.passenger) (hfile : w₀.file = w.file)
    (hdrivers : w₀.drivers = w.drivers) (hnew : ∀ m ∈ new, m.isStartUp = false)
    (hready : ∀ b, Passenger.Ready b new)
    (hsearch : w₀.search + new.countP Passenger.Msg.isToken ≤ w.search)
    (hout : w₀.outward own none ≤ w.outward own none) : w'.Sound own := by
  obtain ⟨⟨p, mailbox⟩, hsome, rfl⟩ := Option.map_eq_some_iff.1 h
  have hin := hs.inStep p mailbox (hactor.symm.trans hsome)
  constructor
  case inStep =>
    intro p' mailbox' hactor'
    obtain ⟨rfl, rfl⟩ := Prod.mk.inj (Option.some.inj hactor')
    show Passenger.InStep w₀.file _ _
    rw [hfile]
    exact hin.append hnew hready
  case kept =>
    intro d
    show (w₀.drivers d).Kept
    rw [hdrivers]
    exact hs.kept d
  case token =>
    refine hs.token.mono fun place => ?_
    cases place with
    | none => exact Nat.le_trans (Nat.le_of_eq (search_enqueue h)) hsearch
    | some d => exact Nat.le_of_eq (congrArg (fun f => (f d).load own) hdrivers)
  case authorized =>
    intro hnone place
    have hnone' : Passenger.authorizedFile w.file = false := hfile ▸ hnone
    cases place with
    | none => exact Nat.le_zero.1 (hs.authorized hnone' none ▸ hout)
    | some d =>
        exact (congrArg (fun f => (f d).load own) hdrivers).trans (hs.authorized hnone' (some d))

/-- A step of one driver that moves the token to or from the lines on their way. -/
theorem sound_driver (hs : w.Sound own) (hpassenger : w'.passenger = w.passenger)
    (hfile : w'.file = w.file) (hothers : ∀ x, x ≠ d → w'.drivers x = w.drivers x)
    (hkept : (w'.drivers d).Kept)
    (hsearch : w'.search + (w'.drivers d).load own ≤ w.search + (w.drivers d).load own)
    (hout : w'.outward own none + w'.outward own (some d) ≤
      w.outward own none + w.outward own (some d)) : w'.Sound own := by
  constructor
  case inStep =>
    rw [hpassenger, hfile]
    exact hs.inStep
  case kept =>
    intro x
    by_cases hx : x = d
    · exact hx ▸ hkept
    · exact hothers x hx ▸ hs.kept x
  case token =>
    refine hs.token.move (Option.some_ne_none d).symm hsearch fun place hnone hd => ?_
    cases place with
    | none => exact absurd rfl hnone
    | some x =>
        have hx : x ≠ d := fun hx => hd (congrArg some hx)
        exact Nat.le_of_eq (congrArg (fun s : Driver.Process => s.load own) (hothers x hx))
  case authorized =>
    intro hnone place
    have hzero := hs.authorized (hfile ▸ hnone)
    rw [hzero none, hzero (some d), Nat.add_zero] at hout
    cases place with
    | none => omega
    | some x =>
        by_cases hx : x = d
        · subst hx
          omega
        · exact (congrArg (fun s : Driver.Process => s.load own) (hothers x hx)).trans
            (hzero (some x))

/-- A line that arrives is no longer on its way. -/
theorem countP_eraseIdx {α : Type} {lines : List α} {i : ℕ} {x : α} (P : α → Bool)
    (h : lines[i]? = some x) :
    lines.countP P = (lines.eraseIdx i).countP P + (P x).toNat := by
  obtain ⟨hi, rfl⟩ := List.getElem?_eq_some_iff.1 h
  have hcount := (List.getElem_cons_eraseIdx_perm hi).countP_eq P
  rw [countP_cons_toNat] at hcount
  exact hcount.symm

theorem load_enqueue {s s' : Driver.Process} {x : Driver.Msg} (h : s.enqueue x = some s') :
    s'.load own = s.load own + (x.isRequestOf own).toNat := by
  obtain ⟨⟨a, mailbox⟩, hactor, rfl⟩ := Option.map_eq_some_iff.1 h
  simp only [Driver.Process.load, Driver.Process.mailbox, hactor, Option.elim_some,
    List.countP_append, List.countP_singleton]
  cases x.isRequestOf own <;> simp [Nat.add_right_comm]

theorem setDriver_same (w : World) (d : String) (s : Driver.Process) :
    (w.setDriver d s).drivers d = s := Function.update_self ..

theorem setDriver_other (w : World) (s : Driver.Process) {x : String} (hx : x ≠ d) :
    (w.setDriver d s).drivers x = w.drivers x := Function.update_of_ne hx ..

/-- Only a request of the passenger is a request in the mailbox. -/
theorem request_toMsg_le {n : ℕ} (line : Passenger.DriverLine) :
    ((line.toMsg n).isRequestOf own).toNat ≤ line.isRequest.toNat := by
  cases line with
  | requestRide => exact Bool.toNat_le _
  | _ => exact Nat.le_refl _

theorem sound_toDriver {i n : ℕ} {line : Passenger.DriverLine} {s : Driver.Process}
    (hs : w.Sound own) (hline : w.up[i]? = some (n, line))
    (h : (w.drivers d).enqueue (line.toMsg n) = some s) :
    Sound own { w.setDriver d s with up := w.up.eraseIdx i } := by
  have hrecovery : (line.toMsg n).isRecovery = false := by cases line <;> rfl
  have hrequest := @request_toMsg_le own n line
  have hcount : w.up.countP (fun l => l.2.isRequest)
      = (w.up.eraseIdx i).countP (fun l => l.2.isRequest) + line.isRequest.toNat :=
    countP_eraseIdx _ hline
  have hload : s.load own
      = (w.drivers d).load own + ((line.toMsg n).isRequestOf own).toNat :=
    load_enqueue h
  refine @sound_driver own w _ d hs rfl rfl
    (fun x hx => setDriver_other w s hx) ?_ ?_ ?_
  · show ((w.setDriver d s).drivers d).Kept
    rw [setDriver_same]
    exact (hs.kept d).enqueue hrecovery h
  · show _ + ((w.setDriver d s).drivers d).load own ≤ _
    rw [setDriver_same]
    simp only [search, setDriver]
    omega
  · show _ + ((w.setDriver d s).drivers d).load own ≤ _
    rw [setDriver_same]
    simp only [outward, setDriver]
    omega

theorem sound_drives {o : Driver.Oracle} {s : Driver.Process} {effects : List Driver.Effect}
    {lines : List (ℕ × Driver.PassengerLine)} (hs : w.Sound own)
    (hrecv : (w.drivers d).recv o = some (s, effects))
    (hlines : lines = (Driver.passengerLines effects).filter fun l => own l.1) : Sound own
      { w.setDriver d s with
        down := w.down ++ lines
        accepted := w.accepted + lines.countP fun l => l.2.isOk } := by
  subst hlines
  have hload := @Driver.Process.load_recv own _ _ _ _ (hs.kept d) hrecv
  unfold Driver.refusals at hload
  refine @sound_driver own w _ d hs rfl rfl (fun x hx => setDriver_other w s hx) ?_ ?_ ?_
  · show ((w.setDriver d s).drivers d).Kept
    rw [setDriver_same]
    exact (hs.kept d).recv hrecv
  · show _ + ((w.setDriver d s).drivers d).load own ≤ _
    rw [setDriver_same]
    simp only [search, setDriver, List.countP_append]
    omega
  · show _ + ((w.setDriver d s).drivers d).load own ≤ _
    rw [setDriver_same]
    simp only [outward, setDriver, List.countP_append]
    omega

theorem sound_toPassenger {i n : ℕ} {line : Driver.PassengerLine} {mailbox : List Passenger.Msg}
    (hs : w.Sound own) (hline : w.down[i]? = some (n, line))
    (hactor : w.passenger = some (p, mailbox)) : Sound own
      { w with
        passenger := some (p, mailbox ++ [line.toMsg])
        down := w.down.eraseIdx i
        arrivals := if line.isArrived then w.arrivals + 1 else w.arrivals } := by
  have hcount : w.down.countP (fun l => l.2.isNo)
      = (w.down.eraseIdx i).countP (fun l => l.2.isNo) + line.isNo.toNat :=
    countP_eraseIdx _ hline
  have htoken : [line.toMsg].countP Passenger.Msg.isToken = line.isNo.toNat := by
    cases line <;> rfl
  have harrives : enqueue
      { w with
        down := w.down.eraseIdx i
        arrivals := if line.isArrived then w.arrivals + 1 else w.arrivals } [line.toMsg]
      = some { w with
        passenger := some (p, mailbox ++ [line.toMsg])
        down := w.down.eraseIdx i
        arrivals := if line.isArrived then w.arrivals + 1 else w.arrivals } :=
    Option.map_eq_some_iff.2 ⟨(p, mailbox), hactor, rfl⟩
  refine sound_enqueue hs harrives rfl rfl rfl ?_ ?_ ?_ ?_
  · intro m hm
    rw [List.mem_singleton.1 hm]
    cases line <;> rfl
  · refine Passenger.ready_of_quiet fun m hm => ?_
    rw [List.mem_singleton.1 hm]
    cases line <;> simp [Driver.PassengerLine.toMsg]
  · rw [htoken]
    simp only [search]
    omega
  · simp only [outward]
    omega

/-- A line of the leader that is no answer leaves the token where it is. -/
theorem sound_notice (hs : w.Sound own) (hm : m.isNotice = true) (h : w.enqueue [m] = some w') :
    w'.Sound own := by
  have hquiet : m.isStartUp = false ∧ m ≠ .requestDrive := by
    cases m with
    | completeLogin | reconnectDriver => exact ⟨rfl, by simp⟩
    | _ => cases hm
  refine sound_enqueue hs h rfl rfl rfl (fun x hx => List.mem_singleton.1 hx ▸ hquiet.1) ?_ ?_
    (Nat.le_refl _)
  · exact Passenger.ready_of_quiet fun x hx => List.mem_singleton.1 hx ▸ hquiet.2
  · exact Nat.le_of_eq (congrArg (w.search + ·) (token_notice hm))

theorem sound_answer {i : ℕ} {driversInfo : List Passenger.DriverInfo} (hs : w.Sound own)
    (hi : i < w.asks.length)
    (h : { w with asks := w.asks.eraseIdx i }.enqueue [.drivers driversInfo] = some w') :
    w'.Sound own := by
  refine sound_enqueue hs h rfl rfl rfl (by simp [Passenger.Msg.isStartUp])
    (Passenger.ready_of_quiet (by simp)) (Nat.le_of_eq (search_answer hi)) (Nat.le_refl _)

theorem sound_gateway {isAuthorized : Bool} (hs : w.Sound own) (hauths : 0 < w.auths)
    (h : { w with auths := w.auths - 1 }.enqueue
      (Passenger.paymentAuthorizationStatus isAuthorized) = some w') : w'.Sound own := by
  refine sound_enqueue hs h rfl rfl rfl ?_
    (Passenger.ready_paymentAuthorizationStatus isAuthorized) ?_ (Nat.le_refl _)
  · cases isAuthorized <;> simp [Passenger.paymentAuthorizationStatus, Passenger.Msg.isStartUp]
  · rw [token_answer]
    exact Nat.le_of_eq (search_gateway hauths)

theorem sound_linkDies {k : ℕ} (hs : w.Sound own) : Sound own
    { w with dead := Function.update w.dead k true, asks := w.asks.filter (· ≠ k) } where
  inStep := hs.inStep
  kept := hs.kept
  token := hs.token.mono fun place => by
    cases place with
    | none => exact search_linkDies k
    | some d => exact Nat.le_refl _
  authorized := hs.authorized

/-- What `main` puts in the mailbox is in step with the file. -/
theorem inStep_launched {position destination : Position} {k : ℕ} {recovery : Bool}
    {file : Option Json} :
    Passenger.InStep file (Passenger.start name position destination recovery k)
      (launched name k file) where
  linked := .inl ⟨_, rfl, by cases file <;> simp⟩
  settled := by
    cases file with
    | none => exact .running rfl (by simp [launched])
    | some status =>
        have hpre : ∀ m ∈ [Passenger.Msg.setReceiver k], ∃ k, m = .setReceiver k :=
          fun m hm => ⟨k, List.mem_singleton.1 hm⟩
        exact .reading rfl hpre rfl (by simp)
  ready := by
    cases file <;> simp [launched, Passenger.Ready]

/-- **A restart searches again only when nothing has left the passenger.** -/
theorem sound_restart {position destination : Position} {k : ℕ} (hs : w.Sound own) :
    (w.restart name position destination k).Sound own := by
  have htoken : (launched name k w.file).countP Passenger.Msg.isToken
      = (!Passenger.authorizedFile w.file).toNat := by
    cases w.file with
    | none => rfl
    | some status =>
        have hreceiver : ¬ (Passenger.Msg.setReceiver k).isToken = true := by
          simp [Passenger.Msg.isToken, Passenger.Msg.isSearch]
        rw [launched, List.countP_cons_of_neg hreceiver, List.countP_singleton]
        show (if (!Passenger.authorizedIn status) = true then 1 else 0)
          = (!Passenger.authorizedIn status).toNat
        cases Passenger.authorizedIn status <;> rfl
  have hsearch : (w.restart name position destination k).search
      = (!Passenger.authorizedFile w.file).toNat + w.outward own none := by
    simp only [search, restart, Option.elim_some, htoken, List.length_nil, outward]
    omega
  constructor
  case inStep =>
    intro p mailbox hactor
    obtain ⟨rfl, rfl⟩ := Prod.mk.inj (Option.some.inj hactor)
    exact inStep_launched
  case kept => exact hs.kept
  case token =>
    cases hauth : Passenger.authorizedFile w.file with
    | true =>
        refine hs.token.mono fun place => ?_
        cases place with
        | none =>
            rw [load, hsearch, hauth]
            have := @outward_le own w none
            simpa using this
        | some d => exact Nat.le_refl _
    | false =>
        have hzero := hs.authorized hauth
        refine @AtMostOne.single _ _ none ?_ fun place hne => ?_
        · rw [load, hsearch, hauth, hzero none]
          exact Nat.le_refl _
        · cases place with
          | none => exact absurd rfl hne
          | some d => exact hzero (some d)
  case authorized => exact hs.authorized

theorem sound_crashDriver {s : Driver.Process} (hs : w.Sound own)
    (h : (w.drivers d).step d .crash = some s) : (w.setDriver d s).Sound own := by
  cases Driver.Process.step_cases h
  have hload : ({ w.drivers d with actor := none } : Driver.Process).load own
      ≤ (w.drivers d).load own := Nat.add_le_add_right (Nat.zero_le _) _
  refine @sound_driver own w _ d hs rfl rfl (fun x hx => setDriver_other w _ hx) ?_ ?_ ?_
  · rw [setDriver_same]
    intro a mailbox hactor
    cases hactor
  · rw [setDriver_same]
    exact Nat.add_le_add_left hload _
  · show _ + ((w.setDriver d _).drivers d).load own ≤ _
    rw [setDriver_same]
    exact Nat.add_le_add_left hload _

/-- A driver that is started has saved nothing since, and no request waits. -/
theorem started {s s' : Driver.Process} {at_ : Driver.Launch}
    (h : s.step d (startLabel s at_) = some s') :
    s'.Kept ∧ s'.versions = s.versions ∧ s'.mailbox.countP (Driver.Msg.isRequestOf own) = 0 := by
  unfold startLabel at h
  split at h
  · next hnone =>
      refine ⟨Driver.Process.kept_launch hnone h, ?_⟩
      cases Driver.Process.step_cases h
      exact ⟨rfl, rfl⟩
  · refine ⟨Driver.Process.kept_recover h, ?_⟩
    cases Driver.Process.step_cases h
    exact ⟨rfl, rfl⟩

theorem sound_startDriver {s : Driver.Process} {at_ : Driver.Launch} (hs : w.Sound own)
    (h : (w.drivers d).step d (startLabel (w.drivers d) at_) = some s) : Sound own
    { w.setDriver d s with starts := Function.update w.starts d (w.starts d + 1) } := by
  obtain ⟨hkept, hversions, hnone⟩ := @started own _ _ _ _ h
  have hload : s.load own ≤ (w.drivers d).load own := by
    rw [Driver.Process.load, hnone, hversions]
    exact Nat.add_le_add_right (Nat.zero_le _) _
  refine @sound_driver own w _ d hs rfl rfl (fun x hx => setDriver_other w _ hx) ?_ ?_ ?_
  · show ((w.setDriver d s).drivers d).Kept
    rw [setDriver_same]
    exact hkept
  · show _ + ((w.setDriver d s).drivers d).load own ≤ _
    rw [setDriver_same]
    exact Nat.add_le_add_left hload _
  · show _ + ((w.setDriver d s).drivers d).load own ≤ _
    rw [setDriver_same]
    exact Nat.add_le_add_left hload _

theorem sound_foreign {x : Driver.Msg} {s : Driver.Process} (hs : w.Sound own)
    (hx : x.isForeign own = true) (h : (w.drivers d).enqueue x = some s) :
    (w.setDriver d s).Sound own := by
  have hquiet : x.isRecovery = false ∧ x.isRequestOf own = false := by
    cases x with
    | requestRide r => exact ⟨rfl, (Bool.not_eq_true' _).mp hx⟩
    | newConnection | passengerRecover | reconnectPassenger => exact ⟨rfl, rfl⟩
    | _ => cases hx
  have hload := @load_enqueue own _ _ _ h
  rw [hquiet.2] at hload
  refine @sound_driver own w _ d hs rfl rfl (fun x hx => setDriver_other w s hx) ?_ ?_ ?_
  · rw [setDriver_same]
    exact (hs.kept d).enqueue hquiet.1 h
  · rw [setDriver_same, hload]
    exact Nat.le_refl _
  · show _ + ((w.setDriver d s).drivers d).load own ≤ _
    rw [setDriver_same, hload]
    exact Nat.le_refl _

theorem sound_step (hs : w.Sound own) (h : step distance own name w l = some w') :
    w'.Sound own := by
  cases step_cases h with
  | handles hactor hlink hh => exact sound_handled hs hactor hlink hh
  | panics hactor => exact sound_panicked hs hactor
  | notice hm hnext => exact sound_notice hs hm hnext
  | answer hi hnext => exact sound_answer hs hi hnext
  | gateway hauths hnext => exact sound_gateway hs hauths hnext
  | linkDies k => exact sound_linkDies hs
  | toDriver hline hnext => exact sound_toDriver hs hline hnext
  | toPassenger hline hactor => exact sound_toPassenger hs hline hactor
  | drives hrecv hlines => exact sound_drives hs hrecv hlines
  | foreign hm hnext => exact sound_foreign hs hm hnext
  | crashPassenger => exact sound_endPassenger hs
  | restartPassenger => exact sound_restart hs
  | crashDriver hnext => exact sound_crashDriver hs hnext
  | startDriver hnext => exact sound_startDriver hs hnext

theorem sound_init (name : String) (position destination : Position) (k : ℕ) :
    (init name position destination k).Sound own where
  inStep := fun p mailbox hactor => by
    obtain ⟨rfl, rfl⟩ := Prod.mk.inj (Option.some.inj hactor)
    exact inStep_launched
  kept := fun d a mailbox hactor => by cases hactor
  token := @AtMostOne.single _ _ none (Nat.le_refl _) fun place hne => by
    cases place with
    | none => exact absurd rfl hne
    | some d => rfl
  authorized := fun _ place => by cases place <;> rfl

end World

/-- The driver is on a ride it has accepted from the passenger with the `own` connections. -/
def Driver.Process.Serves (own : ℕ → Bool) (s : Driver.Process) : Prop :=
  ∃ a mailbox, s.actor = some (a, mailbox) ∧ a.isAvailable = false ∧ Driver.isOwn own s.ride = true

theorem Driver.Process.Kept.serves {own : ℕ → Bool} {s : Driver.Process} (hk : s.Kept)
    (h : s.Serves own) : s.load own ≠ 0 := by
  obtain ⟨a, mailbox, hactor, hbusy, hown⟩ := h
  have hholds : s.versions.head?.any (Driver.Version.holds own) = true := by
    cases hk a mailbox hactor with
    | running _ hfile hride => rw [Driver.holds_of_busy hbusy hfile hride, hown]
    | starting _ _ _ hfree => exact absurd (hbusy.symm.trans hfree) Bool.false_ne_true
  rw [Driver.Process.load, hholds]
  exact Nat.succ_ne_zero _

namespace World

variable {distance : Position → Position → ℕ} {own : ℕ → Bool} {name : String} {w : World}
  {ls : List Label}

/-- **No double booking.** In every run of a passenger and the drivers, with any crashes and
    restarts of both, two drivers are never on a ride they have accepted from this passenger. -/
theorem no_double_booking {position destination : Position} {k : ℕ}
    (h : Run (step distance own name) (fun _ _ => True) (init name position destination k) ls w)
    {d₁ d₂ : String} (h₁ : (w.drivers d₁).Serves own) (h₂ : (w.drivers d₂).Serves own) :
    d₁ = d₂ := by
  have hs : w.Sound own := h.invariant (fun _ _ _ hs _ hst => sound_step hs hst)
    (sound_init name position destination k)
  by_contra hne
  have hzero := hs.token.others (p := some d₁) ((hs.kept d₁).serves h₁)
    (fun heq => hne (Option.some.inj heq).symm)
  exact (hs.kept d₂).serves h₂ hzero

def mario : Driver.Launch := ⟨(5, 3), "127.0.0.1:40000", ⟨⟨1, 1⟩, 0⟩⟩

/-- Passenger "peach" asks driver "mario" for a ride and crashes. The driver accepts, crashes on its
    way to the passenger, and reads its state back. -/
def crashes : List Label :=
  [.startDriver "mario" mario, .drives "mario" Driver.Process.up, .drives "mario" Driver.Process.up,
    .recv .up "", .recv .up "", .notice (.completeLogin 1), .recv .up "", .recv .up "",
    .answer 0 [⟨"127.0.0.1:40000", (5, 3)⟩],
    .recv { connected := true, driver := some 1, server := none } "mario", .gateway true,
    .recv .up "", .recv .up "", .toDriver 0, .crashPassenger, .restartPassenger (2, 2) (8, 8) 1,
    .drives "mario" Driver.Process.up, .crashDriver "mario", .startDriver "mario" mario,
    .drives "mario" Driver.Process.up, .drives "mario" Driver.Process.up]

theorem no_double_booking_crashes : ∃ w : World, (w.drivers "mario").Serves (fun _ => true) ∧
    ∀ d, (w.drivers d).Serves (fun _ => true) → d = "mario" := by
  obtain ⟨w, hrun, hbusy⟩ := exists_run_of_exec (fun _ _ => true)
    (init "peach" (2, 2) (8, 8) 0) crashes
    (fun (w : World) => (w.drivers "mario").actor.any (fun (a : Driver × List Driver.Msg) =>
      !a.1.isAvailable) && Driver.isOwn (fun _ => true) (w.drivers "mario").ride)
    (show (exec (step (fun _ _ => 1) (fun _ => true) "peach") _ _ _).any _ = true by
      decide +kernel)
  rw [Bool.and_eq_true] at hbusy
  obtain ⟨⟨a, mailbox⟩, hactor, hav⟩ := Option.any_eq_true _ _ |>.1 hbusy.1
  have hserves : (w.drivers "mario").Serves (fun _ => true) :=
    ⟨a, mailbox, hactor, (Bool.not_eq_true' _).mp hav, hbusy.2⟩
  exact ⟨w, hserves, fun d hd => no_double_booking (hrun.mono fun _ _ _ => trivial) hd hserves⟩

end World

end ConcuRide
