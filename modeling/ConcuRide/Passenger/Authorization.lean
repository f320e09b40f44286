import ConcuRide.Passenger.Payments
import ConcuRide.Passenger.Search

set_option autoImplicit false

/-! # The saved authorization

A passenger saves whether its payment is authorized, and reads it back when it is started again.
Once it has read its file, memory and file agree, and a `RequestDrive` only waits behind the
`PaymentAuthorized` that came with it. -/

namespace ConcuRide.Passenger

open Lib

/-- The authorization in a saved state. -/
def authorizedIn (status : Json) : Bool := (status.get "payment_authorized").asBool == some true

/-- The messages only `main` sends. -/
def Msg.isStartUp : Msg → Bool
  | .setReceiver _ | .recover _ => true
  | _ => false

/-- The authorization after a message. -/
def authorizationAfter (a : Bool) : Msg → Bool
  | .paymentAuthorized => true
  | .paymentDeny => false
  | .recover status => authorizedIn status
  | _ => a

/-- Every `RequestDrive` of a mailbox is handled with an authorization, when there is one now or `a`
    is false. -/
def Ready : Bool → List Msg → Prop
  | _, [] => True
  | a, m :: rest => (m = .requestDrive → a = true) ∧ Ready (authorizationAfter a m) rest

/-- The messages a passenger may send itself. -/
def Msg.isSelf : Msg → Bool
  | .setReceiver _ | .recover _ | .requestDrive | .driverArrived | .recoverResponse _ => false
  | _ => true

/-- What handling `m` does to the connection with the leader and to the file. -/
structure Keeps (p : Passenger) (m : Msg) (t : Passenger) (sent : List Msg) (saved : List Json) :
    Prop where
  messages : ∀ x ∈ sent, x.isSelf = true
  link : (∀ k, m ≠ .setReceiver k) →
    t.serverReceiver = p.serverReceiver ∧ t.serverSender = p.serverSender ∨
      t.serverReceiver = some t.serverSender
  states : saved = [] ∨ m.isStartUp = false ∧
    ∃ q : Passenger, saved = [q.status] ∧ q.paymentAuthorized = t.paymentAuthorized
  answered : m = .paymentAuthorized ∨ m = .paymentDeny → saved ≠ []

variable {distance : Position → Position → ℕ} {o : Oracle} {p t : Passenger} {m : Msg}
  {rest self new : List Msg} {saved : List Json} {effects : List Effect} {a : Bool}

theorem authorizedIn_status (p : Passenger) : authorizedIn p.status = p.paymentAuthorized := by
  have hget : p.status.get "payment_authorized" = .bool p.paymentAuthorized :=
    Json.get_object "payment_authorized" _
  rw [authorizedIn, hget]
  cases p.paymentAuthorized <;> rfl

/-! ## What handlers keep -/

/-- A handler that saves nothing. -/
theorem Keeps.quiet (hself : ∀ x ∈ self, x.isSelf = true)
    (hreceiver : t.serverReceiver = p.serverReceiver) (hsender : t.serverSender = p.serverSender)
    (hm : ¬ (m = .paymentAuthorized ∨ m = .paymentDeny)) : Keeps p m t self [] where
  messages := hself
  link := fun _ => .inl ⟨hreceiver, hsender⟩
  states := .inl rfl
  answered := fun h => absurd h hm

/-- A handler that saves the state once. -/
theorem Keeps.saving (q : Passenger) (hself : ∀ x ∈ self, x.isSelf = true)
    (hreceiver : t.serverReceiver = p.serverReceiver) (hsender : t.serverSender = p.serverSender)
    (hm : m.isStartUp = false) (hauth : q.paymentAuthorized = t.paymentAuthorized) :
    Keeps p m t self [q.status] where
  messages := hself
  link := fun _ => .inl ⟨hreceiver, hsender⟩
  states := .inr ⟨hm, q, rfl, hauth⟩
  answered := by simp

/-- The outcome of a handler, in the form `Keeps` is stated in. -/
def KeepsBy (p : Passenger) (m : Msg) (t : Passenger) (effects : List Effect) : Prop :=
  Keeps p m t (selfMessages effects) (saves effects)

theorem keeps_sendToServer (connected : Bool) (line : ServerLine)
    (hm : ¬ (m = .paymentAuthorized ∨ m = .paymentDeny)) :
    KeepsBy p m p (p.sendToServer connected line) := by
  unfold KeepsBy sendToServer
  split
  · exact .quiet (by simp [selfMessages]) rfl rfl hm
  · exact .quiet (by simp [selfMessages, Msg.isSelf]) rfl rfl hm

/-- **Every handler keeps the connection with the leader and the file in order.** -/
theorem handle_keeps (h : p.handle distance o m = some (t, effects)) : KeepsBy p m t effects := by
  cases handle_outcome h with
  | setReceiver receiver =>
      exact ⟨by simp [selfMessages], fun hm => absurd rfl (hm receiver), .inl rfl, by simp⟩
  | getDrivers | login => exact keeps_sendToServer o.connected _ (by simp)
  | nobody | unreachable | dials =>
      exact .saving _ (by simp [selfMessages, saveState, Msg.isSelf]) rfl rfl rfl rfl
  | travels | arrives =>
      exact .saving p (by simp [selfMessages, saveState, finishRide, Msg.isSelf]) rfl rfl rfl rfl
  | rideAccepted | paymentAuthorized | paymentDeny =>
      exact .saving _ (by simp [selfMessages, saveState, Msg.isSelf]) rfl rfl rfl rfl
  | newServer => exact ⟨by simp [selfMessages], fun _ => .inr rfl, .inl rfl, by simp⟩
  | driverArrived | completeLogin | requestDrive | keepLooking | rideEnded | rideGoesOn | rideWaits
  | noServer | noDriver | newDriver | recoversPaid | recoversDenied | recoversRide
  | recoversAlone =>
      exact .quiet (by simp [selfMessages, finishRide, Msg.isSelf]) rfl rfl (by simp)

/-- What a handler does to the authorization. -/
theorem handle_authorized (h : p.handle distance o m = some (t, effects))
    (hp : ∀ status, m = .recover status → p.paymentAuthorized = false) :
    t.paymentAuthorized = authorizationAfter p.paymentAuthorized m := by
  cases handle_outcome h with
  | recoversPaid status | recoversDenied status | recoversRide status | recoversAlone status =>
      simp only [restore, authorizationAfter, authorizedIn, hp status rfl]
      cases (status.get "payment_authorized").asBool with
      | none => rfl
      | some b => cases b <;> rfl
  | _ => rfl

/-! ## The mailbox -/

theorem Ready.append (h : Ready a rest) (hnew : ∀ b, Ready b new) : Ready a (rest ++ new) := by
  induction rest generalizing a with
  | nil => exact hnew a
  | cons m rest ih => exact ⟨h.1, ih h.2⟩

theorem ready_of_quiet (h : ∀ m ∈ new, m ≠ .requestDrive) (b : Bool) : Ready b new := by
  induction new generalizing b with
  | nil => trivial
  | cons m new ih =>
      exact ⟨fun hm => absurd hm (h m List.mem_cons_self),
        ih (fun x hx => h x (List.mem_cons_of_mem m hx)) _⟩

theorem ready_paymentAuthorizationStatus (isAuthorized b : Bool) :
    Ready b (paymentAuthorizationStatus isAuthorized) := by
  cases isAuthorized <;> simp [paymentAuthorizationStatus, Ready, authorizationAfter]

/-- The authorization in the file; there is none without a file. -/
def authorizedFile (file : Option Json) : Bool := file.any authorizedIn

/-- The file after the states of a handler are saved. -/
def fileAfter (file : Option Json) (saved : List Json) : Option Json :=
  saved.foldl (fun _ status => some status) file

/-- How far a passenger is with its connection, by its mailbox: it has its receiver, or handles
    `SetReceiver` next. -/
def Linked (p : Passenger) (mailbox : List Msg) : Prop :=
  (∃ rest, mailbox = .setReceiver p.serverSender :: rest ∧
    ∀ m ∈ rest, ∀ k, m ≠ .setReceiver k) ∨
  p.serverReceiver = some p.serverSender ∧ ∀ m ∈ mailbox, ∀ k, m ≠ .setReceiver k

/-- The passenger has read its file, or does so before anything but `SetReceiver`. -/
inductive Settled (file : Option Json) (p : Passenger) : List Msg → Prop
  | reading {pre post : List Msg} {status : Json} (hfile : file = some status)
      (hpre : ∀ m ∈ pre, ∃ k, m = .setReceiver k) (hfresh : p.paymentAuthorized = false)
      (hread : ∀ m ∈ post, ∀ status, m ≠ .recover status) :
      Settled file p (pre ++ .recover status :: post)
  | running {mailbox : List Msg} (hmemory : p.paymentAuthorized = authorizedFile file)
      (hread : ∀ m ∈ mailbox, ∀ status, m ≠ .recover status) : Settled file p mailbox

/-- A passenger in step with its file. -/
structure InStep (file : Option Json) (p : Passenger) (mailbox : List Msg) : Prop where
  linked : Linked p mailbox
  settled : Settled file p mailbox
  ready : Ready p.paymentAuthorized mailbox

variable {file : Option Json} {mailbox : List Msg}

/-- A passenger sends itself no message that only comes from outside. -/
theorem isSelf_quiet (hm : m.isSelf = true) :
    m.isStartUp = false ∧ m ≠ .requestDrive ∧ m.isReport = false := by
  cases m with
  | setReceiver | recover | requestDrive | driverArrived | recoverResponse => cases hm
  | _ => exact ⟨rfl, by simp, rfl⟩

theorem ne_setReceiver (hm : m.isStartUp = false) (k : ℕ) : m ≠ .setReceiver k := by
  rintro rfl
  cases hm

theorem ne_recover (hm : m.isStartUp = false) (status : Json) : m ≠ .recover status := by
  rintro rfl
  cases hm

theorem Linked.append (h : Linked p mailbox) (hnew : ∀ m ∈ new, m.isStartUp = false) :
    Linked p (mailbox ++ new) := by
  have hlater : ∀ m ∈ new, ∀ k, m ≠ .setReceiver k := fun m hm => ne_setReceiver (hnew m hm)
  rcases h with ⟨rest, rfl, hrest⟩ | ⟨hreceiver, hbox⟩
  · exact .inl ⟨rest ++ new, rfl, List.forall_mem_append.2 ⟨hrest, hlater⟩⟩
  · exact .inr ⟨hreceiver, List.forall_mem_append.2 ⟨hbox, hlater⟩⟩

theorem Settled.append (h : Settled file p mailbox) (hnew : ∀ m ∈ new, m.isStartUp = false) :
    Settled file p (mailbox ++ new) := by
  have hlater : ∀ m ∈ new, ∀ status, m ≠ .recover status := fun m hm => ne_recover (hnew m hm)
  cases h with
  | reading hfile hpre hfresh hread =>
      rw [List.append_assoc, List.cons_append]
      exact .reading hfile hpre hfresh (List.forall_mem_append.2 ⟨hread, hlater⟩)
  | running hmemory hread => exact .running hmemory (List.forall_mem_append.2 ⟨hread, hlater⟩)

/-- Messages from outside leave the passenger in step. -/
theorem InStep.append (h : InStep file p mailbox) (hnew : ∀ m ∈ new, m.isStartUp = false)
    (hready : ∀ b, Ready b new) : InStep file p (mailbox ++ new) where
  linked := h.linked.append hnew
  settled := h.settled.append hnew
  ready := h.ready.append hready

/-- What the passenger handles next. -/
inductive Settled.Head (file : Option Json) (p : Passenger) : Msg → List Msg → Prop
  | links {k : ℕ} {rest : List Msg}
      (hafter : ∀ t : Passenger, t.paymentAuthorized = false → Settled file t rest)
      (hfresh : p.paymentAuthorized = false) : Head file p (.setReceiver k) rest
  | reads {status : Json} {rest : List Msg} (hfile : file = some status)
      (hfresh : p.paymentAuthorized = false) (hrest : ∀ m ∈ rest, ∀ status, m ≠ .recover status) :
      Head file p (.recover status) rest
  | running {m : Msg} {rest : List Msg} (hmemory : p.paymentAuthorized = authorizedFile file)
      (hm : ∀ status, m ≠ .recover status) (hrest : ∀ m ∈ rest, ∀ status, m ≠ .recover status) :
      Head file p m rest

theorem Settled.head (h : Settled file p (m :: rest)) : Settled.Head file p m rest := by
  generalize hbox : m :: rest = mailbox at h
  cases h with
  | @reading pre post status hfile hpre hfresh hread =>
      cases pre with
      | nil =>
          obtain ⟨rfl, rfl⟩ := List.cons.inj hbox
          exact .reads hfile hfresh hread
      | cons x pre =>
          obtain ⟨rfl, rfl⟩ := List.cons.inj hbox
          obtain ⟨k, rfl⟩ := hpre _ List.mem_cons_self
          exact .links (fun _ ht => .reading hfile (fun x hx => hpre x (List.mem_cons_of_mem _ hx))
            ht hread) hfresh
  | running hmemory hread =>
      subst hbox
      exact .running hmemory (hread m List.mem_cons_self)
        fun x hx => hread x (List.mem_cons_of_mem m hx)

/-- A passenger reads a state into a memory that is still empty. -/
theorem Settled.fresh {status : Json} (h : Settled file p (.recover status :: rest)) :
    file = some status ∧ p.paymentAuthorized = false := by
  cases h.head with
  | reads hfile hfresh => exact ⟨hfile, hfresh⟩
  | running _ hm => exact absurd rfl (hm status)

/-- Memory and file agree once the passenger has read its file. -/
theorem Settled.memory (h : Settled file p (m :: rest)) (hm : m.isStartUp = false) :
    p.paymentAuthorized = authorizedFile file := by
  cases h.head with
  | links | reads => cases hm
  | running hmemory => exact hmemory

/-- A passenger handles `SetReceiver` first, or has its receiver. -/
theorem Linked.receiver (h : Linked p (m :: rest)) (hm : ∀ k, m ≠ .setReceiver k) :
    p.serverReceiver = some p.serverSender := by
  rcases h with ⟨rest', hbox, -⟩ | ⟨hreceiver, -⟩
  · exact absurd (List.cons.inj hbox).1 (hm _)
  · exact hreceiver

theorem Linked.handled (h : Linked p (m :: rest)) (hh : p.handle distance o m = some (t, effects)) :
    Linked t (rest ++ selfMessages effects) := by
  have hkeeps := handle_keeps hh
  refine Linked.append ?_ fun x hx => (isSelf_quiet (hkeeps.messages x hx)).1
  rcases h with ⟨rest', hbox, hrest⟩ | ⟨hreceiver, hbox⟩
  · obtain ⟨rfl, rfl⟩ := List.cons.inj hbox
    obtain ⟨rfl, -⟩ := Prod.mk.inj (Option.some.inj hh)
    exact .inr ⟨rfl, hrest⟩
  · refine .inr ⟨?_, fun x hx => hbox x (List.mem_cons_of_mem m hx)⟩
    rcases hkeeps.link (hbox m List.mem_cons_self) with ⟨hrec, hsend⟩ | hnew
    · rw [hrec, hsend, hreceiver]
    · exact hnew

theorem Settled.handled (h : Settled file p (m :: rest))
    (hh : p.handle distance o m = some (t, effects)) :
    Settled (fileAfter file (saves effects)) t (rest ++ selfMessages effects) := by
  have hkeeps := handle_keeps hh
  have hauth : t.paymentAuthorized = authorizationAfter p.paymentAuthorized m :=
    handle_authorized hh fun status hm => (hm ▸ h).fresh.2
  have hstartUp : m.isStartUp = true → saves effects = [] := fun hm =>
    hkeeps.states.resolve_right fun hsaved => by simp [hm] at hsaved
  refine Settled.append ?_ fun x hx => (isSelf_quiet (hkeeps.messages x hx)).1
  cases h.head with
  | links hafter hfresh =>
      rw [hstartUp rfl]
      exact hafter t (hauth.trans hfresh)
  | reads hfile hfresh hrest =>
      rw [hstartUp rfl]
      refine .running ?_ hrest
      rw [hauth, hfile]
      rfl
  | running hmemory hm hrest =>
      refine .running ?_ hrest
      rcases hkeeps.states with hnone | ⟨-, q, hsaved, hq⟩
      · rw [hauth, hnone]
        cases m with
        | paymentAuthorized => exact absurd hnone (hkeeps.answered (.inl rfl))
        | paymentDeny => exact absurd hnone (hkeeps.answered (.inr rfl))
        | recover status => exact absurd rfl (hm status)
        | _ => exact hmemory
      · rw [hsaved, ← hq]
        exact (authorizedIn_status q).symm

/-- **A handler keeps the passenger in step with its file.** -/
theorem InStep.handled (h : InStep file p (m :: rest))
    (hh : p.handle distance o m = some (t, effects)) :
    InStep (fileAfter file (saves effects)) t (rest ++ selfMessages effects) where
  linked := h.linked.handled hh
  settled := h.settled.handled hh
  ready := by
    rw [handle_authorized hh fun status hm => (hm ▸ h.settled).fresh.2]
    exact h.ready.2.append
      (ready_of_quiet fun x hx => (isSelf_quiet ((handle_keeps hh).messages x hx)).2.1)

/-- An authorization is lost with `PaymentDeny` only. -/
theorem InStep.revoked (h : InStep file p (m :: rest))
    (hh : p.handle distance o m = some (t, effects)) (hold : authorizedFile file = true)
    (hnew : authorizedFile (fileAfter file (saves effects)) = false) : m = .paymentDeny := by
  rcases (handle_keeps hh).states with hnone | ⟨hm, q, hsaved, hq⟩
  · rw [hnone] at hnew
    exact absurd (hold.symm.trans hnew) (by simp)
  · have hafter : authorizationAfter p.paymentAuthorized m = false := by
      rw [← handle_authorized hh fun status hm => (hm ▸ h.settled).fresh.2, ← hq,
        ← authorizedIn_status]
      rw [hsaved] at hnew
      exact hnew
    rw [h.settled.memory hm, hold] at hafter
    cases m with
    | paymentDeny => rfl
    | recover => cases hm
    | _ => cases hafter

end ConcuRide.Passenger
