import ConcuRide.Passenger.Authorization

set_option autoImplicit false

/-! # The recovery of a passenger

What a passenger reads back of a saved state, and whether it goes on from there. `payment_confirmed`
is written under the key `id`, where the id replaces it: it is never read back. A passenger whose
payment was authorized, but which no driver has accepted yet, does nothing once it has logged in. -/

namespace ConcuRide.Passenger

open Lib

variable {distance : Position → Position → ℕ} {o : Oracle} {p t : Passenger} {m : Msg}
  {effects : List Effect} {status : Json}

/-! ## Reading back a saved state -/

theorem status_get (p : Passenger) (key : String) : p.status.get key = (([
      ("drivers", .arr (p.driversInfo.map fun d => .object
        [("socket", .str d.socket), ("position", .arr [.num d.position.1, .num d.position.2])])),
      ("driver_socket", .ofOption .str p.driverSocket),
      ("payment_authorized", .bool p.paymentAuthorized),
      ("id", .bool p.paymentConfirmed),
      ("id", .num p.info.id) ] : List (String × Json)).reverse.lookup key).getD .null :=
  Json.get_object key _

/-- What is read back of a saved state. -/
theorem restore_status (p saved : Passenger) : p.restore saved.status = { p with
    info := { p.info with id := saved.info.id }
    driverSocket := saved.driverSocket.or p.driverSocket
    paymentAuthorized := saved.paymentAuthorized } := by
  have hname : saved.status.get "name" = .null := by simp [status_get, List.lookup_cons]
  have hid : saved.status.get "id" = .num saved.info.id := by simp [status_get]
  have hsocket : saved.status.get "driver_socket" = .ofOption .str saved.driverSocket := by
    simp [status_get, List.lookup_cons]
  have hauth : saved.status.get "payment_authorized" = .bool saved.paymentAuthorized := by
    simp [status_get, List.lookup_cons]
  have hconf : saved.status.get "payment_confirmed" = .null := by
    simp [status_get, List.lookup_cons]
  simp only [restore, hname, hid, hsocket, hauth, hconf]
  cases saved.driverSocket <;> rfl

/-- The passenger that `main` starts with the recovery flag, once it has handled `SetReceiver`. -/
def restarted (name : String) (position destination : Position) (serverSender : ℕ) : Passenger :=
  ((Passenger.start name position destination true serverSender).setReceiver serverSender).1

theorem recover_fst (p : Passenger) (status : Json) (driver : Option ℕ) :
    (p.recover status driver).1 = p.restore status := by
  unfold recover
  simp only
  split
  · rfl
  · split
    · rfl
    · split <;> rfl

theorem recover_saves (p : Passenger) (status : Json) (driver : Option ℕ) (file : String)
    (status' : Json) : .save file status' ∉ (p.recover status driver).2 := by
  unfold recover
  simp only
  split
  · simp
  · split
    · simp
    · split <;> simp

/-- **When a passenger gets its state back**: if and only if the payment was not confirmed. -/
theorem recover_reads_back_iff (distance : Position → Position → ℕ) (o : Oracle)
    (saved : Passenger) (position destination : Position) (serverSender : ℕ) :
    (saved.saveState = .save (statusFile saved.name) saved.status ∧
      ∃ t effects, (restarted saved.name position destination serverSender).handle distance o
          (.recover saved.status) = some (t, effects) ∧
        t.info.id = saved.info.id ∧ t.driverSocket = saved.driverSocket ∧
        t.paymentAuthorized = saved.paymentAuthorized ∧
        t.paymentConfirmed = saved.paymentConfirmed) ↔
    saved.paymentConfirmed = false := by
  constructor
  · rintro ⟨-, t, effects, h, -, -, -, hconf⟩
    have ht := congrArg Prod.fst (Option.some.inj h)
    rw [recover_fst, restore_status] at ht
    subst ht
    exact hconf.symm
  · intro hconf
    cases hrecover : (restarted saved.name position destination serverSender).recover saved.status
        o.driver with
    | mk t effects =>
        have ht := congrArg Prod.fst hrecover
        rw [recover_fst, restore_status] at ht
        subst ht
        refine ⟨rfl, _, effects, congrArg some hrecover, rfl, ?_, rfl, hconf.symm⟩
        simp [restarted, setReceiver, Passenger.start]

/-- A passenger with a confirmed payment is no more than authorized once it is started again. -/
theorem not_recover_reads_back :
    ∃ t effects, (restarted "ana" (0, 0) (2, 2) 1).handle (fun _ _ => 0) .up
        (.recover ({ Passenger.start "ana" (0, 0) (2, 2) false 0 with
          paymentAuthorized := true, paymentConfirmed := true } : Passenger).status) =
      some (t, effects) ∧ t.paymentConfirmed = false :=
  ⟨_, _, rfl, rfl⟩

/-! ## Going on from a saved state -/

/-- The passenger goes on: its ride is over and paid, it asks for drivers again, or it asks the
    driver it has stored how the ride stands. -/
def GoesOn (status : Json) (t : Passenger) (effects : List Effect) : Prop :=
  t.paymentConfirmed = true ∨ .trySend .getDrivers ∈ effects ∨
    ∃ c, (status.get "driver_socket").asStr = some c.socket ∧
      .driver c (.recover t.info.id) ∈ effects

/-- The driver in a saved state. -/
def socketIn (status : Json) : Option String := (status.get "driver_socket").asStr

theorem socketIn_status (p : Passenger) : socketIn p.status = p.driverSocket := by
  have hget : p.status.get "driver_socket" = .ofOption .str p.driverSocket := by
    simp [status_get, List.lookup_cons]
  rw [socketIn, hget]
  cases p.driverSocket <;> rfl

/-- What a passenger that is started again does with its saved state, when the driver can be
    reached. -/
theorem goesOn_iff (saved : Passenger) (hfresh : p.paymentConfirmed = false)
    (hnone : p.driverSocket = none) {number : ℕ} :
    GoesOn saved.status (p.recover saved.status (some number)).1
        (p.recover saved.status (some number)).2 ↔
      saved.paymentAuthorized = false ∨ saved.driverSocket.isSome = true := by
  have hsocket := socketIn_status saved
  unfold socketIn at hsocket
  cases hauth : saved.paymentAuthorized with
  | false => simp [GoesOn, recover, restore_status, hfresh, hauth]
  | true =>
      cases hdriver : saved.driverSocket with
      | none => simp [GoesOn, recover, restore_status, hfresh, hauth, hnone, hdriver]
      | some driverSocket =>
          simp [GoesOn, recover, restore_status, hfresh, hauth, hdriver, hsocket]

theorem restarted_goesOn_iff (saved : Passenger) {number : ℕ} (hdriver : o.driver = some number)
    (name : String) (position destination : Position) (serverSender : ℕ) :
    (∃ t effects, (restarted name position destination serverSender).handle distance o
        (.recover saved.status) = some (t, effects) ∧ GoesOn saved.status t effects) ↔
      saved.paymentAuthorized = false ∨ saved.driverSocket.isSome = true := by
  have hgoes : GoesOn saved.status
      ((restarted name position destination serverSender).recover saved.status (some number)).1
      ((restarted name position destination serverSender).recover saved.status (some number)).2 ↔
        saved.paymentAuthorized = false ∨ saved.driverSocket.isSome = true :=
    goesOn_iff saved rfl rfl
  rw [← hgoes, ← hdriver]
  cases hrecover : (restarted name position destination serverSender).recover saved.status o.driver
    with
  | mk t effects =>
      have hhandle : (restarted name position destination serverSender).handle distance o
          (.recover saved.status) = some (t, effects) := congrArg some hrecover
      rw [hhandle]
      constructor
      · rintro ⟨t', effects', hh, hgo⟩
        obtain ⟨rfl, rfl⟩ := Prod.mk.inj (Option.some.inj hh)
        exact hgo
      · exact fun hgo => ⟨t, effects, rfl, hgo⟩

/-! ## What a handler remembers of the driver -/

/-- The driver a passenger remembers after a message. -/
def socketAfter (socket : Option String) : Msg → Option String
  | .rideAccepted driverSocket => some driverSocket
  | _ => socket

/-- What handling `m` does to the driver the passenger remembers, and to its file. -/
structure Remembers (p : Passenger) (m : Msg) (t : Passenger) (effects : List Effect) : Prop where
  name : t.name = p.name
  driverSocket : t.driverSocket = socketAfter p.driverSocket m
  saved : ∀ file status, .save file status ∈ effects → file = statusFile p.name ∧
    ∃ q : Passenger, status = q.status ∧ q.driverSocket = t.driverSocket
  accepted : ∀ driverSocket, m = .rideAccepted driverSocket →
    ∃ status, .save (statusFile p.name) status ∈ effects

/-- A handler that saves nothing. -/
theorem Remembers.quiet (hname : t.name = p.name) (hsocket : t.driverSocket = p.driverSocket)
    (hm : ∀ driverSocket, m ≠ .rideAccepted driverSocket)
    (heffects : ∀ file status, .save file status ∉ effects) : Remembers p m t effects where
  name := hname
  driverSocket := by
    rw [hsocket]
    cases m with
    | rideAccepted driverSocket => exact absurd rfl (hm driverSocket)
    | _ => rfl
  saved file status h := absurd h (heffects file status)
  accepted driverSocket h := absurd h (hm driverSocket)

/-- A handler that saves the state once. -/
theorem Remembers.saving (q : Passenger) (rest : List Effect) (hname : t.name = p.name)
    (hsocket : t.driverSocket = socketAfter p.driverSocket m) (hqname : q.name = p.name)
    (hq : q.driverSocket = t.driverSocket) (hrest : ∀ file status, .save file status ∉ rest) :
    Remembers p m t (q.saveState :: rest) where
  name := hname
  driverSocket := hsocket
  saved file status h := by
    rcases List.mem_cons.1 h with h | h
    · obtain ⟨rfl, rfl⟩ := Effect.save.inj h
      exact ⟨by rw [hqname], q, rfl, hq⟩
    · exact absurd h (hrest file status)
  accepted _ _ := ⟨q.status, by rw [← hqname]; exact List.mem_cons_self⟩

theorem remembers_sendToServer (connected : Bool) (line : ServerLine)
    (hm : ∀ driverSocket, m ≠ .rideAccepted driverSocket) :
    Remembers p m p (p.sendToServer connected line) := by
  refine .quiet rfl rfl hm fun file status => ?_
  unfold sendToServer
  split <;> simp

/-- **What every handler remembers of the driver.** -/
theorem handle_remembers (h : p.handle distance o m = some (t, effects))
    (hm : ∀ status, m ≠ .recover status) : Remembers p m t effects := by
  cases handle_outcome h with
  | getDrivers | login => exact remembers_sendToServer o.connected _ (by simp)
  | nobody | unreachable | dials | rideAccepted | paymentAuthorized | paymentDeny =>
      exact .saving _ _ rfl rfl rfl rfl (by simp)
  | travels | arrives => exact .saving p _ rfl rfl rfl rfl (by simp [finishRide])
  | setReceiver | driverArrived | completeLogin | requestDrive | keepLooking | rideEnded
  | rideGoesOn | rideWaits | noServer | newServer | noDriver | newDriver =>
      exact .quiet rfl rfl (by simp) (by simp [finishRide])
  | recoversPaid status | recoversDenied status | recoversRide status | recoversAlone status =>
      exact absurd rfl (hm status)

/-- The last state that is saved under a name is the one that is found there. -/
theorem saveFiles_cases (files : String → Option Json) (effects : List Effect) (file : String) :
    saveFiles files effects file = files file ∧ (∀ status, .save file status ∉ effects) ∨
      ∃ status, .save file status ∈ effects ∧ saveFiles files effects file = some status := by
  induction effects generalizing files with
  | nil => exact .inl ⟨rfl, by simp⟩
  | cons effect effects ih =>
      -- `other` are the files when the first effect saves nothing under this name
      have hother : ∀ other : String → Option Json, other file = files file →
          (∀ status, effect ≠ .save file status) →
          saveFiles files (effect :: effects) file = saveFiles other effects file →
          saveFiles files (effect :: effects) file = files file ∧
              (∀ status, .save file status ∉ effect :: effects) ∨
            ∃ status, .save file status ∈ effect :: effects ∧
              saveFiles files (effect :: effects) file = some status := by
        intro other hfile hne hsame
        rcases ih other with ⟨heq, hnone⟩ | ⟨status, hmem, heq⟩
        · refine .inl ⟨by rw [hsame, heq, hfile], fun status h => ?_⟩
          exact (List.mem_cons.1 h).elim (fun h => hne status h.symm) (hnone status)
        · exact .inr ⟨status, List.mem_cons_of_mem _ hmem, by rw [hsame, heq]⟩
      cases effect with
      | save file' status =>
          by_cases hfile : file' = file
          · subst hfile
            rcases ih (Function.update files file' (some status)) with
              ⟨heq, -⟩ | ⟨status', hmem, heq⟩
            · exact .inr ⟨status, List.mem_cons_self, heq.trans (Function.update_self ..)⟩
            · exact .inr ⟨status', List.mem_cons_of_mem _ hmem, heq⟩
          · exact hother (Function.update files file' (some status))
              (Function.update_of_ne (Ne.symm hfile) _ _) (by simp [hfile]) rfl
      | _ => exact hother files rfl (by simp) rfl

/-! ## Runs of the process -/

/-- The passenger is `fresh`, and reads its file before anything but `SetReceiver`; or it has read
    it, and remembers it as `memory` says. -/
def Reads (file : Option Json) (fresh memory : Prop) (mailbox : List Msg) : Prop :=
  (fresh ∧ ∃ pre status post, mailbox = pre ++ .recover status :: post ∧ file = some status ∧
    (∀ m ∈ pre, ∃ k, m = .setReceiver k) ∧ ∀ m ∈ post, ∀ status, m ≠ .recover status) ∨
  memory ∧ ∀ m ∈ mailbox, ∀ status, m ≠ .recover status

variable {file : Option Json} {fresh memory : Prop} {mailbox rest new : List Msg}

theorem Reads.append (h : Reads file fresh memory mailbox)
    (hnew : ∀ m ∈ new, ∀ status, m ≠ .recover status) :
    Reads file fresh memory (mailbox ++ new) := by
  rcases h with ⟨hfresh, pre, status, post, rfl, hfile, hpre, hpost⟩ | ⟨hmemory, hread⟩
  · refine .inl ⟨hfresh, pre, status, post ++ new, ?_, hfile, hpre,
      List.forall_mem_append.2 ⟨hpost, hnew⟩⟩
    rw [List.append_assoc, List.cons_append]
  · exact .inr ⟨hmemory, List.forall_mem_append.2 ⟨hread, hnew⟩⟩

/-- What comes first in the mailbox. -/
theorem Reads.cons (h : Reads file fresh memory (m :: rest)) :
    ((∃ k, m = .setReceiver k) ∧ fresh ∧
      ∀ fresh' memory' : Prop, fresh' → Reads file fresh' memory' rest) ∨
    (∃ status, m = .recover status ∧ file = some status ∧ fresh ∧
      ∀ x ∈ rest, ∀ status, x ≠ .recover status) ∨
    (memory ∧ (∀ status, m ≠ .recover status) ∧ ∀ x ∈ rest, ∀ status, x ≠ .recover status) := by
  rcases h with ⟨hfresh, pre, status, post, hbox, hfile, hpre, hpost⟩ | ⟨hmemory, hread⟩
  · cases pre with
    | nil =>
        obtain ⟨rfl, rfl⟩ := List.cons.inj hbox
        exact .inr (.inl ⟨status, rfl, hfile, hfresh, hpost⟩)
    | cons x pre =>
        obtain ⟨rfl, rfl⟩ := List.cons.inj hbox
        refine .inl ⟨hpre _ List.mem_cons_self, hfresh, fun fresh' memory' h => .inl ⟨h, pre,
          status, post, rfl, hfile, fun m hm => hpre m (List.mem_cons_of_mem _ hm), hpost⟩⟩
  · exact .inr (.inr ⟨hmemory, hread _ List.mem_cons_self,
      fun x hx => hread x (List.mem_cons_of_mem _ hx)⟩)

namespace Process

/-- The file names a driver exactly when one has accepted a ride. -/
def FileKnows (accepted : Prop) (file : Option Json) : Prop :=
  (file = none → ¬accepted) ∧
    ∀ status, file = some status →
      ∃ q : Passenger, status = q.status ∧ (q.driverSocket.isSome = true ↔ accepted)

/-- File and memory name a driver exactly when one has accepted a ride. -/
structure Recalls (name : String) (s : Process) : Prop where
  file : FileKnows (.accepted ∈ s.log) (s.files (statusFile name))
  name_eq : ∀ p mailbox, s.actor = some (p, mailbox) → p.name = name
  reads : ∀ p mailbox, s.actor = some (p, mailbox) →
    Reads (s.files (statusFile name)) (p.driverSocket = none)
      (p.driverSocket.isSome = true ↔ .accepted ∈ s.log) mailbox

variable {s s' : Process} {name : String} {l : Label}

theorem accepted_mem_events (m : Msg) (effects : List Effect) (log : List Event) :
    .accepted ∈ events m effects ++ log ↔
      (∃ driverSocket, m = .rideAccepted driverSocket) ∨ .accepted ∈ log := by
  cases m <;> simp [events]

/-- A state that is saved knows what the passenger knows. -/
theorem FileKnows.saved {accepted accepted' : Prop} {files : String → Option Json}
    (h : FileKnows accepted (files (statusFile name)))
    (hsame : (∀ status, .save (statusFile name) status ∉ effects) → (accepted' ↔ accepted))
    (hsaved : ∀ status, .save (statusFile name) status ∈ effects →
      ∃ q : Passenger, status = q.status ∧ (q.driverSocket.isSome = true ↔ accepted')) :
    FileKnows accepted' (saveFiles files effects (statusFile name)) := by
  rcases saveFiles_cases files effects (statusFile name) with ⟨heq, hnone⟩ | ⟨status, hmem, heq⟩
  · unfold FileKnows at h ⊢
    rw [heq]
    simpa only [hsame hnone] using h
  · rw [heq]
    refine ⟨by simp, fun status' h' => ?_⟩
    obtain rfl := Option.some.inj h'
    exact hsaved _ hmem

/-- Nothing is saved, and the passenger does not hear of a driver. -/
theorem FileKnows.quiet {files : String → Option Json}
    (h : FileKnows (.accepted ∈ s.log) (files (statusFile name)))
    (hsaves : ∀ file status, .save file status ∉ effects)
    (hm : ∀ driverSocket, m ≠ .rideAccepted driverSocket) :
    FileKnows (.accepted ∈ events m effects ++ s.log)
      (saveFiles files effects (statusFile name)) :=
  h.saved (fun _ => (accepted_mem_events ..).trans (or_iff_right fun hride => hm _ hride.choose_spec))
    fun status h => absurd h (hsaves _ status)

theorem recalls_handled {o : Oracle} (hs : s.Recalls name) (hactor : s.actor = some (p, m :: rest))
    (hh : p.handle distance o m = some (t, effects)) :
    Recalls name
      { actor := some (t, rest ++ selfMessages effects)
        files := saveFiles s.files effects
        log := events m effects ++ s.log } := by
  have hname := hs.name_eq p _ hactor
  have hself : ∀ x ∈ selfMessages effects, ∀ status, x ≠ .recover status := fun x hx =>
    ne_recover (isSelf_quiet ((handle_keeps hh).messages x hx)).1
  -- the three parts of `Recalls` about the one actor there is
  have of : t.name = name →
      FileKnows (.accepted ∈ events m effects ++ s.log)
        (saveFiles s.files effects (statusFile name)) →
      Reads (saveFiles s.files effects (statusFile name)) (t.driverSocket = none)
        (t.driverSocket.isSome = true ↔ .accepted ∈ events m effects ++ s.log) rest →
      Recalls name
        { actor := some (t, rest ++ selfMessages effects)
          files := saveFiles s.files effects
          log := events m effects ++ s.log } := by
    intro hname hfile hreads
    refine ⟨hfile, ?_, ?_⟩ <;>
      · rintro q box hq
        obtain ⟨rfl, rfl⟩ := Prod.mk.inj (Option.some.inj hq)
        first | exact hname | exact hreads.append hself
  rcases (hs.reads p _ hactor).cons with ⟨⟨k, rfl⟩, hnone, hrest⟩ |
    ⟨status, rfl, hfile, hnone, hrest⟩ | ⟨hmemory, hm, hrest⟩
  · obtain ⟨rfl, rfl⟩ := Prod.mk.inj (Option.some.inj hh)
    exact of hname (hs.file.quiet (by simp) (by simp)) (hrest _ _ hnone)
  · obtain ⟨q, rfl, hq⟩ := hs.file.2 status hfile
    have hsaves : ∀ file status, .save file status ∉ effects := by
      have heffects : effects = (p.recover q.status o.driver).2 :=
        (congrArg Prod.snd (Option.some.inj hh)).symm
      rw [heffects]
      exact recover_saves p q.status o.driver
    have ht := congrArg Prod.fst (Option.some.inj hh)
    rw [recover_fst, restore_status] at ht
    subst ht
    refine of hname (hs.file.quiet hsaves (by simp)) (.inr ⟨?_, hrest⟩)
    rw [accepted_mem_events, or_iff_right (by simp)]
    simpa [hnone] using hq
  · have hrem := handle_remembers hh hm
    have hmemory' : t.driverSocket.isSome = true ↔ .accepted ∈ events m effects ++ s.log := by
      rw [hrem.driverSocket, accepted_mem_events]
      cases m with
      | rideAccepted driverSocket => simp [socketAfter]
      | _ => simpa [socketAfter] using hmemory
    refine of (hrem.name.trans hname) (hs.file.saved (fun hnone => ?_) fun status hmem => ?_)
      (.inr ⟨hmemory', hrest⟩)
    · rw [accepted_mem_events]
      refine or_iff_right ?_
      rintro ⟨driverSocket, hm⟩
      obtain ⟨status, hmem⟩ := hrem.accepted driverSocket hm
      exact hnone status (hname ▸ hmem)
    · obtain ⟨-, q, hq, hsocket⟩ := hrem.saved _ status hmem
      exact ⟨q, hq, by rw [hsocket]; exact hmemory'⟩

theorem recalls_recv {o : Oracle} (hs : s.Recalls name) (h : s.recv distance o = some s') :
    s'.Recalls name := by
  unfold recv at h
  split at h
  · exact absurd h (by simp)
  · exact absurd h (by simp)
  · next p m rest hactor =>
      split at h
      · -- `Traveling` has saved the state before it panics
        obtain rfl := Option.some.inj h
        refine ⟨hs.file.saved (fun _ => Iff.rfl) fun status hmem => ?_, by simp, by simp⟩
        cases m with
        | traveling =>
            obtain ⟨-, rfl⟩ := Effect.save.inj (List.mem_singleton.1 hmem)
            rcases (hs.reads p _ hactor).cons with ⟨⟨k, hk⟩, -⟩ | ⟨status, hk, -⟩ | ⟨hmemory, -⟩
            · cases hk
            · cases hk
            · exact ⟨p, rfl, hmemory⟩
        | _ => exact absurd hmem (by simp [savedBeforePanic])
      · next t effects hh =>
          obtain rfl := Option.some.inj h
          exact recalls_handled hs hactor hh

theorem recalls_enqueue {messages : List Msg} (hs : s.Recalls name)
    (hnew : ∀ m ∈ messages, ∀ status, m ≠ .recover status) (h : s.enqueue messages = some s') :
    s'.Recalls name := by
  obtain ⟨⟨p, old⟩, hactor, rfl⟩ := Option.map_eq_some_iff.1 h
  refine ⟨hs.file, ?_, ?_⟩
  · rintro q box hq
    obtain ⟨rfl, rfl⟩ := Prod.mk.inj (Option.some.inj hq)
    exact hs.name_eq p _ hactor
  · rintro q box hq
    obtain ⟨rfl, rfl⟩ := Prod.mk.inj (Option.some.inj hq)
    exact (hs.reads p _ hactor).append hnew

theorem recalls_restart (hs : s.Recalls name) (position destination : Position)
    (serverSender : ℕ) : (s.restart name position destination serverSender).Recalls name := by
  refine ⟨hs.file, ?_, ?_⟩
  · rintro q box hq
    obtain ⟨rfl, -⟩ := Prod.mk.inj (Option.some.inj hq)
    rfl
  · rintro q box hq
    obtain ⟨rfl, rfl⟩ := Prod.mk.inj (Option.some.inj hq)
    cases hfile : s.files (statusFile name) with
    | none =>
        have hno : .accepted ∉ s.log := hs.file.1 hfile
        exact .inr ⟨by simp [restart, Passenger.start, hno], by simp⟩
    | some status =>
        exact .inl ⟨rfl, [.setReceiver serverSender], status, [], rfl, hfile, by simp, by simp⟩

/-- **Every step keeps the driver in memory and in the file.** -/
theorem recalls_step (hs : s.Recalls name) (h : step distance name s l = some s') :
    s'.Recalls name := by
  cases l with
  | recv o => exact recalls_recv hs h
  | line m =>
      simp only [step] at h
      split at h
      · next hline =>
          refine recalls_enqueue hs ?_ h
          rintro m hm status rfl
          obtain rfl := List.mem_singleton.1 hm
          cases hline
      · exact absurd h (by simp)
  | gateway isAuthorized =>
      refine recalls_enqueue hs ?_ h
      cases isAuthorized <;> simp [paymentAuthorizationStatus]
  | crash =>
      simp only [step] at h
      split at h
      · obtain rfl := Option.some.inj h
        exact ⟨hs.file, by simp, by simp⟩
      · exact absurd h (by simp)
  | restart position destination serverSender =>
      simp only [step] at h
      split at h
      · obtain rfl := Option.some.inj h
        exact recalls_restart hs position destination serverSender
      · exact absurd h (by simp)

theorem recalls_start (name : String) (position destination : Position) (serverSender : ℕ) :
    (start name position destination serverSender).Recalls name := by
  refine ⟨⟨by simp [start], by simp [start]⟩, ?_, ?_⟩
  · rintro q box hq
    obtain ⟨rfl, -⟩ := Prod.mk.inj (Option.some.inj hq)
    rfl
  · rintro q box hq
    obtain ⟨rfl, rfl⟩ := Prod.mk.inj (Option.some.inj hq)
    exact .inr ⟨by simp [start, Passenger.start], by simp⟩

/-- **When a passenger goes on from its file**, whatever has happened until it was written: if and
    only if its payment was not authorized, or a driver had accepted a ride before. -/
theorem recovery_goes_on_iff {position destination : Position} {serverSender : ℕ} {ls : List Label}
    (h : Run (step distance name) (fun _ _ => True) (start name position destination serverSender)
      ls s) {status : Json} (hfile : s.files (statusFile name) = some status) {o : Oracle}
    {number : ℕ} (hdriver : o.driver = some number) (position' destination' : Position)
    (serverSender' : ℕ) :
    (∃ t effects, (restarted name position' destination' serverSender').handle distance o
        (.recover status) = some (t, effects) ∧ GoesOn status t effects) ↔
      authorizedIn status = false ∨ .accepted ∈ s.log := by
  have hs : s.Recalls name :=
    h.invariant (fun _ _ _ hp _ hst => recalls_step hp hst) (recalls_start ..)
  obtain ⟨q, rfl, hq⟩ := hs.file.2 status hfile
  rw [authorizedIn_status, ← hq]
  exact restarted_goesOn_iff q hdriver name position' destination' serverSender'

/-- A payment that is authorized for the first time. -/
def authorizedOnce : List Label :=
  [.recv .up, .recv .up, .recv .up, .line (.completeLogin 2), .recv .up,
    .line (.drivers [⟨"127.0.0.1:4000", (1, 1)⟩]),
    .recv { connected := true, driver := some 1, server := none },
    .gateway true, .recv .up]

/-- A driver accepts the ride, and the passenger asks it again after a crash. -/
theorem recovery_goes_on_accepted :
    ∃ (s : Process) (status : Json), s.files (statusFile "ana") = some status ∧
      ∃ t effects, (restarted "ana" (0, 0) (2, 2) 1).handle euclidean
        { connected := true, driver := some 2, server := none } (.recover status) =
          some (t, effects) ∧ GoesOn status t effects := by
  obtain ⟨s, hrun, hs⟩ := exists_run_of_exec (fun _ _ => true)
    (start "ana" (0, 0) (2, 2) 0)
    (authorizedOnce ++ [.recv .up, .line (.rideAccepted "127.0.0.1:4000"), .recv .up, .crash])
    (fun s : Process => (s.files (statusFile "ana")).isSome && decide (.accepted ∈ s.log))
    (show (exec (step euclidean "ana") _ _ _).any _ = true by decide +kernel)
  rw [Bool.and_eq_true, decide_eq_true_eq] at hs
  obtain ⟨status, hfile⟩ := Option.isSome_iff_exists.1 hs.1
  exact ⟨s, status, hfile, (recovery_goes_on_iff (hrun.mono fun _ _ _ => trivial) hfile rfl (0, 0)
    (2, 2) 1).2 (.inr hs.2)⟩

/-- A passenger that crashes between `PaymentAuthorized` and `RideAccepted` does nothing but log in
    again, although every driver can be reached. -/
theorem not_recovery_goes_on :
    ∃ s : Process, Run (step euclidean "ana") (fun _ _ => True) (start "ana" (0, 0) (2, 2) 0)
      (authorizedOnce ++ [.crash]) s ∧
      ∃ status, s.files (statusFile "ana") = some status ∧
        ¬∃ t effects, (restarted "ana" (0, 0) (2, 2) 1).handle euclidean
          { connected := true, driver := some 2, server := none } (.recover status) =
            some (t, effects) ∧ GoesOn status t effects := by
  obtain ⟨s, hrun, hs⟩ := exists_run_of_exec (fun _ _ => true)
    (start "ana" (0, 0) (2, 2) 0) (authorizedOnce ++ [.crash])
    (fun s : Process => (s.files (statusFile "ana")).any
      fun status => authorizedIn status && (socketIn status).isNone)
    (show (exec (step euclidean "ana") _ _ _).any _ = true by decide +kernel)
  have hrun' : Run (step euclidean "ana") (fun _ _ => True) (start "ana" (0, 0) (2, 2) 0)
      (authorizedOnce ++ [.crash]) s := hrun.mono fun _ _ _ => trivial
  obtain ⟨status, hfile, hstatus⟩ := (Option.any_eq_true _ _).1 hs
  have hrecalls : s.Recalls "ana" :=
    hrun'.invariant (fun _ _ _ hp _ hst => recalls_step hp hst) (recalls_start ..)
  obtain ⟨q, rfl, -⟩ := hrecalls.file.2 status hfile
  rw [Bool.and_eq_true, authorizedIn_status, socketIn_status] at hstatus
  refine ⟨s, hrun', q.status, hfile, ?_⟩
  rw [restarted_goesOn_iff q rfl, hstatus.1, Option.isNone_iff_eq_none.1 hstatus.2]
  simp

end Process

end ConcuRide.Passenger
