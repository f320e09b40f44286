import ConcuRide.Driver.Token

set_option autoImplicit false

/-! # The saved ride

A driver saves its state whenever it accepts or ends a ride, so that between two handlers the newest
state it has saved says as much about the ride as its memory does. -/

namespace ConcuRide.Driver

open Lib

/-- The driver was on a ride when it saved the state. -/
def Version.busy (v : Version) : Bool := (v.status.get "is_available").asBool == some false

/-- The newest state, once the states of a handler are saved. -/
def newest (file : Option Version) (saved : List Json) (ride : Option RequestRide) :
    Option Version :=
  (saved.map fun status => ⟨status, ride⟩ : List Version).head?.or file

/-- The newest state a driver has saved tells its ride, or the driver reads it before anything but
    `SetReceiver`. -/
inductive Kept (file : Option Version) (ride : Option RequestRide) (d : Driver) : List Msg → Prop
  | running {mailbox : List Msg} (hread : ∀ m ∈ mailbox, m.isRecovery = false)
      (hbusy : file.any Version.busy = !d.isAvailable)
      (hride : d.isAvailable = false → file.map Version.ride = some ride) :
      Kept file ride d mailbox
  | starting {pre post : List Msg} {v : Version} {socket : String} (hfile : file = some v)
      (hride : ride = v.ride) (hpre : ∀ m ∈ pre, ∃ link, m = .setReceiver link)
      (hfree : d.isAvailable = true) (hread : ∀ m ∈ post, m.isRecovery = false) :
      Kept file ride d (pre ++ .recovery v.status socket :: post)

variable {file : Option Version} {ride : Option RequestRide} {o : Oracle} {d t : Driver} {m : Msg}
  {effects : List Effect} {rest mailbox new : List Msg} {saved : List Json}
  {lines : List (ℕ × PassengerLine)} {chain : List Msg}

theorem busy_status (d : Driver) (ride : Option RequestRide) :
    Version.busy ⟨d.status, ride⟩ = !d.isAvailable := by
  have hget : d.status.get "is_available" = .bool d.isAvailable := by
    simp [status_get, List.lookup_cons]
  rw [Version.busy, hget]
  cases d.isAvailable <;> rfl

/-- A handler saves the ride it leaves, or it leaves the ride alone. -/
theorem Drives.states (h : Drives d m t chain saved lines) (hrec : m.isRecovery = false)
    (ride : Option RequestRide) :
    saved = [] ∧ t.isAvailable = d.isAvailable ∧ Process.rideAfter ride d m = ride ∨
      ∃ (x : Driver) (more : List Json), x.isAvailable = t.isAvailable ∧
        saved = x.status :: more := by
  cases h with
  | @aside m t saved hm hrequest _ _ hsame hsaved =>
      cases saved with
      | nil =>
          refine .inl ⟨rfl, hsame.isAvailable, ?_⟩
          cases m with
          | requestRide r => exact absurd rfl (hrequest r)
          | _ => rfl
      | cons status more =>
          exact .inr ⟨t, more, rfl, by rw [hsaved status List.mem_cons_self]⟩
  | responds _ _ hsame => exact .inl ⟨rfl, hsame.isAvailable, rfl⟩
  | refuses r hbusy => exact .inl ⟨rfl, rfl, by simp [Process.rideAfter, hbusy]⟩
  | starts | noPassenger | approaches | picksUp => exact .inl ⟨rfl, rfl, rfl⟩
  | accepts r => exact .inr ⟨d.take r, [], rfl, rfl⟩
  | noDestination | rides | arrives => exact .inr ⟨d, [], rfl, rfl⟩
  | ends dst => exact .inr ⟨d.free dst, [], rfl, rfl⟩
  | recoversFree | recoversBusy => cases hrec

theorem handle_recovery {status : Json} {socket : String}
    (h : d.handle o (.recovery status socket) = some (t, effects)) : d.restore status = some t := by
  simp only [handle, recovery, Option.bind_eq_bind, Option.bind_eq_some_iff] at h
  obtain ⟨d', hd', h⟩ := h
  split at h <;>
    · obtain ⟨rfl, -⟩ := Prod.mk.inj (Option.some.inj h)
      exact hd'

/-- A message that `main` sends before `Register` saves nothing and tells passengers nothing. -/
theorem startUp_quiet (h : d.handle o m = some (t, effects))
    (hm : m.isRecovery = true ∨ ∃ link, m = .setReceiver link) :
    saves effects = [] ∧ passengerLines effects = [] := by
  cases handle_outcome h with
  | setReceiver | recoversFree | recoversBusy => exact ⟨rfl, rfl⟩
  | _ => rcases hm with hm | ⟨link, hm⟩ <;> cases hm

theorem Kept.append (h : Kept file ride d mailbox) (hnew : ∀ m ∈ new, m.isRecovery = false) :
    Kept file ride d (mailbox ++ new) := by
  cases h with
  | running hread hbusy hride =>
      exact .running (List.forall_mem_append.2 ⟨hread, hnew⟩) hbusy hride
  | starting hfile hride hpre hfree hread =>
      rw [List.append_assoc, List.cons_append]
      exact .starting hfile hride hpre hfree (List.forall_mem_append.2 ⟨hread, hnew⟩)

/-- What the driver handles next. -/
inductive Kept.Head (file : Option Version) (ride : Option RequestRide) (d : Driver) :
    Msg → List Msg → Prop
  | running {m : Msg} {rest : List Msg} (hm : m.isRecovery = false)
      (hrest : ∀ x ∈ rest, x.isRecovery = false) (hbusy : file.any Version.busy = !d.isAvailable)
      (hride : d.isAvailable = false → file.map Version.ride = some ride) : Head file ride d m rest
  | links {link : Link} {rest : List Msg} (hmem : rest.any Msg.isRecovery = true)
      (hafter : ∀ t : Driver, t.isAvailable = true → Kept file ride t rest)
      (hfree : d.isAvailable = true) : Head file ride d (.setReceiver link) rest
  | reads {v : Version} {socket : String} {rest : List Msg} (hfile : file = some v)
      (hride : ride = v.ride) (hfree : d.isAvailable = true)
      (hrest : ∀ x ∈ rest, x.isRecovery = false) : Head file ride d (.recovery v.status socket) rest

theorem Kept.head (h : Kept file ride d (m :: rest)) : Kept.Head file ride d m rest := by
  generalize hbox : m :: rest = mailbox at h
  cases h with
  | running hread hbusy hride =>
      subst hbox
      exact .running (hread m List.mem_cons_self) (fun x hx => hread x (List.mem_cons_of_mem m hx))
        hbusy hride
  | @starting pre post v socket hfile hride hpre hfree hread =>
      cases pre with
      | nil =>
          obtain ⟨rfl, rfl⟩ := List.cons.inj hbox
          exact .reads hfile hride hfree hread
      | cons x pre =>
          obtain ⟨rfl, rfl⟩ := List.cons.inj hbox
          obtain ⟨link, rfl⟩ := hpre _ List.mem_cons_self
          exact .links (by simp [Msg.isRecovery])
            (fun _ ht => .starting hfile hride (fun x hx => hpre x (List.mem_cons_of_mem _ hx)) ht
              hread) hfree

/-- A driver that has not read its file yet saves nothing and tells passengers nothing. -/
theorem Kept.running_or_quiet (h : Kept file ride d (m :: rest))
    (hh : d.handle o m = some (t, effects)) :
    ((∀ x ∈ m :: rest, x.isRecovery = false) ∧ file.any Version.busy = (!d.isAvailable) ∧
      (d.isAvailable = false → file.map Version.ride = some ride)) ∨
    (saves effects = [] ∧ passengerLines effects = []) := by
  cases h.head with
  | running hm hrest hbusy hride =>
      exact .inl ⟨List.forall_mem_cons.2 ⟨hm, hrest⟩, hbusy, hride⟩
  | links => exact .inr (startUp_quiet hh (.inr ⟨_, rfl⟩))
  | reads => exact .inr (startUp_quiet hh (.inl rfl))

/-- **A handler keeps the saved ride up to date.** -/
theorem Kept.handled (h : Kept file ride d (m :: rest)) (hh : d.handle o m = some (t, effects)) :
    Kept (newest file (saves effects) (Process.rideAfter ride d m)) (Process.rideAfter ride d m) t
      (rest ++ selfMessages effects) := by
  refine Kept.append ?_ (not_recovery_of_self hh)
  cases h.head with
  | running hm hrest hbusy hride =>
      rcases (handle_drives hh).states hm ride with ⟨hnone, hav, hsame⟩ | ⟨x, more, hav, hsaved⟩
      · rw [hnone, hsame]
        exact .running hrest (hav ▸ hbusy) (hav ▸ hride)
      · rw [hsaved]
        exact .running hrest ((busy_status x _).trans (congrArg _ hav)) fun _ => rfl
  | @links link _ _ hafter hfree =>
      obtain ⟨rfl, rfl⟩ := Prod.mk.inj (Option.some.inj hh)
      exact hafter { d with serverReceiver := some link } hfree
  | @reads v socket _ hfile hride hfree hrest =>
      subst hfile hride
      obtain ⟨hnone, -⟩ := startUp_quiet hh (.inl rfl)
      have ht := handle_recovery hh
      have hav : t.isAvailable = ((v.status.get "is_available").asBool).getD d.isAvailable := by
        simp only [restore, Option.bind_eq_bind, Option.bind_eq_some_iff] at ht
        obtain ⟨_, -, _, -, _, -, ht⟩ := ht
        rw [← Option.some.inj ht]
      rw [hnone]
      refine .running hrest ?_ fun _ => rfl
      rw [hav, hfree]
      show v.busy = _
      unfold Version.busy
      cases (v.status.get "is_available").asBool with
      | none => rfl
      | some b => cases b <;> rfl

namespace Process

/-- What a running driver knows of its ride is in its file. -/
def Kept (s : Process) : Prop :=
  ∀ d mailbox, s.actor = some (d, mailbox) → Driver.Kept s.versions.head? s.ride d mailbox

variable {s s' : Process} {name : String} {at_ : Launch}

theorem Kept.recv (hk : s.Kept) (h : s.recv o = some (s', effects)) : s'.Kept := by
  rcases recv_cases h with ⟨d, m, rest, -, -, -, rfl⟩ | ⟨d, m, rest, t, hactor, hh, rfl⟩
  · intro d mailbox hactor
    cases hactor
  · intro d' mailbox hactor'
    obtain ⟨rfl, rfl⟩ := Prod.mk.inj (Option.some.inj hactor')
    rw [List.head?_append]
    exact (hk d _ hactor).handled hh

theorem Kept.enqueue (hk : s.Kept) (hm : m.isRecovery = false) (h : s.enqueue m = some s') :
    s'.Kept := by
  obtain ⟨⟨d, mailbox⟩, hactor, rfl⟩ := Option.map_eq_some_iff.1 h
  intro d' mailbox' hactor'
  obtain ⟨rfl, rfl⟩ := Prod.mk.inj (Option.some.inj hactor')
  exact (hk d mailbox hactor).append fun x hx => List.mem_singleton.1 hx ▸ hm

/-- A driver that is started for the first time is free. -/
theorem kept_launch (hnone : s.versions = []) (h : s.step name (.launch at_) = some s') :
    s'.Kept := by
  cases step_cases h
  intro d mailbox hactor
  obtain ⟨rfl, rfl⟩ := Prod.mk.inj (Option.some.inj hactor)
  refine .running (by simp [Msg.isRecovery]) ?_ fun hbusy => by cases hbusy
  show s.versions.head?.any Version.busy = _
  rw [hnone]
  rfl

/-- A driver that is started again reads the state it saved last. -/
theorem kept_recover (h : s.step name (.recover 0 at_) = some s') : s'.Kept := by
  cases step_cases h with
  | recover _ _ hv =>
      intro d mailbox hactor
      obtain ⟨rfl, rfl⟩ := Prod.mk.inj (Option.some.inj hactor)
      have hpre : ∀ m ∈ [Msg.setReceiver at_.serverSender], ∃ link, m = .setReceiver link :=
        fun m hm => ⟨_, List.mem_singleton.1 hm⟩
      exact .starting ((List.head?_eq_getElem? ..).trans hv) rfl hpre rfl
        (by simp [Msg.isRecovery])

end Process

end ConcuRide.Driver
