import ConcuRide.Driver.Token
import ConcuRide.Server.Standing

set_option autoImplicit false

/-! # What a driver tells the leader

A driver whose connection to the leader is up tells the leader that it is busy when it accepts a
ride, and that it is free, and where, when the ride is over. Nothing else it does moves it, as far
as the leader is concerned. -/

namespace ConcuRide.Driver

open Lib

def standing (d : Driver) : Standing := if d.isAvailable then .free d.position else .busy

/-- What a saved state says about the driver. -/
def savedStanding (status : Json) : Option Standing :=
  match (status.get "is_available").asBool with
  | some true =>
    (((status.get "position").asArray.bind readPosition).join).map Standing.free
  | some false => some .busy
  | none => none

/-- The passenger's position is the one the driver has, or the driver is on a ride. -/
def follows (d : Driver) : Msg → Bool
  | .reconnectPassenger _ position => !d.isAvailable || decide (position = d.position)
  | _ => true

/-- **What the lines of a handler tell the leader**: the message handled, the state after it, the
    lines for the leader and the states it saves. -/
inductive Notes (d : Driver) : Msg → Driver → List ServerLine → List Json → Prop
  | quiet {m : Msg} {t : Driver} {saved : List Json} (hsame : t.standing = d.standing)
      (hsaved : ∀ status ∈ saved, savedStanding status = some d.standing) : Notes d m t [] saved
  | takes (r : RequestRide) (hfree : d.isAvailable = true) :
      Notes d (.requestRide r) (d.take r) [.busyDriver d.name] [(d.take r).status]
  | ends (dst : Position) (hbusy : d.isAvailable = false) :
      Notes d (.endRide dst) (d.free dst) [.availableDriver d.name dst] [(d.free dst).status]

/-- The lines of a handler for the leader. -/
def notices (effects : List Effect) : List ServerLine := (serverLines effects).map Prod.snd

theorem notices_append (e₁ e₂ : List Effect) :
    notices (e₁ ++ e₂) = notices e₁ ++ notices e₂ := by
  rw [notices, serverLines_append, List.map_append]
  rfl

variable {o : Oracle} {d t : Driver} {m : Msg} {effects : List Effect} {rest : List Msg}
  {lines : List ServerLine} {states : List Json} {name : String}

theorem savedStanding_status (d : Driver) : savedStanding d.status = some d.standing := by
  have hav : d.status.get "is_available" = .bool d.isAvailable := by
    simp [status_get, List.lookup_cons]
  have hpos : d.status.get "position" = jsonOfPosition d.position := by
    simp [status_get, List.lookup_cons]
  rw [savedStanding, standing, hav, hpos]
  cases d.isAvailable <;> rfl

/-- A driver that restores a state is where it was when it saved it. -/
theorem standing_restore {ride : Option RequestRide} {status : Json} (hsaved : SavedOn ride status)
    (h : d.restore status = some t) : some t.standing = savedStanding status := by
  obtain ⟨saved, rfl, -⟩ := hsaved
  rw [restore_status] at h
  obtain rfl := Option.some.inj h
  exact (savedStanding_status saved).symm

theorem standing_busy (h : d.isAvailable = false) : d.standing = .busy := by
  rw [standing, h, if_neg Bool.false_ne_true]

theorem standing_free (h : d.isAvailable = true) : d.standing = .free d.position := if_pos h

/-- A driver that is read from its file moves only on a ride. -/
theorem Notes.moves {position : Position} {lines : List ServerLine} {pickedUp : Bool}
    (hbusy : d.isAvailable = false) (hlines : lines = [])
    (hsaved : ∀ status ∈ states, status = d.status) :
    Notes d m { d with position := position, passengerPickedUp := pickedUp } lines states := by
  subst hlines
  refine .quiet ?_ fun status hstatus => ?_
  · exact (standing_busy hbusy).symm ▸ standing_busy hbusy
  · rw [hsaved status hstatus]
    exact savedStanding_status d

/-- With the connection up, a line is sent once. -/
theorem sendToServer_up (hconn : d.serverReceiver.isSome = true) (ho : o.connected = true)
    (line : ServerLine) : d.sendToServer o.connected line = [.server d.serverSender line] := by
  rw [sendToServer, hconn, ho]
  rfl

/-- **Every handler of a driver that is connected and has started up does one of the things `Notes`
    lists.** -/
theorem handle_notes (hconn : d.serverReceiver.isSome = true) (ho : o.connected = true)
    (hstart : m.isStartUp = false) (hrec : m.isReconnect = false) (hfollows : d.follows m = true)
    (hride : m.isRide = true → d.isAvailable = false) (h : d.handle o m = some (t, effects)) :
    Notes d m t (notices effects) (saves effects) := by
  have saved : ∀ status ∈ [d.status], savedStanding status = some d.standing :=
    fun status hstatus => List.mem_singleton.1 hstatus ▸ savedStanding_status d
  cases handle_outcome h with
  | setReceiver | register | recoversFree | recoversBusy => cases hstart
  | noServer | newServer => cases hrec
  | newConnection | startRide | responds | denies | refuses | noPassenger =>
      exact .quiet rfl (by simp [saves])
  | reconnectPassenger addr position =>
      refine .quiet ?_ (by simp [saves])
      simp only [follows, Bool.or_eq_true, Bool.not_eq_true', decide_eq_true_eq] at hfollows
      rcases hfollows with hbusy | rfl
      · exact (standing_busy hbusy).symm ▸ standing_busy hbusy
      · rfl
  | accepts r hfree ht =>
      subst ht
      have hsend := sendToServer_up (d := d.take r) hconn ho (.busyDriver d.name)
      rw [take] at hsend
      rw [hsend]
      exact .takes r hfree
  | endRide dst ht =>
      subst ht
      have hsend := sendToServer_up (d := { d with position := dst }) hconn ho
        (.availableDriver d.name dst)
      rw [hsend]
      exact .ends dst (hride rfl)
  | approaches => exact .moves (hride rfl) rfl (by simp [saves])
  | picksUp origin =>
      have hquiet : ∀ addrs : Option ℕ,
          notices (addrs.toList.map fun addr => .passenger addr .driverArrived) = [] ∧
            saves (addrs.toList.map fun addr => .passenger addr .driverArrived) = [] := by
        intro addrs
        cases addrs <;> exact ⟨rfl, rfl⟩
      rw [notices_append, saves_append, (hquiet _).1, (hquiet _).2]
      exact .moves (hride rfl) rfl (by simp [saves])
  | noDestination => exact .quiet rfl saved
  | rides | arrives =>
      exact .moves (hride rfl) rfl fun status hstatus => List.mem_singleton.1 hstatus

/-- Nor does such a driver send itself anything but messages of its ride. -/
theorem self_up (hconn : d.serverReceiver.isSome = true) (ho : o.connected = true)
    (hstart : m.isStartUp = false) (hrec : m.isReconnect = false)
    (h : d.handle o m = some (t, effects)) :
    ∀ x ∈ selfMessages effects, x.isStartUp = false ∧ x.isReconnect = false := by
  have hresend : ∀ line, d.resend o line = [] := fun line => by
    rw [resend, hconn, ho]
    rfl
  have hcases := handle_cases (fun status socket heq => by rw [heq] at hstart; cases hstart) h
  generalize selfMessages effects = self at hcases
  generalize serverLines effects = lines at hcases
  cases hcases with
  | silent _ _ _ _ _ hself => exact hself
  | tells _ _ _ _ _ _ hself =>
      rw [hresend]
      exact hself
  | setReceiver | registers => cases hstart
  | reconnectFailed | reconnected => cases hrec

/-- The connection and the name stay. -/
theorem handle_link (hstart : m.isStartUp = false) (hrec : m.isReconnect = false)
    (h : d.handle o m = some (t, effects)) : d.SameLink t := by
  have hcases := handle_cases (fun status socket heq => by rw [heq] at hstart; cases hstart) h
  generalize selfMessages effects = self at hcases
  generalize serverLines effects = lines at hcases
  cases hcases with
  | silent _ _ _ hsame => exact hsame
  | tells _ _ _ _ hsame => exact hsame
  | setReceiver | registers => cases hstart
  | reconnectFailed | reconnected => cases hrec

/-- `Register` tells the leader where the driver is, and saves it. -/
theorem register_up {r : Register} (hconn : d.serverReceiver.isSome = true)
    (ho : o.connected = true) (h : d.handle o (.register r) = some (t, effects)) :
    t = { d with isRegistered := true } ∧
      notices effects = [.newDriver r.socket r.name r.position] ∧
      saves effects = [t.status] ∧ selfMessages effects = [] := by
  obtain ⟨rfl, rfl⟩ := Prod.mk.inj (Option.some.inj h)
  rw [sendToServer_up hconn ho]
  exact ⟨rfl, rfl, rfl, rfl⟩

/-- `Recovery` tells the leader nothing but the socket, and saves nothing. -/
theorem recovery_quiet {status : Json} {socket : String}
    (h : d.handle o (.recovery status socket) = some (t, effects)) :
    d.restore status = some t ∧ saves effects = [] ∧
      (∀ line ∈ notices effects, line.toMsg.moves = none) ∧
      ∀ x ∈ selfMessages effects, x.isStartUp = false ∧ x.isReconnect = false := by
  simp only [handle, recovery, Option.bind_eq_bind, Option.bind_eq_some_iff] at h
  obtain ⟨d', hrestore, h⟩ := h
  split at h
  · obtain ⟨rfl, rfl⟩ := Prod.mk.inj (Option.some.inj h)
    exact ⟨hrestore, rfl, by simp [notices, serverLines], by simp [selfMessages]⟩
  · obtain ⟨rfl, rfl⟩ := Prod.mk.inj (Option.some.inj h)
    refine ⟨hrestore, rfl, ?_, ?_⟩
    · intro line hline
      rw [List.mem_singleton.1 hline]
      rfl
    · intro x hx
      rw [List.mem_singleton.1 hx]
      split <;> exact ⟨rfl, rfl⟩

/-- The leader that has known the driver before the lines knows it after them. -/
theorem Notes.heard (h : Notes d m t lines states) (hname : d.name = name) :
    (lines.map ServerLine.toMsg).foldl (Standing.hear name) (some d.standing)
      = some t.standing := by
  cases h with
  | quiet hsame => rw [hsame]; rfl
  | takes r hfree =>
      subst hname
      exact if_pos rfl
  | ends dst hbusy =>
      subst hname
      rw [standing_busy hbusy]
      exact if_pos rfl

/-- What a handler saves last is where the driver is after it; a handler that saves nothing leaves
    it where it is. -/
theorem Notes.saved (h : Notes d m t lines states) :
    (∀ status ∈ states, savedStanding status = some t.standing) ∧
      (states = [] → t.standing = d.standing) := by
  cases h with
  | quiet hsame hsaved => exact ⟨hsame.symm ▸ hsaved, fun _ => hsame⟩
  | takes | ends =>
      exact ⟨fun status hstatus => List.mem_singleton.1 hstatus ▸ savedStanding_status _, by simp⟩

end ConcuRide.Driver
