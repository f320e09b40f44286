import ConcuRide.Server.Availability
import ConcuRide.Server.Desk

set_option autoImplicit false

/-! # What a leader knows about a driver

A leader has a driver free at a position, or busy; where a busy driver is does not matter to
anybody. `Standing.hear` is what one message of the driver makes of it, and the leader's handlers do
nothing else: a line that does not fit the map the driver is in is ignored. -/

namespace ConcuRide

open Lib

/-- A driver is free, at a position, or busy. -/
inductive Standing where
  | free (position : Position)
  | busy
deriving DecidableEq, Repr

/-- A message of driver `name`, as the leader takes it. -/
def Standing.hear (name : String) (standing : Option Standing) (m : Msg) : Option Standing :=
  if m.moves = some name then
    match standing, m with
    | none, .newDriver m => some (.free m.position)
    | some _, .busyDriver _ => some .busy
    | some .busy, .updateDriver m => some (.free m.newPosition)
    | standing, _ => standing
  else standing

def Profile.standing (p : Profile) : Standing := if p.busy then .busy else .free p.position

namespace Server

/-- What the registry says about a driver. -/
def standing (s : Server) (name : String) : Option Standing :=
  (s.profile name).map Profile.standing

variable {N : ℕ} {o : Oracle} {s t : Server} {m : Msg} {effects : List Effect} {name : String}

theorem hear_other (hm : m.moves ≠ some name) (standing : Option Standing) :
    Standing.hear name standing m = standing :=
  if_neg hm

theorem foldl_hear_others {ms : List Msg} (h : ∀ m ∈ ms, m.moves ≠ some name)
    (standing : Option Standing) : ms.foldl (Standing.hear name) standing = standing := by
  induction ms with
  | nil => rfl
  | cons m ms ih =>
      rw [List.foldl_cons, hear_other (h m List.mem_cons_self)]
      exact ih fun x hx => h x (List.mem_cons_of_mem m hx)

theorem moves_newDriver {m : NewDriver} (hname : m.name ≠ name) :
    (Msg.newDriver m).moves ≠ some name :=
  fun heq => hname (Option.some.inj heq)

/-- A leader that knows the driver keeps what it knows, and learns the position otherwise. -/
theorem hear_newDriver {m : NewDriver} (hname : m.name = name) (standing : Option Standing) :
    Standing.hear name standing (.newDriver m) = some (standing.getD (.free m.position)) := by
  subst hname
  cases standing with
  | none => exact if_pos rfl
  | some st => cases st <;> exact if_pos rfl

/-- The entries of a driver after its registration: a known driver keeps its own. -/
theorem standing_newDriver (m : NewDriver) :
    (s.newDriver m).1.standing name = Standing.hear name (s.standing name) (.newDriver m) := by
  have known : ∀ {p : Profile}, s.profile m.name = some p →
      s.standing name = Standing.hear name (s.standing name) (.newDriver m) := fun {p} hp => by
    by_cases hname : m.name = name
    · subst hname
      rw [standing, hp]
      exact (if_pos rfl).symm
    · exact (hear_other (moves_newDriver hname) _).symm
  unfold newDriver
  split
  · next hfree =>
      obtain ⟨p, hp⟩ := profile_known (.inl hfree)
      exact known hp
  · next hfree =>
      split
      · next hbusy =>
          obtain ⟨p, hp⟩ := profile_known (.inr hbusy)
          exact known hp
      · next hbusy =>
          by_cases hname : m.name = name
          · subst hname
            have hnone := profile_unknown hfree hbusy
            rw [standing, standing, hnone]
            simp [profile, Profile.standing, Standing.hear, Msg.moves]
          · rw [hear_other (moves_newDriver hname)]
            simp [standing, profile, Ne.symm hname]

/-- A message about driver `client` that changes its profile by `f`. -/
theorem standing_map {client : String} {f : Profile → Profile}
    (hprofile : t.profile name = if name = client then (s.profile name).map f else s.profile name)
    (hm : m.moves = some client)
    (hstep : ∀ p : Profile, Standing.hear client (some p.standing) m = some (f p).standing)
    (hnone : Standing.hear client none m = none) :
    t.standing name = Standing.hear name (s.standing name) m := by
  rw [standing, hprofile]
  split
  · next hname =>
      subst hname
      rw [standing]
      cases s.profile name with
      | none => exact hnone.symm
      | some p => exact (hstep p).symm
  · next hname =>
      have hother : m.moves ≠ some name := fun heq => hname (Option.some.inj (heq.symm.trans hm))
      exact (hear_other hother _).symm

theorem standing_busyDriver (m : BusyDriver) :
    (s.busyDriver m).1.standing name = Standing.hear name (s.standing name) (.busyDriver m) :=
  standing_map (profile_busyDriver m) rfl (fun _ => if_pos rfl) (if_pos rfl)

theorem standing_updateDriver (hd : s.DriversOk) (m : UpdateDriver) :
    (s.updateDriver m).1.standing name =
      Standing.hear name (s.standing name) (.updateDriver m) := by
  refine standing_map (profile_updateDriver hd m) rfl (fun p => ?_) (if_pos rfl)
  cases hbusy : p.busy <;> simp [Standing.hear, Msg.moves, Profile.standing, hbusy]

theorem standing_updateDriverSocket (m : UpdateDriverSocket) :
    (s.updateDriverSocket m).1.standing name = s.standing name := by
  rw [standing, profile_updateDriverSocket, standing]
  split
  · rw [Option.map_map]
    rfl
  · rfl

/-- **What a handler makes of a driver**, whatever message it handles, except for the copies of
    another registry. -/
theorem handle_standing (hd : s.DriversOk) (hstate : ∀ state, m ≠ .updateNetworkState state)
    (h : s.handle N o m = some (t, effects)) :
    t.standing name = Standing.hear name (s.standing name) m := by
  have same : t.drivers = s.drivers → t.busyDrivers = s.busyDrivers → m.moves = none →
      t.standing name = Standing.hear name (s.standing name) m := fun hfree hbusy hm => by
    rw [hear_other (by simp [hm]), standing, standing, profile, profile, hfree, hbusy]
  cases hr : m.isRegistry with
  | false =>
      have hsame := handle_sameRegistry hr hstate h
      refine same hsame.drivers hsame.busyDrivers ?_
      cases m <;> first | rfl | simp [Msg.isRegistry] at hr
  | true =>
      cases m with
      | newDriver m =>
          obtain rfl : (s.newDriver m).1 = t := by rw [Option.some.inj h]
          exact standing_newDriver m
      | updateDriver m =>
          obtain rfl : (s.updateDriver m).1 = t := by rw [Option.some.inj h]
          exact standing_updateDriver hd m
      | busyDriver m =>
          obtain rfl : (s.busyDriver m).1 = t := by rw [Option.some.inj h]
          exact standing_busyDriver m
      | updateDriverSocket m =>
          obtain rfl : (s.updateDriverSocket m).1 = t := by rw [Option.some.inj h]
          rw [standing_updateDriverSocket, hear_other (by simp [Msg.moves])]
      | passengerLogin m =>
          obtain rfl : (s.passengerLogin m).1 = t := by rw [Option.some.inj h]
          unfold passengerLogin at same ⊢
          split at same
          · exact same rfl rfl rfl
          · exact same rfl rfl rfl
      | reconnectDriver m =>
          obtain rfl : (s.reconnectDriver m).1 = t := by rw [Option.some.inj h]
          unfold reconnectDriver at same ⊢
          split at same
          · exact same rfl rfl rfl
          · exact same rfl rfl rfl
      | getDrivers addr =>
          obtain ⟨rfl, -⟩ := Prod.mk.inj (Option.some.inj h)
          exact same rfl rfl rfl
      | _ => simp [Msg.isRegistry] at hr

/-- The driver maps stay in order. -/
theorem handle_driversOk (hd : s.DriversOk) (hstate : ∀ state, m ≠ .updateNetworkState state)
    (h : s.handle N o m = some (t, effects)) : t.DriversOk := by
  cases hr : m.isRegistry with
  | false =>
      have hsame := handle_sameRegistry hr hstate h
      obtain ⟨hdisj, hfree, hbusy⟩ := hd
      exact ⟨hsame.drivers ▸ hsame.busyDrivers ▸ hdisj, hsame.drivers ▸ hfree,
        hsame.busyDrivers ▸ hbusy⟩
  | true => exact (registry_step hd hr (registryStep_of_handle hr h)).1

/-- What a leader sends itself tells it nothing about a driver. -/
theorem moves_of_self (h : s.handle N o m = some (t, effects)) :
    ∀ x ∈ selfMessages effects, x.moves ≠ some name := fun x hx => by
  rw [Msg.moves_eq_none (fromDriver_of_self h hx)]
  simp

/-- The two maps, read off what the leader knows. -/
theorem standing_maps (hd : s.DriversOk) {st : Standing} (h : s.standing name = some st) :
    (name ∈ s.busyDrivers ↔ st = .busy) ∧ ∀ position, st = .free position →
      (s.driverInfo name).map DriverInfo.position = some position := by
  simp only [standing, profile, mem_iff_lookup, driverInfo] at h ⊢
  cases hfree : s.drivers.lookup name with
  | some d =>
      have hbusy : s.busyDrivers.lookup name = none := AList.lookup_eq_none.2
        (hd.disjoint name ((mem_iff_lookup _ _).2 ⟨d, hfree⟩))
      rw [hfree] at h
      obtain rfl := Option.some.inj h
      simp [hbusy, Profile.standing]
  | none =>
      rw [hfree] at h
      cases hbusy : s.busyDrivers.lookup name with
      | none => rw [hbusy] at h; cases h
      | some d =>
          rw [hbusy] at h
          obtain rfl := Option.some.inj h
          simp [Profile.standing]

end Server

end ConcuRide
