import ConcuRide.Lib.Allocator
import ConcuRide.Lib.Run
import ConcuRide.Server.Handle

set_option autoImplicit false

/-! # The registry stays well formed

The three maps of a leader's registry share one counter, and drivers move between two of them. Seen
through `Server.alloc` the registry is an allocator of identifiers (`Lib.Alloc`), and every registry
handler is one of its steps (`registry_step`): the facts about identifiers follow from that alone.
-/

namespace ConcuRide

open Lib

/-- Whoever is registered: a driver or a passenger, by name. -/
inductive Client where
  | driver (name : String)
  | passenger (name : String)
deriving DecidableEq, Repr

/-- The messages that read or write the registry. -/
def Msg.isRegistry : Msg → Bool
  | .newDriver _ | .getDrivers _ | .passengerLogin _ | .updateDriver _ | .busyDriver _
  | .reconnectDriver _ | .updateDriverSocket _ => true
  | _ => false

/-- One registry message handled by a leader. The registry handlers ask the outside nothing. -/
def Server.registryStep (N : ℕ) (s : Server) (m : Msg) : Option Server :=
  (s.handle N ⟨true, none⟩ m).map Prod.fst

/-- A run of a leader over registry messages. -/
def RegistryRun (N : ℕ) (s : Server) (ms : List Msg) (t : Server) : Prop :=
  Run (Server.registryStep N) (fun _ m => m.isRegistry = true) s ms t

namespace Server

/-- The entry of a driver, free or busy. -/
def driverInfo (s : Server) (name : String) : Option DriverInfo :=
  (s.drivers.lookup name).or (s.busyDrivers.lookup name)

/-- The id given to a client. -/
def idOf (s : Server) : Client → Option ℕ
  | .driver name => (s.driverInfo name).map DriverInfo.id
  | .passenger name => s.passengers.lookup name

/-- The registry as an allocator of identifiers. -/
def alloc (s : Server) : Alloc Client where
  ids := s.idOf
  count := s.idsCount

/-- The two driver maps are disjoint and keyed by the names of their entries. -/
structure DriversOk (s : Server) : Prop where
  disjoint : ∀ name, name ∈ s.drivers → name ∉ s.busyDrivers
  freeName : ∀ name d, s.drivers.lookup name = some d → d.name = name
  busyName : ∀ name d, s.busyDrivers.lookup name = some d → d.name = name

end Server

/-! ## Lookups after an update -/

section Lookup

variable {V : Type} (m : HashMap String V)

theorem lookup_insert_ite (k k' : String) (v : V) :
    (m.insert k v).lookup k' = if k' = k then some v else m.lookup k' := by
  by_cases h : k' = k
  · subst h; rw [if_pos rfl, AList.lookup_insert]
  · rw [if_neg h, AList.lookup_insert_ne h]

theorem lookup_erase_ite (k k' : String) :
    (m.erase k).lookup k' = if k' = k then none else m.lookup k' := by
  by_cases h : k' = k
  · subst h; rw [if_pos rfl, AList.lookup_erase]
  · rw [if_neg h, AList.lookup_erase_ne h]

end Lookup

theorem lookup_setSocket (m : HashMap String DriverInfo) (name socket name' : String) :
    (Server.setSocket m name socket).lookup name'
      = if name' = name then (m.lookup name).map (fun d => { d with socket := socket })
        else m.lookup name' := by
  unfold Server.setSocket
  cases h : m.lookup name with
  | none =>
      by_cases hn : name' = name
      · subst hn; rw [if_pos rfl, h]; rfl
      · rw [if_neg hn]
  | some d => rw [lookup_insert_ite]; rfl

theorem mem_iff_lookup {V : Type} (m : HashMap String V) (k : String) :
    k ∈ m ↔ ∃ v, m.lookup k = some v := by
  rw [← AList.lookup_isSome, Option.isSome_iff_exists]

/-! ## The handlers as allocator steps -/

namespace Server

theorem not_busy_of_free {s : Server} (h : s.DriversOk) {name : String} {d : DriverInfo}
    (hd : s.drivers.lookup name = some d) : s.busyDrivers.lookup name = none :=
  AList.lookup_eq_none.2 (h.disjoint name ((mem_iff_lookup _ _).2 ⟨d, hd⟩))

theorem not_free_of_busy {s : Server} (h : s.DriversOk) {name : String} {d : DriverInfo}
    (hd : s.busyDrivers.lookup name = some d) : s.drivers.lookup name = none := by
  refine AList.lookup_eq_none.2 (fun hfree => h.disjoint name hfree ?_)
  exact (mem_iff_lookup _ _).2 ⟨d, hd⟩

/-- The three facts of `DriversOk` in terms of lookups. -/
theorem driversOk_of_lookup {s : Server}
    (hdisj : ∀ name d, s.drivers.lookup name = some d → s.busyDrivers.lookup name = none)
    (hfree : ∀ name d, s.drivers.lookup name = some d → d.name = name)
    (hbusy : ∀ name d, s.busyDrivers.lookup name = some d → d.name = name) : s.DriversOk where
  disjoint := fun name hname => by
    obtain ⟨d, hd⟩ := (mem_iff_lookup _ _).1 hname
    exact AList.lookup_eq_none.1 (hdisj name d hd)
  freeName := hfree
  busyName := hbusy

theorem newDriver_step {s : Server} (h : s.DriversOk) (m : NewDriver) :
    (s.newDriver m).1.DriversOk ∧ Alloc.Step s.alloc (s.newDriver m).1.alloc := by
  unfold newDriver
  split
  · exact ⟨h, .same rfl rfl⟩
  · next hfree =>
    split
    · exact ⟨h, .same rfl rfl⟩
    · next hbusy =>
      have hf : s.drivers.lookup m.name = none := AList.lookup_eq_none.2 hfree
      have hb : s.busyDrivers.lookup m.name = none := AList.lookup_eq_none.2 hbusy
      refine ⟨driversOk_of_lookup ?_ ?_ h.busyName, .give (.driver m.name) ?_ ?_ ?_ rfl⟩
      · intro name d hd
        simp only [lookup_insert_ite] at hd
        split at hd
        · next hn => subst hn; exact hb
        · exact not_busy_of_free h hd
      · intro name d hd
        simp only [lookup_insert_ite] at hd
        split at hd
        · next hn => subst hn; obtain rfl := Option.some.inj hd; rfl
        · exact h.freeName name d hd
      · simp [alloc, idOf, driverInfo, hf, hb]
      · simp [alloc, idOf, driverInfo]
      · intro c hc
        cases c with
        | passenger name => rfl
        | driver name =>
            have hn : name ≠ m.name := fun he => hc (by rw [he])
            simp [alloc, idOf, driverInfo, hn]

theorem passengerLogin_step {s : Server} (h : s.DriversOk) (m : PassengerLogin) :
    (s.passengerLogin m).1.DriversOk ∧ Alloc.Step s.alloc (s.passengerLogin m).1.alloc := by
  unfold passengerLogin
  split
  · exact ⟨⟨h.disjoint, h.freeName, h.busyName⟩, .same rfl rfl⟩
  · next hnone =>
    refine ⟨⟨h.disjoint, h.freeName, h.busyName⟩, .give (.passenger m.name) hnone ?_ ?_ rfl⟩
    · exact AList.lookup_insert _
    · intro c hc
      cases c with
      | driver name => rfl
      | passenger name =>
          have hn : name ≠ m.name := fun he => hc (by rw [he])
          simp [alloc, idOf, hn]

/-- A driver that moves between the maps, or changes its socket or position, keeps its id. -/
theorem alloc_same {s t : Server} (hcount : t.idsCount = s.idsCount)
    (hpass : t.passengers = s.passengers)
    (hdrv : ∀ name, (t.driverInfo name).map DriverInfo.id = (s.driverInfo name).map DriverInfo.id) :
    Alloc.Step s.alloc t.alloc := by
  refine .same (funext fun c => ?_) hcount
  cases c with
  | driver name => exact hdrv name
  | passenger name => simp only [alloc, idOf, hpass]

theorem updateDriver_step {s : Server} (h : s.DriversOk) (m : UpdateDriver) :
    (s.updateDriver m).1.DriversOk ∧ Alloc.Step s.alloc (s.updateDriver m).1.alloc := by
  unfold updateDriver
  split
  · exact ⟨h, .same rfl rfl⟩
  · next driver hdriver =>
    have hfree : s.drivers.lookup m.name = none := not_free_of_busy h hdriver
    refine ⟨driversOk_of_lookup ?_ ?_ ?_, alloc_same rfl rfl fun name => ?_⟩
    · intro name d hd
      simp only [lookup_insert_ite, lookup_erase_ite] at hd ⊢
      split at hd
      · next hn => rw [if_pos hn]
      · next hn => rw [if_neg hn]; exact not_busy_of_free h hd
    · intro name d hd
      simp only [lookup_insert_ite] at hd
      split at hd
      · next hn =>
          subst hn
          obtain rfl := Option.some.inj hd
          exact h.busyName m.name driver hdriver
      · exact h.freeName name d hd
    · intro name d hd
      simp only [lookup_erase_ite] at hd
      split at hd
      · exact absurd hd (by simp)
      · exact h.busyName name d hd
    · by_cases hn : name = m.name
      · subst hn; simp [driverInfo, hfree, hdriver]
      · simp [driverInfo, hn]

theorem busyDriver_step {s : Server} (h : s.DriversOk) (m : BusyDriver) :
    (s.busyDriver m).1.DriversOk ∧ Alloc.Step s.alloc (s.busyDriver m).1.alloc := by
  unfold busyDriver
  split
  · exact ⟨h, .same rfl rfl⟩
  · next driver hdriver =>
    have hbusy : s.busyDrivers.lookup m.name = none := not_busy_of_free h hdriver
    refine ⟨driversOk_of_lookup ?_ ?_ ?_, alloc_same rfl rfl fun name => ?_⟩
    · intro name d hd
      simp only [lookup_insert_ite, lookup_erase_ite] at hd ⊢
      split at hd
      · exact absurd hd (by simp)
      · next hn => rw [if_neg hn]; exact not_busy_of_free h hd
    · intro name d hd
      simp only [lookup_erase_ite] at hd
      split at hd
      · exact absurd hd (by simp)
      · exact h.freeName name d hd
    · intro name d hd
      simp only [lookup_insert_ite] at hd
      split at hd
      · next hn =>
          subst hn
          obtain rfl := Option.some.inj hd
          exact h.freeName m.name driver hdriver
      · exact h.busyName name d hd
    · by_cases hn : name = m.name
      · subst hn; simp [driverInfo, hdriver]
      · simp [driverInfo, hn]

theorem setSocket_some {m : HashMap String DriverInfo} {name socket name' : String}
    {d : DriverInfo} (h : (setSocket m name socket).lookup name' = some d) :
    ∃ d₀, m.lookup name' = some d₀ ∧ d.name = d₀.name ∧ d.id = d₀.id := by
  rw [lookup_setSocket] at h
  split at h
  · next hn =>
      subst hn
      obtain ⟨d₀, hd₀, rfl⟩ := Option.map_eq_some_iff.1 h
      exact ⟨d₀, hd₀, rfl, rfl⟩
  · exact ⟨d, h, rfl, rfl⟩

theorem setSocket_none {m : HashMap String DriverInfo} {name socket name' : String}
    (h : m.lookup name' = none) : (setSocket m name socket).lookup name' = none := by
  rw [lookup_setSocket]
  split
  · next hn => subst hn; rw [h]; rfl
  · exact h

theorem updateDriverSocket_step {s : Server} (h : s.DriversOk) (m : UpdateDriverSocket) :
    (s.updateDriverSocket m).1.DriversOk ∧
      Alloc.Step s.alloc (s.updateDriverSocket m).1.alloc := by
  refine ⟨driversOk_of_lookup ?_ ?_ ?_, alloc_same rfl rfl fun name => ?_⟩
  · intro name d hd
    obtain ⟨d₀, hd₀, _⟩ := setSocket_some hd
    exact setSocket_none (not_busy_of_free h hd₀)
  · intro name d hd
    obtain ⟨d₀, hd₀, hname, _⟩ := setSocket_some hd
    rw [hname]
    exact h.freeName name d₀ hd₀
  · intro name d hd
    obtain ⟨d₀, hd₀, hname, _⟩ := setSocket_some hd
    rw [hname]
    exact h.busyName name d₀ hd₀
  · simp only [driverInfo, updateDriverSocket, lookup_setSocket]
    by_cases hn : name = m.name
    · subst hn
      simp only [if_true]
      cases s.drivers.lookup m.name <;> cases s.busyDrivers.lookup m.name <;> rfl
    · simp only [if_neg hn]

/-- **Every registry message is a step of the allocator**, and keeps the driver maps in order. -/
theorem registry_step {N : ℕ} {s t : Server} {m : Msg} (h : s.DriversOk)
    (hm : m.isRegistry = true) (hst : s.registryStep N m = some t) :
    t.DriversOk ∧ Alloc.Step s.alloc t.alloc := by
  obtain ⟨r, hhandle, rfl⟩ := Option.map_eq_some_iff.1 hst
  cases m with
  | newDriver m => obtain rfl := Option.some.inj hhandle; exact newDriver_step h m
  | getDrivers addr => obtain rfl := Option.some.inj hhandle; exact ⟨h, .same rfl rfl⟩
  | passengerLogin m => obtain rfl := Option.some.inj hhandle; exact passengerLogin_step h m
  | updateDriver m => obtain rfl := Option.some.inj hhandle; exact updateDriver_step h m
  | busyDriver m => obtain rfl := Option.some.inj hhandle; exact busyDriver_step h m
  | reconnectDriver m =>
      obtain rfl := Option.some.inj hhandle
      unfold reconnectDriver
      split <;> exact ⟨h, .same rfl rfl⟩
  | updateDriverSocket m => obtain rfl := Option.some.inj hhandle; exact updateDriverSocket_step h m
  | _ => simp [Msg.isRegistry] at hm

end Server

/-! ## Runs of a leader -/

/-- What holds of a leader's registry in every state it reaches. -/
structure Server.WellFormed (s : Server) : Prop where
  drivers : s.DriversOk
  ids : s.alloc.Ok

theorem lider_wellFormed (N id : ℕ) : (Server.lider N id).WellFormed where
  drivers := ⟨fun name h => absurd h (AList.notMem_empty name), fun name d h => absurd h (by simp
    [Server.lider]), fun name d h => absurd h (by simp [Server.lider])⟩
  ids := by
    have hempty : (Server.lider N id).alloc = { ids := fun _ => none, count := 0 } := by
      simp only [Server.alloc, Alloc.mk.injEq]
      exact ⟨funext fun c => by cases c <;> rfl, rfl⟩
    rw [hempty]
    exact .empty

theorem RegistryRun.wellFormed {N : ℕ} {s t : Server} {ms : List Msg} (h : RegistryRun N s ms t)
    (hs : s.WellFormed) : t.WellFormed :=
  Run.invariant (fun _ _ _ hu hm hst =>
    have hstep := Server.registry_step hu.drivers hm hst
    ⟨hstep.1, hu.ids.step hstep.2⟩) h hs

/-- The id of a client outlives every further message. -/
theorem RegistryRun.keeps_id {N : ℕ} {s t : Server} {ms : List Msg} (h : RegistryRun N s ms t)
    (hs : s.WellFormed) {c : Client} {i : ℕ} (hi : s.idOf c = some i) : t.idOf c = some i := by
  have hinv : t.WellFormed ∧ t.idOf c = some i :=
    Run.invariant (P := fun u => u.WellFormed ∧ u.idOf c = some i)
      (fun _ _ _ hu hm hst =>
        have hstep := Server.registry_step hu.1.drivers hm hst
        ⟨⟨hstep.1, hu.1.ids.step hstep.2⟩, hstep.2.keeps hu.2⟩) h ⟨hs, hi⟩
  exact hinv.2

/-- **The registry of a leader is well formed at all times.** After any registry messages, no driver
    is both free and busy, every entry is stored under its own name, the ids of drivers and
    passengers are distinct and in `1..=ids_count`, and whatever is handled next, a client keeps its
    id and with it its entry. -/
theorem registry_wellFormed {N id : ℕ} {ms : List Msg} {s : Server}
    (h : RegistryRun N (Server.lider N id) ms s) :
    (∀ name, ¬ (name ∈ s.drivers ∧ name ∈ s.busyDrivers)) ∧
    (∀ name d, s.drivers.lookup name = some d ∨ s.busyDrivers.lookup name = some d →
      d.name = name) ∧
    (∀ c i, s.idOf c = some i → 1 ≤ i ∧ i ≤ s.idsCount) ∧
    (∀ c c' i, s.idOf c = some i → s.idOf c' = some i → c = c') ∧
    (∀ ms' t, RegistryRun N s ms' t → ∀ c i, s.idOf c = some i → t.idOf c = some i) := by
  have hwf : s.WellFormed := h.wellFormed (lider_wellFormed N id)
  refine ⟨fun name hname => hwf.drivers.disjoint name hname.1 hname.2, ?_, hwf.ids.range,
    hwf.ids.inj, fun ms' t ht c i hi => ht.keeps_id hwf hi⟩
  rintro name d (hd | hd)
  · exact hwf.drivers.freeName name d hd
  · exact hwf.drivers.busyName name d hd

/-- A driver and a passenger register, and the driver takes a ride. -/
theorem registry_wellFormed_ride :
    ∃ s, RegistryRun 5 (Server.lider 5 1)
        [.newDriver ⟨"mario", "127.0.0.1:40000", (5, 3)⟩, .passengerLogin ⟨"pepe", .client 0⟩,
          .busyDriver ⟨"mario"⟩] s ∧
      s.idOf (.driver "mario") = some 1 ∧ s.idOf (.passenger "pepe") = some 2 ∧
      ∀ name, ¬ (name ∈ s.drivers ∧ name ∈ s.busyDrivers) := by
  have hrun : RegistryRun 5 (Server.lider 5 1) [.newDriver ⟨"mario", "127.0.0.1:40000", (5, 3)⟩,
      .passengerLogin ⟨"pepe", .client 0⟩, .busyDriver ⟨"mario"⟩] _ :=
    .cons rfl rfl (.cons rfl rfl (.cons rfl rfl (.nil _)))
  exact ⟨_, hrun, by decide, by decide, (registry_wellFormed hrun).1⟩

end ConcuRide
