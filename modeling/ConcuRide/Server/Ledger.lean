import ConcuRide.Server.Cases
import ConcuRide.Server.WellFormed

set_option autoImplicit false

/-! # The registry and its copies

What a leader tells its clients about their ids, what it copies to its replicas, and that nothing
but the registry messages and these copies changes a registry. -/

namespace ConcuRide

open Lib

namespace Server

/-- The id the server tells a client that registers, once it has handled `m`. -/
def told (t : Server) : Msg → List (Client × ℕ)
  | .newDriver m => (t.idOf (.driver m.name)).toList.map fun i => (.driver m.name, i)
  | .passengerLogin m => (t.idOf (.passenger m.name)).toList.map fun i => (.passenger m.name, i)
  | _ => []

/-- Two states with the same registry. -/
structure SameRegistry (s t : Server) : Prop where
  drivers : t.drivers = s.drivers
  busyDrivers : t.busyDrivers = s.busyDrivers
  passengers : t.passengers = s.passengers
  idsCount : t.idsCount = s.idsCount

/-- The registry is in order, and every id in it is in the ledger. -/
structure RegistryOk (ledger : List (Client × ℕ)) (s : Server) : Prop where
  drivers : s.DriversOk
  within : s.alloc.Within ledger

variable {N : ℕ} {o : Oracle} {s t : Server} {m : Msg} {effects : List Effect}
  {ledger new : List (Client × ℕ)}

theorem SameRegistry.alloc_eq (h : s.SameRegistry t) : t.alloc = s.alloc := by
  have hids : t.idOf = s.idOf := by
    funext c
    cases c <;> simp [idOf, driverInfo, h.drivers, h.busyDrivers, h.passengers]
  rw [alloc, alloc, hids, h.idsCount]

theorem SameRegistry.registryOk (h : s.SameRegistry t) (hs : s.RegistryOk ledger) :
    t.RegistryOk ledger where
  drivers := by
    obtain ⟨hdisj, hfree, hbusy⟩ := hs.drivers
    exact ⟨h.drivers ▸ h.busyDrivers ▸ hdisj, h.drivers ▸ hfree, h.busyDrivers ▸ hbusy⟩
  within := h.alloc_eq ▸ hs.within

theorem RegistryOk.append (h : s.RegistryOk ledger) : s.RegistryOk (new ++ ledger) where
  drivers := h.drivers
  within := fun c i hi => List.mem_append_right _ (h.within c i hi)

/-! ## What handlers do to the registry -/

theorem handle_sameRegistry (hm : m.isRegistry = false)
    (hstate : ∀ state, m ≠ .updateNetworkState state)
    (h : s.handle N o m = some (t, effects)) : s.SameRegistry t := by
  have hh := handle_cases h
  generalize selfMessages effects = self at hh
  generalize datagrams effects = dgs at hh
  cases hh with
  | quiet hquiet =>
      cases m with
      | newServerConnection m =>
          obtain ⟨rfl, -⟩ := Prod.mk.inj (Option.some.inj h)
          exact ⟨rfl, rfl, rfl, rfl⟩
      | pong addr =>
          obtain ⟨rfl, -⟩ := Prod.mk.inj (Option.some.inj h)
          exact ⟨rfl, rfl, rfl, rfl⟩
      | sendLeaderId addr =>
          simp only [handle, sendLeaderId] at h
          split at h
          · obtain ⟨rfl, -⟩ := Prod.mk.inj (Option.some.inj h)
            exact ⟨rfl, rfl, rfl, rfl⟩
          · simp at h
      | updateNetworkState state => exact absurd rfl (hstate state)
      | _ => contradiction
  | _ => exact ⟨rfl, rfl, rfl, rfl⟩

/-- What a client holds after a message it held before, or is told. -/
theorem idOf_handle (hm : m.isRegistry = true) (hs : s.DriversOk)
    (h : s.handle N o m = some (t, effects)) {c : Client} {i : ℕ} (hi : t.idOf c = some i) :
    s.idOf c = some i ∨ (c, i) ∈ t.told m := by
  have hsame : ∀ {r : Server × List Effect}, some r = some (t, effects) →
      Alloc.Step s.alloc r.1.alloc → r.1.idsCount = s.idsCount → s.idOf c = some i := by
    intro r hr hstep hcount
    obtain rfl := Option.some.inj hr
    exact (congrFun (hstep.ids_eq_of_count hcount) c).symm.trans hi
  cases m with
  | newDriver m =>
      by_cases hc : c = .driver m.name
      · subst hc
        exact .inr (by simp [told, hi])
      · left
        obtain rfl : (s.newDriver m).1 = t := by rw [Option.some.inj h]
        unfold newDriver at hi
        split at hi
        · exact hi
        · split at hi
          · exact hi
          · cases c with
            | passenger name => exact hi
            | driver name =>
                have hn : name ≠ m.name := fun he => hc (by rw [he])
                simpa [idOf, driverInfo, hn] using hi
  | passengerLogin m =>
      by_cases hc : c = .passenger m.name
      · subst hc
        exact .inr (by simp [told, hi])
      · left
        obtain rfl : (s.passengerLogin m).1 = t := by rw [Option.some.inj h]
        unfold passengerLogin at hi
        split at hi
        · cases c <;> exact hi
        · cases c with
          | driver name => exact hi
          | passenger name =>
              have hn : name ≠ m.name := fun he => hc (by rw [he])
              simpa [idOf, hn] using hi
  | getDrivers addr => exact .inl (hsame h (.same rfl rfl) rfl)
  | updateDriver m =>
      refine .inl (hsame h (updateDriver_step hs m).2 ?_)
      unfold updateDriver
      split <;> rfl
  | busyDriver m =>
      refine .inl (hsame h (busyDriver_step hs m).2 ?_)
      unfold busyDriver
      split <;> rfl
  | reconnectDriver m =>
      have hst : s.registryStep N (.reconnectDriver m) = some (s.reconnectDriver m).1 := rfl
      refine .inl (hsame h (registry_step hs rfl hst).2 ?_)
      unfold reconnectDriver
      split <;> rfl
  | updateDriverSocket m => exact .inl (hsame h (updateDriverSocket_step hs m).2 rfl)
  | _ => simp [Msg.isRegistry] at hm

theorem idOf_of_told {g : Client × ℕ} (hg : g ∈ t.told m) : t.idOf g.1 = some g.2 := by
  cases m with
  | newDriver m | passengerLogin m =>
      obtain ⟨i, hi, rfl⟩ := List.mem_map.1 hg
      exact Option.mem_toList.1 hi
  | _ => simp [told] at hg

/-- Messages about the registry, which a server sends itself only while it handles one; copies of
    the registry it never sends itself. -/
theorem isRegistry_of_self (h : s.handle N o m = some (t, effects)) {x : Msg}
    (hx : x ∈ selfMessages effects) :
    (x.isRegistry = true → m.isRegistry = true) ∧ ∀ state, x ≠ .updateNetworkState state := by
  have hh := handle_cases h
  generalize hself : selfMessages effects = self at hh hx
  generalize datagrams effects = dgs at hh
  cases hh with
  | quiet hquiet =>
      subst hself
      cases m with
      | newDriver | reconnectDriver | getDrivers | passengerLogin | updateDriver | busyDriver
      | updateDriverSocket =>
          refine ⟨fun _ => rfl, fun state heq => ?_⟩
          subst heq
          simp only [handle, newDriver, reconnectDriver, getDrivers, passengerLogin, updateDriver,
            busyDriver, updateDriverSocket, Option.some.injEq] at h
          (repeat' split at h) <;>
            · obtain ⟨-, rfl⟩ := Prod.mk.inj h
              simp [selfMessages] at hx
      | newServerConnection =>
          obtain ⟨-, rfl⟩ := Prod.mk.inj (Option.some.inj h)
          obtain ⟨effect, he, hx⟩ := List.mem_filterMap.1 hx
          obtain ⟨addr, -, rfl⟩ := List.mem_map.1 he
          obtain rfl := Option.some.inj hx
          exact ⟨fun hx => by simp [Msg.isRegistry] at hx, by simp⟩
      | pong | updateNetworkState =>
          obtain ⟨-, rfl⟩ := Prod.mk.inj (Option.some.inj h)
          simp [selfMessages] at hx
      | sendLeaderId =>
          simp only [handle, sendLeaderId] at h
          split at h
          · obtain ⟨-, rfl⟩ := Prod.mk.inj (Option.some.inj h)
            simp [selfMessages] at hx
          · simp at h
      | _ => contradiction
  | newLeaderOwn =>
      obtain rfl := mem_connecting hx
      exact ⟨fun hx => by simp [Msg.isRegistry] at hx, by simp⟩
  | newLeaderDeclare | newLeaderForward =>
      rcases List.mem_cons.1 hx with rfl | hx
      · exact ⟨fun hx => by simp [Msg.isRegistry, waiting] at hx, by simp [waiting]⟩
      · obtain rfl := mem_connecting hx
        exact ⟨fun hx => by simp [Msg.isRegistry] at hx, by simp⟩
  | pingLost | startDeclare | startSend | wait | checkDeclare | checkResend | electionDeclare
  | electionFinish | electionForward =>
      obtain rfl := List.mem_singleton.1 hx
      exact ⟨fun hx => by simp [Msg.isRegistry, waiting] at hx, by simp [waiting]⟩
  | _ => simp at hx

/-- Registry handlers ask the outside nothing. -/
theorem registryStep_of_handle (hm : m.isRegistry = true)
    (h : s.handle N o m = some (t, effects)) : s.registryStep N m = some t := by
  have : s.handle N ⟨true, none⟩ m = s.handle N o m := by
    cases m <;> first | rfl | simp [Msg.isRegistry] at hm
  rw [registryStep, this, h]
  rfl

/-- **A leader that has reached the whole ledger keeps it in order**: whatever id it tells a client
    has been told to no other. -/
theorem handle_ledger (hm : m.isRegistry = true) (hs : s.RegistryOk ledger)
    (hreach : s.alloc.Reaches ledger) (hd : Alloc.Distinct ledger)
    (h : s.handle N o m = some (t, effects)) :
    t.RegistryOk (t.told m ++ ledger) ∧ t.alloc.Reaches (t.told m ++ ledger) ∧
      Alloc.Distinct (t.told m ++ ledger) := by
  obtain ⟨hok, hstep⟩ := registry_step hs.drivers hm (registryStep_of_handle hm h)
  obtain ⟨hwithin, hreach', hd'⟩ := hstep.keepsLedger hs.within hreach hd (fun g hg => idOf_of_told hg)
    fun c i hi => idOf_handle hm hs.drivers h hi
  exact ⟨⟨hok, hwithin⟩, hreach', hd'⟩

/-- Only `PassengerLogin` and the copies of another registry change who is a passenger, and only the
    former an address. -/
theorem passengers_handled (h : s.handle N o m = some (t, effects)) :
    (t.passengers = s.passengers ∧ t.passengersAddress = s.passengersAddress) ∨
      (∃ e, m = .passengerLogin e) ∨ ∃ state, m = .updateNetworkState state := by
  have hh := handle_cases h
  generalize selfMessages effects = self at hh
  generalize datagrams effects = dgs at hh
  cases hh with
  | quiet hquiet =>
      cases m with
      | passengerLogin e => exact .inr (.inl ⟨e, rfl⟩)
      | updateNetworkState state => exact .inr (.inr ⟨state, rfl⟩)
      | newDriver | getDrivers | updateDriver | busyDriver | reconnectDriver | updateDriverSocket
      | newServerConnection | pong =>
          simp only [handle, newDriver, getDrivers, updateDriver, busyDriver, reconnectDriver,
            updateDriverSocket, newServerConnection, pong, Option.some.injEq] at h
          (repeat' split at h) <;> · obtain ⟨rfl, -⟩ := Prod.mk.inj h; exact .inl ⟨rfl, rfl⟩
      | sendLeaderId =>
          simp only [handle, sendLeaderId] at h
          split at h
          · obtain ⟨rfl, -⟩ := Prod.mk.inj (Option.some.inj h)
            exact .inl ⟨rfl, rfl⟩
          · cases h
      | _ => cases hquiet
  | _ => exact .inl ⟨rfl, rfl⟩

/-! ## Copies -/

/-- A `pong` carries the registry of the server that sends it. -/
theorem state_of_pong {addr : Addr} {state : UpdateNetworkState}
    (h : s.handle N o m = some (t, effects)) (he : .tcp addr (.pong state) ∈ effects) :
    m = .pong addr ∧ state = s.networkState := by
  cases m with
  | pong addr' =>
      obtain ⟨-, rfl⟩ := Prod.mk.inj (Option.some.inj h)
      obtain ⟨rfl, hline⟩ := Effect.tcp.inj (List.mem_singleton.1 he)
      exact ⟨rfl, Line.pong.inj hline⟩
  | newDriver | updateDriver | busyDriver | reconnectDriver | passengerLogin | getDrivers
  | updateDriverSocket =>
      simp only [handle, newDriver, updateDriver, busyDriver, reconnectDriver, passengerLogin,
        getDrivers, updateDriverSocket, Option.some.injEq] at h
      (repeat' split at h) <;> · obtain ⟨-, rfl⟩ := Prod.mk.inj h; simp at he
  | newServerConnection | updateNetworkState | setLeader | waitForNeighborAck | neighborAck
  | connectToServer | ping | startElection | checkIfNeighborAcked =>
      simp only [handle, newServerConnection, updateNetworkState, setLeader, waitForNeighborAck,
        neighborAck, connectToServer, ping, startElection, checkIfNeighborAcked, declareSelf,
        sendIfUdp, waitForAck, Option.some.injEq] at h
      (repeat' split at h) <;> · obtain ⟨-, rfl⟩ := Prod.mk.inj h; simp at he
  | sendLeaderId | election =>
      simp only [handle, sendLeaderId, election, declareSelf, waitForAck] at h
      (repeat' split at h) <;> first
        | · simp at h
        | · obtain ⟨-, rfl⟩ := Prod.mk.inj (Option.some.inj h); simp at he
  | newLeader m =>
      simp only [handle, newLeader, acceptLeader, passOn, connectIfNeeded, declareSelf,
        waitForAck, Option.map_eq_some_iff] at h
      obtain ⟨⟨u, sent⟩, hsent, h⟩ := h
      obtain ⟨-, rfl⟩ := Prod.mk.inj h
      (repeat' split at hsent) <;> first
        | · simp at hsent
        | · obtain ⟨-, rfl⟩ := Prod.mk.inj (Option.some.inj hsent)
            simp only [List.mem_append] at he
            rcases he with (he | he) | he
            · split at he <;> simp at he
            · simp at he
            · split at he <;> simp at he

/-- A copy of a registry that is in order, and within the ledger. -/
def SnapshotOk (ledger : List (Client × ℕ)) (state : UpdateNetworkState) : Prop :=
  ∀ s : Server, (s.updateNetworkState state).1.RegistryOk ledger

theorem RegistryOk.snapshot (h : s.RegistryOk ledger) : SnapshotOk ledger s.networkState :=
  fun _ => SameRegistry.registryOk (s := s) ⟨rfl, rfl, rfl, rfl⟩ h

theorem SnapshotOk.append {state : UpdateNetworkState} (h : SnapshotOk ledger state) :
    SnapshotOk (new ++ ledger) state := fun s => (h s).append

end Server

end ConcuRide
