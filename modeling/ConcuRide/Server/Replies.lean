import ConcuRide.Server.Desk

set_option autoImplicit false

/-! # What a server writes, and what it sends itself

A server answers: a passenger that logs in is told its id, whoever asks for the drivers gets the
list of the free ones, a replica gets a copy of the registry, and when a driver comes back, its
passenger is told. Of the registry it sends itself nothing but the sockets it was told. -/

namespace ConcuRide

open Lib

/-- The socket of driver `name` that a message tells. -/
def Msg.socketOf (name : String) : Msg → Option String
  | .newDriver m => if m.name = name then some m.socket else none
  | .reconnectDriver m => if m.name = name then some m.socket else none
  | .updateDriverSocket m => if m.name = name then some m.socket else none
  | _ => none

/-- The client at `addr` asks for the drivers. -/
def Msg.isQuery (addr : Addr) : Msg → Bool
  | .getDrivers asker => decide (asker = addr)
  | _ => false

/-- The line is the answer to it. -/
def Line.isDrivers : Line → Bool
  | .drivers _ => true
  | _ => false

theorem Msg.isRegistry_of_socket {name socket : String} {m : Msg}
    (h : m.socketOf name = some socket) : m.isRegistry = true := by
  cases m with
  | newDriver | reconnectDriver | updateDriverSocket => rfl
  | _ => cases h

namespace Server

/-- What a server has written when it has handled a message, from the state before and after. -/
inductive Writes (s t : Server) : Msg → Addr → Line → Prop
  | drivers (addr : Addr) : Writes s t (.getDrivers addr) addr (.drivers s.drivers.values)
  | id (e : PassengerLogin) {id : ℕ}
      (htold : (.passenger e.name, id) ∈ t.told (.passengerLogin e)) :
      Writes s t (.passengerLogin e) e.addr (.identificador id)
  | reconnects (e : ReconnectDriver) (addr : Addr) :
      Writes s t (.reconnectDriver e) addr (.reconnectDriver e.socket)
  | copy (addr : Addr) : Writes s t (.pong addr) addr (.pong s.networkState)

/-- The lines of a handler for the client at `addr`. -/
def linesTo (addr : Addr) (effects : List Effect) : List Line :=
  effects.filterMap fun
    | .tcp dst line => if dst = addr then some line else none
    | _ => none

variable {N : ℕ} {o : Oracle} {s t : Server} {m x : Msg} {effects : List Effect} {addr : Addr}
  {line : Line} {name socket : String}

/-- **Every line is one of these.** -/
theorem handle_writes (h : s.handle N o m = some (t, effects)) (he : .tcp addr line ∈ effects) :
    Writes s t m addr line := by
  cases m with
  | passengerLogin e =>
      simp only [handle, passengerLogin, Option.some.injEq] at h
      split at h
      · next id hid =>
          obtain ⟨rfl, rfl⟩ := Prod.mk.inj h
          obtain ⟨rfl, rfl⟩ := Effect.tcp.inj (List.mem_singleton.1 he)
          exact .id e (by simp [told, idOf, hid])
      · obtain ⟨rfl, rfl⟩ := Prod.mk.inj h
        obtain ⟨rfl, rfl⟩ := Effect.tcp.inj (List.mem_singleton.1 he)
        exact .id e (by simp [told, idOf, AList.lookup_insert])
  | getDrivers asker =>
      obtain ⟨rfl, rfl⟩ := Prod.mk.inj (Option.some.inj h)
      obtain ⟨rfl, rfl⟩ := Effect.tcp.inj (List.mem_singleton.1 he)
      exact .drivers _
  | pong asker =>
      obtain ⟨rfl, rfl⟩ := Prod.mk.inj (Option.some.inj h)
      obtain ⟨rfl, rfl⟩ := Effect.tcp.inj (List.mem_singleton.1 he)
      exact .copy _
  | reconnectDriver e =>
      simp only [handle, reconnectDriver, Option.some.injEq] at h
      split at h
      · obtain ⟨-, rfl⟩ := Prod.mk.inj h
        simp only [List.mem_cons, reduceCtorEq, false_or, List.not_mem_nil, or_false] at he
        obtain ⟨rfl, rfl⟩ := Effect.tcp.inj he
        exact .reconnects e _
      · obtain ⟨-, rfl⟩ := Prod.mk.inj h
        simp at he
  | newDriver | updateDriver | busyDriver | updateDriverSocket =>
      simp only [handle, newDriver, updateDriver, busyDriver, updateDriverSocket,
        Option.some.injEq] at h
      (repeat' split at h) <;> · obtain ⟨-, rfl⟩ := Prod.mk.inj h; simp at he
  | newServerConnection | updateNetworkState | setLeader | waitForNeighborAck | neighborAck
  | connectToServer | ping | startElection | checkIfNeighborAcked =>
      simp only [handle, newServerConnection, updateNetworkState, setLeader, waitForNeighborAck,
        neighborAck, connectToServer, ping, startElection, checkIfNeighborAcked, declareSelf,
        sendIfUdp, waitForAck, Option.some.injEq] at h
      (repeat' split at h) <;> · obtain ⟨-, rfl⟩ := Prod.mk.inj h; simp at he
  | sendLeaderId | election =>
      simp only [handle, sendLeaderId, election, declareSelf, waitForAck] at h
      (repeat' split at h) <;> first
        | · simp at h
        | · obtain ⟨-, rfl⟩ := Prod.mk.inj (Option.some.inj h); simp at he
  | newLeader m =>
      simp only [handle, newLeader, acceptLeader, passOn, connectIfNeeded, declareSelf,
        waitForAck, Option.map_eq_some_iff] at h
      obtain ⟨⟨u, sent⟩, hsent, h⟩ := h
      obtain ⟨-, rfl⟩ := Prod.mk.inj h
      (repeat' split at hsent) <;> first
        | · simp at hsent
        | · obtain ⟨-, rfl⟩ := Prod.mk.inj (Option.some.inj hsent)
            simp only [List.mem_append] at he
            rcases he with (he | he) | he
            · split at he <;> simp at he
            · simp at he
            · split at he <;> simp at he

theorem mem_linesTo (h : line ∈ linesTo addr effects) : .tcp addr line ∈ effects := by
  obtain ⟨e, he, hline⟩ := List.mem_filterMap.1 h
  cases e with
  | tcp dst l =>
      simp only [Option.ite_none_right_eq_some, Option.some.injEq] at hline
      obtain ⟨rfl, rfl⟩ := hline
      exact he
  | _ => cases hline

/-- A query for the drivers is answered once, and nothing else is. -/
theorem countP_drivers (h : s.handle N o m = some (t, effects)) :
    (linesTo addr effects).countP Line.isDrivers = (m.isQuery addr).toNat := by
  cases hm : m.isQuery addr with
  | true =>
      cases m with
      | getDrivers asker =>
          obtain rfl : asker = addr := of_decide_eq_true hm
          obtain ⟨rfl, rfl⟩ := Prod.mk.inj (Option.some.inj h)
          simp [linesTo, Line.isDrivers]
      | _ => cases hm
  | false =>
      refine List.countP_eq_zero.2 fun line hline hdrivers => ?_
      cases handle_writes h (mem_linesTo hline) with
      | drivers => simp [Msg.isQuery] at hm
      | id | reconnects | copy => cases hdrivers

/-! ## Its own messages -/

/-- **Of the registry, a server sends itself only sockets**, and those it was told. -/
theorem self_of_registry (h : s.handle N o m = some (t, effects)) (hx : x ∈ selfMessages effects)
    (hr : x.isRegistry = true) :
    ∃ u, x = .updateDriverSocket u ∧ m.socketOf u.name = some u.socket := by
  have hm := (isRegistry_of_self h hx).1 hr
  cases m with
  | newDriver | reconnectDriver =>
      simp only [handle, newDriver, reconnectDriver, Option.some.injEq] at h
      (repeat' split at h) <;>
        · obtain ⟨-, rfl⟩ := Prod.mk.inj h
          simp only [selfMessages, List.filterMap_cons, List.filterMap_nil, List.not_mem_nil,
            List.mem_singleton] at hx
          try exact ⟨_, hx, if_pos rfl⟩
  | getDrivers | updateDriverSocket =>
      obtain ⟨-, rfl⟩ := Prod.mk.inj (Option.some.inj h)
      simp [selfMessages] at hx
  | busyDriver | updateDriver | passengerLogin =>
      simp only [handle, busyDriver, updateDriver, passengerLogin, Option.some.injEq] at h
      (repeat' split at h) <;>
        · obtain ⟨-, rfl⟩ := Prod.mk.inj h
          simp [selfMessages] at hx
  | _ => cases hm

theorem socketOf_self (h : s.handle N o m = some (t, effects)) (hx : x ∈ selfMessages effects)
    (hsocket : x.socketOf name = some socket) : m.socketOf name = some socket := by
  obtain ⟨u, rfl, hu⟩ := self_of_registry h hx (Msg.isRegistry_of_socket hsocket)
  simp only [Msg.socketOf, Option.ite_none_right_eq_some, Option.some.injEq] at hsocket
  obtain ⟨rfl, rfl⟩ := hsocket
  exact hu

/-- **The registry has a driver at the socket it was told last**, or at an earlier one. -/
theorem socket_of_handle (hd : s.DriversOk) (hstate : ∀ state, m ≠ .updateNetworkState state)
    (h : s.handle N o m = some (t, effects)) {p : Profile} (hp : t.profile name = some p) :
    (∃ q, s.profile name = some q ∧ q.socket = p.socket) ∨ m.socketOf name = some p.socket := by
  have same : t.drivers = s.drivers → t.busyDrivers = s.busyDrivers →
      ∃ q, s.profile name = some q ∧ q.socket = p.socket := fun hfree hbusy => by
    rw [profile, hfree, hbusy] at hp
    exact ⟨p, hp, rfl⟩
  cases hr : m.isRegistry with
  | false =>
      have hsame := handle_sameRegistry hr hstate h
      exact .inl (same hsame.drivers hsame.busyDrivers)
  | true =>
      cases m with
      | newDriver e =>
          simp only [handle, newDriver, Option.some.injEq] at h
          split at h
          · obtain ⟨rfl, -⟩ := Prod.mk.inj h
            exact .inl (same rfl rfl)
          · next hfree =>
              split at h
              · obtain ⟨rfl, -⟩ := Prod.mk.inj h
                exact .inl (same rfl rfl)
              · next hbusy =>
                  obtain ⟨rfl, -⟩ := Prod.mk.inj h
                  by_cases hname : e.name = name
                  · subst hname
                    simp only [profile, AList.lookup_insert, Option.map_some, Option.some_or,
                      Option.some.injEq] at hp
                    subst hp
                    exact .inr (if_pos rfl)
                  · simp only [profile, AList.lookup_insert_ne (Ne.symm hname)] at hp
                    exact .inl ⟨p, hp, rfl⟩
      | busyDriver e =>
          obtain rfl : (s.busyDriver e).1 = t := by rw [Option.some.inj h]
          rw [profile_busyDriver] at hp
          split at hp
          · obtain ⟨q, hq, rfl⟩ := Option.map_eq_some_iff.1 hp
            exact .inl ⟨q, hq, rfl⟩
          · exact .inl ⟨p, hp, rfl⟩
      | updateDriver e =>
          obtain rfl : (s.updateDriver e).1 = t := by rw [Option.some.inj h]
          rw [profile_updateDriver hd] at hp
          split at hp
          · obtain ⟨q, hq, rfl⟩ := Option.map_eq_some_iff.1 hp
            refine .inl ⟨q, hq, ?_⟩
            split <;> rfl
          · exact .inl ⟨p, hp, rfl⟩
      | updateDriverSocket u =>
          obtain rfl : (s.updateDriverSocket u).1 = t := by rw [Option.some.inj h]
          rw [profile_updateDriverSocket] at hp
          split at hp
          · next hname =>
              obtain ⟨q, hq, rfl⟩ := Option.map_eq_some_iff.1 hp
              exact .inr (if_pos hname.symm)
          · exact .inl ⟨p, hp, rfl⟩
      | passengerLogin e =>
          simp only [handle, passengerLogin, Option.some.injEq] at h
          split at h <;>
            · obtain ⟨rfl, -⟩ := Prod.mk.inj h
              exact .inl (same rfl rfl)
      | reconnectDriver e =>
          simp only [handle, reconnectDriver, Option.some.injEq] at h
          split at h <;>
            · obtain ⟨rfl, -⟩ := Prod.mk.inj h
              exact .inl (same rfl rfl)
      | getDrivers asker =>
          obtain ⟨rfl, -⟩ := Prod.mk.inj (Option.some.inj h)
          exact .inl (same rfl rfl)
      | _ => cases hr

end Server

end ConcuRide
