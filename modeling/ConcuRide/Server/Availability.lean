import ConcuRide.Driver.Cases
import ConcuRide.Server.Ledger

set_option autoImplicit false

/-! # Who is free and who is busy

What the lines of a driver make of its entry in the registry of a leader, and that nothing else
moves the driver between the two maps, except for the copies of another registry. -/

namespace ConcuRide

/-- The messages that come from the lines of drivers. -/
def Msg.fromDriver : Msg → Bool
  | .newDriver _ | .updateDriver _ | .busyDriver _ | .reconnectDriver _ => true
  | _ => false

/-- The driver a message moves in the registry. -/
def Msg.moves : Msg → Option String
  | .newDriver m => some m.name
  | .updateDriver m => some m.name
  | .busyDriver m => some m.name
  | _ => none

theorem Msg.fromDriver_toMsg (line : Driver.ServerLine) : line.toMsg.fromDriver = true := by
  cases line <;> rfl

theorem Msg.moves_toMsg {line : Driver.ServerLine} {name : String} (h : line.About name) :
    line.toMsg.moves = some name := by
  cases line with
  | reconnectDriver => exact h.elim
  | _ => exact congrArg some h

theorem Msg.moves_eq_none {m : Msg} (h : m.fromDriver = false) : m.moves = none := by
  cases m <;> first | rfl | simp [fromDriver] at h

namespace Server

/-- The server has driver `name` where `line` says that it is. -/
def Lists (s : Server) (name : String) (line : Driver.ServerLine) : Prop :=
  if line.isBusy then name ∈ s.busyDrivers else name ∈ s.drivers

/-- The server has the driver where the handler of its line looks for it: a driver that says that it
    is busy or free is known, and one that registers is not busy. -/
def expects (s : Server) : Msg → Bool
  | .newDriver m => decide (m.name ∉ s.busyDrivers)
  | .busyDriver m => decide (m.name ∈ s.drivers ∨ m.name ∈ s.busyDrivers)
  | .updateDriver m => decide (m.name ∈ s.drivers ∨ m.name ∈ s.busyDrivers)
  | _ => true

variable {N : ℕ} {o : Oracle} {s t : Server} {m : Msg} {effects : List Effect} {name : String}

theorem mem_setSocket (drivers : HashMap String DriverInfo) (name' socket : String) :
    name ∈ setSocket drivers name' socket ↔ name ∈ drivers := by
  rw [mem_iff_lookup, mem_iff_lookup, lookup_setSocket]
  split
  · next h =>
      subst h
      cases drivers.lookup name <;> simp
  · rfl

/-- **Only its own lines move a driver**, as long as no copy of another registry is applied. -/
theorem handle_lists (hm : m.moves ≠ some name) (hstate : ∀ state, m ≠ .updateNetworkState state)
    (h : s.handle N o m = some (t, effects)) (line : Driver.ServerLine) :
    t.Lists name line ↔ s.Lists name line := by
  have of_maps : t.drivers = s.drivers → t.busyDrivers = s.busyDrivers →
      (t.Lists name line ↔ s.Lists name line) := fun hfree hbusy => by
    rw [Lists, Lists, hfree, hbusy]
  cases hr : m.isRegistry with
  | false =>
      have hsame := handle_sameRegistry hr hstate h
      exact of_maps hsame.drivers hsame.busyDrivers
  | true =>
      cases m with
      | newDriver m =>
          have hname : name ≠ m.name := fun heq => hm (by rw [heq]; rfl)
          obtain rfl : (s.newDriver m).1 = t := by rw [Option.some.inj h]
          unfold newDriver
          split
          · rfl
          · split
            · rfl
            · simp [Lists, hname]
      | updateDriver m =>
          have hname : name ≠ m.name := fun heq => hm (by rw [heq]; rfl)
          obtain rfl : (s.updateDriver m).1 = t := by rw [Option.some.inj h]
          unfold updateDriver
          split
          · rfl
          · simp [Lists, hname]
      | busyDriver m =>
          have hname : name ≠ m.name := fun heq => hm (by rw [heq]; rfl)
          obtain rfl : (s.busyDriver m).1 = t := by rw [Option.some.inj h]
          unfold busyDriver
          split
          · rfl
          · simp [Lists, hname]
      | updateDriverSocket m =>
          obtain rfl : (s.updateDriverSocket m).1 = t := by rw [Option.some.inj h]
          simp only [Lists, updateDriverSocket, mem_setSocket]
      | passengerLogin m =>
          obtain rfl : (s.passengerLogin m).1 = t := by rw [Option.some.inj h]
          unfold passengerLogin
          split <;> exact Iff.rfl
      | reconnectDriver m =>
          obtain rfl : (s.reconnectDriver m).1 = t := by rw [Option.some.inj h]
          unfold reconnectDriver
          split <;> exact Iff.rfl
      | getDrivers addr =>
          obtain ⟨rfl, -⟩ := Prod.mk.inj (Option.some.inj h)
          exact Iff.rfl
      | _ => simp [Msg.isRegistry] at hr

/-- **A driver's line takes effect** where the registry has the driver. -/
theorem handle_line {line : Driver.ServerLine} (habout : line.About name)
    (hexpects : s.expects line.toMsg = true) (h : s.handle N o line.toMsg = some (t, effects)) :
    t.Lists name line := by
  cases line with
  | newDriver socket name' position =>
      obtain rfl : name' = name := habout
      obtain rfl : (s.newDriver ⟨name', socket, position⟩).1 = t :=
        congrArg Prod.fst (Option.some.inj h)
      have hbusy : name' ∉ s.busyDrivers := of_decide_eq_true hexpects
      simp only [Lists, Driver.ServerLine.isBusy, Bool.false_eq_true, if_false, newDriver,
        if_neg hbusy]
      split
      · assumption
      · simp
  | busyDriver name' =>
      obtain rfl : name' = name := habout
      obtain rfl : (s.busyDriver ⟨name'⟩).1 = t := congrArg Prod.fst (Option.some.inj h)
      have hknown : name' ∈ s.drivers ∨ name' ∈ s.busyDrivers := of_decide_eq_true hexpects
      simp only [Lists, Driver.ServerLine.isBusy, if_true, busyDriver]
      split
      · next hnone => exact hknown.resolve_left (AList.lookup_eq_none.1 hnone)
      · simp
  | availableDriver name' position =>
      obtain rfl : name' = name := habout
      obtain rfl : (s.updateDriver ⟨position, name'⟩).1 = t :=
        congrArg Prod.fst (Option.some.inj h)
      have hknown : name' ∈ s.drivers ∨ name' ∈ s.busyDrivers := of_decide_eq_true hexpects
      simp only [Lists, Driver.ServerLine.isBusy, Bool.false_eq_true, if_false, updateDriver]
      split
      · next hnone => exact hknown.resolve_right (AList.lookup_eq_none.1 hnone)
      · simp
  | reconnectDriver => exact habout.elim

/-- What a server sends itself never comes from a driver. -/
theorem fromDriver_of_self (h : s.handle N o m = some (t, effects)) {x : Msg}
    (hx : x ∈ selfMessages effects) : x.fromDriver = false := by
  have hconn : ∀ {b : Server} {i : ℕ}, x ∈ b.connecting i → x.fromDriver = false := fun hx => by
    rw [mem_connecting hx]
    rfl
  have hh := handle_cases h
  generalize hself : selfMessages effects = self at hh hx
  generalize datagrams effects = dgs at hh
  cases hh with
  | quiet hquiet =>
      subst hself
      cases m with
      | newServerConnection m =>
          obtain ⟨-, rfl⟩ := Prod.mk.inj (Option.some.inj h)
          obtain ⟨effect, he, hx⟩ := List.mem_filterMap.1 hx
          obtain ⟨addr, -, rfl⟩ := List.mem_map.1 he
          obtain rfl := Option.some.inj hx
          rfl
      | newDriver | reconnectDriver | getDrivers | passengerLogin | updateDriver | busyDriver
      | updateDriverSocket | pong | updateNetworkState =>
          simp only [handle, newDriver, reconnectDriver, getDrivers, passengerLogin, updateDriver,
            busyDriver, updateDriverSocket, pong, updateNetworkState, Option.some.injEq] at h
          (repeat' split at h) <;>
            · obtain ⟨-, rfl⟩ := Prod.mk.inj h
              simp [selfMessages] at hx
              try (rw [hx]; rfl)
      | sendLeaderId =>
          simp only [handle, sendLeaderId] at h
          split at h
          · obtain ⟨-, rfl⟩ := Prod.mk.inj (Option.some.inj h)
            simp [selfMessages] at hx
          · simp at h
      | _ => contradiction
  | newLeaderOwn => exact hconn hx
  | newLeaderDeclare | newLeaderForward =>
      rcases List.mem_cons.1 hx with rfl | hx
      · rfl
      · exact hconn hx
  | pingLost | startDeclare | startSend | wait | checkDeclare | checkResend | electionDeclare
  | electionFinish | electionForward =>
      rw [List.mem_singleton.1 hx]
      rfl
  | _ => simp at hx

end Server

end ConcuRide
