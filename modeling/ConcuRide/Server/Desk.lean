import ConcuRide.Server.Ledger

set_option autoImplicit false

/-! # A leader and its mailbox

The messages of the clients wait in the mailbox of a leader, and so do the `UpdateDriverSocket`
messages the leader sends itself, which it handles some messages later. What the registry says about
a driver in the end follows from the messages of that driver alone: `Profile.step` is what one of
them does. -/

namespace ConcuRide

open Lib

/-- The client that sends a message under its name. -/
def Msg.client : Msg → Option Client
  | .newDriver m => some (.driver m.name)
  | .busyDriver m => some (.driver m.name)
  | .updateDriver m => some (.driver m.name)
  | .reconnectDriver m => some (.driver m.name)
  | .passengerLogin m => some (.passenger m.name)
  | _ => none

/-- What the registry says about a driver, apart from its id. -/
structure Profile where
  socket : String
  position : Position
  busy : Bool
deriving DecidableEq, Repr

namespace Profile

/-- What a message of the driver makes of its profile. -/
def step : Option Profile → Msg → Option Profile
  | none, .newDriver m => some { socket := m.socket, position := m.position, busy := false }
  | some p, .newDriver m => some { p with socket := m.socket }
  | some p, .reconnectDriver m => some { p with socket := m.socket }
  | some p, .busyDriver _ => some { p with busy := true }
  | some p, .updateDriver m =>
    some (if p.busy then { p with position := m.newPosition, busy := false } else p)
  | p, _ => p

/-- The profile after the sockets have been updated one after the other. -/
def settle (p : Profile) (sockets : List String) : Profile :=
  { p with socket := sockets.getLastD p.socket }

variable {p : Profile} {sockets : List String} {socket : String}

/-- A driver that is known stays known. -/
theorem foldl_step_isSome (p : Profile) (ms : List Msg) :
    ∃ q, ms.foldl step (some p) = some q := by
  induction ms generalizing p with
  | nil => exact ⟨p, rfl⟩
  | cons m ms ih =>
      obtain ⟨q, hq⟩ : ∃ q, step (some p) m = some q := by cases m <;> exact ⟨_, rfl⟩
      rw [List.foldl_cons, hq]
      exact ih q

@[simp] theorem settle_nil : p.settle [] = p := rfl

@[simp] theorem settle_cons :
    p.settle (socket :: sockets) = { p with socket := socket }.settle sockets := by
  simp only [settle, List.getLastD_cons]

@[simp] theorem settle_snoc :
    p.settle (sockets ++ [socket]) = { p.settle sockets with socket := socket } := by
  simp only [settle, List.getLastD_concat]

end Profile

namespace Server

/-- What the registry says about a driver. -/
def profile (s : Server) (name : String) : Option Profile :=
  ((s.drivers.lookup name).map fun d => ⟨d.socket, d.position, false⟩).or
    ((s.busyDrivers.lookup name).map fun d => ⟨d.socket, d.position, true⟩)

variable {s : Server} {name : String}

theorem profile_isSome : (s.profile name).isSome = (s.idOf (.driver name)).isSome := by
  simp only [profile, idOf, driverInfo]
  cases s.drivers.lookup name <;> cases s.busyDrivers.lookup name <;> rfl

theorem profile_updateDriverSocket (m : UpdateDriverSocket) :
    (s.updateDriverSocket m).1.profile name =
      if name = m.name then (s.profile name).map fun p => { p with socket := m.socket }
      else s.profile name := by
  simp only [profile, updateDriverSocket, lookup_setSocket]
  split
  · next h =>
      subst h
      cases s.drivers.lookup m.name <;> cases s.busyDrivers.lookup m.name <;> rfl
  · rfl

/-- The sockets that the `UpdateDriverSocket` messages of a mailbox bring for a driver. -/
def sockets (name : String) (mailbox : List Msg) : List String :=
  mailbox.filterMap fun
    | .updateDriverSocket m => if m.name = name then some m.socket else none
    | _ => none

theorem sockets_append (name : String) (a b : List Msg) :
    sockets name (a ++ b) = sockets name a ++ sockets name b :=
  List.filterMap_append

theorem sockets_update (name : String) (m : UpdateDriverSocket) :
    sockets name [.updateDriverSocket m] = if m.name = name then [m.socket] else [] := by
  by_cases h : m.name = name <;> simp [sockets, h]

variable {N : ℕ} {o : Oracle} {t : Server} {m : Msg} {effects : List Effect} {c : Client}
  {pending : List String}

/-- The profile of a driver once all `UpdateDriverSocket` messages for it are handled. -/
def settled (s : Server) (name : String) (pending : List String) : Option Profile :=
  (s.profile name).map fun p => p.settle pending

theorem profile_busyDriver (m : BusyDriver) :
    (s.busyDriver m).1.profile name =
      if name = m.name then (s.profile name).map fun p => { p with busy := true }
      else s.profile name := by
  unfold busyDriver
  split
  · next hnone =>
      split
      · next h =>
          subst h
          simp only [profile, hnone]
          cases s.busyDrivers.lookup m.name <;> rfl
      · rfl
  · next driver hdriver =>
      simp only [profile, lookup_insert_ite, lookup_erase_ite]
      split
      · next h =>
          subst h
          rw [hdriver]
          rfl
      · rfl

theorem profile_updateDriver (hd : s.DriversOk) (m : UpdateDriver) :
    (s.updateDriver m).1.profile name =
      if name = m.name then (s.profile name).map fun p =>
        if p.busy then { p with position := m.newPosition, busy := false } else p
      else s.profile name := by
  unfold updateDriver
  split
  · next hnone =>
      split
      · next h =>
          subst h
          simp only [profile, hnone]
          cases s.drivers.lookup m.name <;> rfl
      · rfl
  · next driver hdriver =>
      have hfree := not_free_of_busy hd hdriver
      simp only [profile, lookup_insert_ite, lookup_erase_ite]
      split
      · next h =>
          subst h
          rw [hdriver, hfree]
          rfl
      · rfl

theorem profile_known (h : name ∈ s.drivers ∨ name ∈ s.busyDrivers) :
    ∃ p, s.profile name = some p := by
  simp only [mem_iff_lookup] at h
  rcases h with ⟨d, hd⟩ | ⟨d, hd⟩
  · exact ⟨_, by rw [profile, hd]; rfl⟩
  · rw [profile, hd]
    cases s.drivers.lookup name with
    | none => exact ⟨_, rfl⟩
    | some d' => exact ⟨_, rfl⟩

theorem profile_unknown (hfree : name ∉ s.drivers) (hbusy : name ∉ s.busyDrivers) :
    s.profile name = none := by
  rw [profile, AList.lookup_eq_none.2 hfree, AList.lookup_eq_none.2 hbusy]
  rfl

/-- What a client's message does to a driver: the profile after it, and the sockets the leader is to
    set for the driver. -/
inductive Touches (s : Server) (name : String) (m : Msg) : Option Profile → List String → Prop
  | other (hc : m.client ≠ some (.driver name)) : Touches s name m (s.profile name) []
  | registers (e : NewDriver) (he : m = .newDriver e) (hname : e.name = name)
      (hnone : s.profile name = none) :
      Touches s name m (some { socket := e.socket, position := e.position, busy := false }) []
  | asks (p : Profile) (socket : String) (hc : m.client = some (.driver name))
      (hp : s.profile name = some p)
      (hstep : ∀ p, Profile.step (some p) m = some { p with socket := socket }) :
      Touches s name m (some p) [socket]
  | moves (p : Profile) (f : Profile → Profile) (hc : m.client = some (.driver name))
      (hp : s.profile name = some p)
      (hf : ∀ p pending, f (p.settle pending) = (f p).settle pending)
      (hstep : ∀ p, Profile.step (some p) m = some (f p)) : Touches s name m (some (f p)) []

/-- A message that makes the leader ask for the new socket. -/
theorem touches_asks {u : UpdateDriverSocket} (hc : m.client = some (.driver u.name))
    (hknown : u.name = name → ∃ p, s.profile name = some p)
    (hstep : ∀ p, Profile.step (some p) m = some { p with socket := u.socket }) :
    Touches s name m (s.profile name) (sockets name [.updateDriverSocket u]) := by
  rw [sockets_update]
  split
  · next h =>
      subst h
      obtain ⟨p, hp⟩ := hknown rfl
      rw [hp]
      exact .asks p u.socket hc hp hstep
  · next h => exact .other fun heq => h (Client.driver.inj (Option.some.inj (hc.symm.trans heq)))

/-- A message that leaves the sockets alone. -/
theorem touches_moves {client : String} (f : Profile → Profile)
    (hc : m.client = some (.driver client))
    (hknown : client = name → ∃ p, s.profile name = some p)
    (hf : ∀ p pending, f (p.settle pending) = (f p).settle pending)
    (hstep : ∀ p, Profile.step (some p) m = some (f p)) :
    Touches s name m (if name = client then (s.profile name).map f else s.profile name) [] := by
  split
  · next h =>
      subst h
      obtain ⟨p, hp⟩ := hknown rfl
      rw [hp]
      exact .moves p f hc hp hf hstep
  · next h =>
      exact .other fun heq => h (Client.driver.inj (Option.some.inj (hc.symm.trans heq))).symm

/-- Every message of a client is one of these, if it is known or says that it is new. -/
theorem client_touches (hd : s.DriversOk) (hm : m.client.isSome = true)
    (h : s.handle N o m = some (t, effects))
    (hknown : m.client = some (.driver name) →
      (∃ p, s.profile name = some p) ∨ ∃ e, m = .newDriver e) :
    Touches s name m (t.profile name) (sockets name (selfMessages effects)) := by
  cases m with
  | newDriver e =>
      have asks : e.name ∈ s.drivers ∨ e.name ∈ s.busyDrivers →
          Touches s name (.newDriver e) (s.profile name)
            (sockets name [.updateDriverSocket { name := e.name, socket := e.socket }]) :=
        fun hmem => touches_asks rfl (fun hname => hname ▸ profile_known hmem) fun _ => rfl
      simp only [handle, newDriver, Option.some.injEq] at h
      split at h
      · next hfree =>
          obtain ⟨rfl, rfl⟩ := Prod.mk.inj h
          exact asks (.inl hfree)
      · next hfree =>
          split at h
          · next hbusy =>
              obtain ⟨rfl, rfl⟩ := Prod.mk.inj h
              exact asks (.inr hbusy)
          · next hbusy =>
              obtain ⟨rfl, rfl⟩ := Prod.mk.inj h
              show Touches s name _ _ []
              by_cases hname : e.name = name
              · subst hname
                have hregisters := Touches.registers e rfl rfl (profile_unknown hfree hbusy)
                simpa [profile] using hregisters
              · have hother : Touches s name (.newDriver e) (s.profile name) [] :=
                  .other fun heq => hname (Client.driver.inj (Option.some.inj heq))
                simpa [profile, lookup_insert_ite, Ne.symm hname] using hother
  | busyDriver e =>
      obtain ⟨rfl, hself⟩ : (s.busyDriver e).1 = t ∧ selfMessages effects = [] := by
        simp only [handle, busyDriver, Option.some.injEq] at h ⊢
        split at h <;> · obtain ⟨rfl, rfl⟩ := Prod.mk.inj h; exact ⟨rfl, rfl⟩
      rw [hself, profile_busyDriver]
      exact touches_moves (fun p => { p with busy := true }) rfl
        (fun hname => (hknown (by rw [← hname]; rfl)).resolve_right (by simp))
        (fun _ _ => rfl) fun _ => rfl
  | updateDriver e =>
      obtain ⟨rfl, hself⟩ : (s.updateDriver e).1 = t ∧ selfMessages effects = [] := by
        simp only [handle, updateDriver, Option.some.injEq] at h ⊢
        split at h <;> · obtain ⟨rfl, rfl⟩ := Prod.mk.inj h; exact ⟨rfl, rfl⟩
      rw [hself, profile_updateDriver hd]
      refine touches_moves _ rfl
        (fun hname => (hknown (by rw [← hname]; rfl)).resolve_right (by simp))
        (fun p pending => ?_) fun _ => rfl
      cases hbusy : p.busy <;> simp [Profile.settle, hbusy]
  | reconnectDriver e =>
      obtain ⟨rfl, hself⟩ : s = t ∧ selfMessages effects =
          [.updateDriverSocket { name := e.name, socket := e.socket }] := by
        simp only [handle, reconnectDriver, Option.some.injEq] at h
        split at h <;> · obtain ⟨rfl, rfl⟩ := Prod.mk.inj h; exact ⟨rfl, rfl⟩
      rw [hself]
      exact touches_asks rfl
        (fun hname => (hknown (by rw [← hname]; rfl)).resolve_right (by simp)) fun _ => rfl
  | passengerLogin e =>
      obtain ⟨hprofile, hself⟩ : t.profile name = s.profile name ∧ selfMessages effects = [] := by
        simp only [handle, passengerLogin, Option.some.injEq] at h
        split at h <;> · obtain ⟨rfl, rfl⟩ := Prod.mk.inj h; exact ⟨rfl, rfl⟩
      rw [hprofile, hself]
      exact .other (by simp [Msg.client])
  | _ => cases hm

/-- Once the pending sockets are settled, a driver's own message is a `Profile.step`, and nobody
    else's changes its profile. -/
theorem Touches.settled {profile : Option Profile} {new : List String}
    (h : Touches s name m profile new) (hpending : s.profile name = none → pending = []) :
    profile.map (fun p => p.settle (pending ++ new)) =
        (if m.client = some (.driver name) then Profile.step (s.settled name pending) m
          else s.settled name pending) ∧
      (profile = none → pending ++ new = []) := by
  cases h with
  | other hc =>
      rw [if_neg hc, List.append_nil]
      exact ⟨rfl, hpending⟩
  | registers e he hname hnone =>
      subst he hname
      have hc : (Msg.newDriver e).client = some (.driver e.name) := rfl
      rw [if_pos hc, hpending hnone, Server.settled, hnone]
      exact ⟨rfl, nofun⟩
  | asks p socket hc hp hstep =>
      rw [if_pos hc, Server.settled, hp]
      exact ⟨by simp [hstep], nofun⟩
  | moves p f hc hp hf hstep =>
      rw [if_pos hc, Server.settled, hp, List.append_nil]
      exact ⟨by simp [hstep, hf], nofun⟩

end Server

/-! ## Runs -/

/-- A leader and its mailbox. -/
structure Desk where
  srv : Server
  mailbox : List Msg

/-- A client's message arrives, or the leader handles the next message of its mailbox. -/
inductive Desk.Label where
  | post (m : Msg)
  | handle

namespace Desk

def start (N id : ℕ) : Desk := ⟨Server.lider N id, []⟩

def step (N : ℕ) (d : Desk) : Label → Option Desk
  | .post m => if m.client.isSome then some { d with mailbox := d.mailbox ++ [m] } else none
  | .handle =>
    match d.mailbox with
    | [] => none
    | m :: rest => (d.srv.handle N .up m).map fun (srv, effects) =>
        ⟨srv, rest ++ selfMessages effects⟩

/-- The messages that arrive. -/
def posted (ls : List Label) : List Msg :=
  ls.filterMap fun
    | .post m => some m
    | .handle => none

/-- The messages of client `c`, in the order in which it has sent them. -/
def sent (c : Client) (ms : List Msg) : List Msg :=
  ms.filter fun m => decide (m.client = some c)

/-- Every driver registers before it sends anything else. -/
def Introduced (ls : List Label) : Prop :=
  ∀ name m rest, sent (.driver name) (posted ls) = m :: rest → ∃ e, m = .newDriver e

variable {N id : ℕ} {d d' : Desk} {l : Label} {ls ls' : List Label} {handled : List Msg}

/-- The registry and the mailbox of a leader that has handled the client messages `handled`. -/
structure InOrder (handled : List Msg) (d : Desk) : Prop where
  wellFormed : d.srv.WellFormed
  settled : ∀ name, d.srv.settled name (Server.sockets name d.mailbox) =
    (sent (.driver name) handled).foldl Profile.step none
  passengers : ∀ name, name ∈ d.srv.passengers ↔ ∃ m ∈ handled, m.client = some (.passenger name)
  unknown : ∀ name, d.srv.profile name = none → Server.sockets name d.mailbox = []
  messages : ∀ m ∈ d.mailbox, m.client.isSome = true ∨ ∃ u, m = .updateDriverSocket u

theorem Introduced.append (h : Introduced (ls ++ ls')) : Introduced ls := by
  intro name m rest hm
  refine h name m (rest ++ sent (.driver name) (posted ls')) ?_
  rw [posted, List.filterMap_append, sent, List.filter_append]
  exact congrArg (· ++ _) hm

theorem inOrder_start : InOrder [] (start N id) where
  wellFormed := lider_wellFormed N id
  settled := fun _ => rfl
  passengers := fun name => by simp [start, Server.lider]
  unknown := fun _ _ => rfl
  messages := nofun

/-- The leader handles its own `UpdateDriverSocket`. -/
theorem inOrder_socket {u : UpdateDriverSocket} {rest : List Msg}
    (h : InOrder handled ⟨d.srv, .updateDriverSocket u :: rest⟩) :
    InOrder handled ⟨(d.srv.updateDriverSocket u).1, rest⟩ where
  wellFormed := by
    obtain ⟨hd, hstep⟩ := Server.updateDriverSocket_step h.wellFormed.drivers u
    exact ⟨hd, h.wellFormed.ids.step hstep⟩
  settled := fun name => by
    rw [← h.settled name, Server.settled, Server.settled, Server.profile_updateDriverSocket]
    by_cases hname : name = u.name
    · subst hname
      rw [if_pos rfl, Option.map_map]
      have hcons : Server.sockets u.name (.updateDriverSocket u :: rest) =
          u.socket :: Server.sockets u.name rest := by simp [Server.sockets]
      rw [hcons]
      exact congrArg (Option.map · (d.srv.profile u.name)) (funext fun p => (Profile.settle_cons).symm)
    · have hcons : Server.sockets name (.updateDriverSocket u :: rest) =
          Server.sockets name rest := by simp [Server.sockets, Ne.symm hname]
      rw [if_neg hname, hcons]
  passengers := h.passengers
  unknown := fun name hnone => by
    have hnone' : d.srv.profile name = none := by
      rw [Server.profile_updateDriverSocket] at hnone
      split at hnone
      · exact Option.map_eq_none_iff.1 hnone
      · exact hnone
    have hempty : Server.sockets name ([.updateDriverSocket u] ++ rest) = [] := h.unknown name hnone'
    rw [Server.sockets_append, List.append_eq_nil_iff] at hempty
    exact hempty.2
  messages := fun m hm => h.messages m (List.mem_cons_of_mem _ hm)

/-- A driver that sends another message than its first is known. -/
theorem InOrder.known {m : Msg} {rest : List Msg} {name : String}
    (h : InOrder handled ⟨d.srv, m :: rest⟩)
    (hfirst : ∀ x xs, sent (.driver name) (handled ++ [m]) = x :: xs → ∃ e, x = .newDriver e)
    (hc : m.client = some (.driver name)) :
    (∃ p, d.srv.profile name = some p) ∨ ∃ e, m = .newDriver e := by
  have hsent : sent (.driver name) (handled ++ [m]) = sent (.driver name) handled ++ [m] := by
    simp [sent, hc]
  cases hh : sent (.driver name) handled with
  | nil => exact .inr (hfirst m [] (by rw [hsent, hh]; rfl))
  | cons x xs =>
      obtain ⟨e, rfl⟩ := hfirst x (xs ++ [m]) (by rw [hsent, hh]; rfl)
      have hsettled := h.settled name
      rw [hh, List.foldl_cons] at hsettled
      obtain ⟨q, hq⟩ := Profile.foldl_step_isSome ⟨e.socket, e.position, false⟩ xs
      rw [show Profile.step none (.newDriver e) = some ⟨e.socket, e.position, false⟩ from rfl, hq]
        at hsettled
      obtain ⟨p, hp, -⟩ := Option.map_eq_some_iff.1 hsettled
      exact .inl ⟨p, hp⟩

/-- The leader sends itself nothing but `UpdateDriverSocket`. -/
theorem client_self {o : Oracle} {s t : Server} {m : Msg} {effects : List Effect}
    (hm : m.client.isSome = true) (h : s.handle N o m = some (t, effects)) :
    ∀ x ∈ selfMessages effects, ∃ u, x = .updateDriverSocket u := by
  intro x hx
  cases m with
  | newDriver | busyDriver | updateDriver | reconnectDriver | passengerLogin =>
      simp only [Server.handle, Server.newDriver, Server.busyDriver, Server.updateDriver,
        Server.reconnectDriver, Server.passengerLogin, Option.some.injEq] at h
      (repeat' split at h) <;>
        · obtain ⟨-, rfl⟩ := Prod.mk.inj h
          simp [selfMessages] at hx
          try exact ⟨_, hx⟩
  | _ => cases hm

theorem isRegistry_of_client {m : Msg} (hm : m.client.isSome = true) : m.isRegistry = true := by
  cases m <;> first | rfl | cases hm

/-- Whoever logs in is a passenger from then on. -/
theorem client_passengers {o : Oracle} {s t : Server} {m : Msg} {effects : List Effect}
    (hm : m.client.isSome = true) (h : s.handle N o m = some (t, effects)) (name : String) :
    name ∈ t.passengers ↔ name ∈ s.passengers ∨ m.client = some (.passenger name) := by
  by_cases hlogin : ∃ e, m = .passengerLogin e
  · obtain ⟨e, rfl⟩ := hlogin
    have hclient : (Msg.passengerLogin e).client = some (.passenger name) ↔ name = e.name := by
      simp [Msg.client, eq_comm]
    rw [hclient]
    simp only [Server.handle, Server.passengerLogin, Option.some.injEq] at h
    split at h
    · next id hid =>
        obtain ⟨rfl, -⟩ := Prod.mk.inj h
        refine ⟨.inl, fun h => h.elim (fun h => h) ?_⟩
        rintro rfl
        exact (mem_iff_lookup _ _).2 ⟨id, hid⟩
    · obtain ⟨rfl, -⟩ := Prod.mk.inj h
      rw [AList.mem_insert]
      exact or_comm
  · rcases Server.passengers_handled h with ⟨hsame, -⟩ | hlogin' | ⟨state, rfl⟩
    · rw [hsame]
      refine ⟨.inl, fun h => h.resolve_right fun hc => ?_⟩
      cases m with
      | passengerLogin e => exact hlogin ⟨e, rfl⟩
      | newDriver | busyDriver | updateDriver | reconnectDriver => simp [Msg.client] at hc
      | _ => cases hc
    · exact absurd hlogin' hlogin
    · cases hm

/-- The leader handles the message of a client. -/
theorem inOrder_client {m : Msg} {rest : List Msg} {t : Server} {effects : List Effect}
    (h : InOrder handled ⟨d.srv, m :: rest⟩) (hm : m.client.isSome = true)
    (hfirst : ∀ name x xs, sent (.driver name) (handled ++ [m]) = x :: xs → ∃ e, x = .newDriver e)
    (hh : d.srv.handle N .up m = some (t, effects)) :
    InOrder (handled ++ [m]) ⟨t, rest ++ selfMessages effects⟩ := by
  have hskip : ∀ name, Server.sockets name (m :: rest) = Server.sockets name rest := by
    intro name
    cases m <;> first | rfl | cases hm
  have htouched : ∀ name, t.settled name (Server.sockets name (rest ++ selfMessages effects)) =
        (if m.client = some (.driver name) then
          Profile.step (d.srv.settled name (Server.sockets name rest)) m
        else d.srv.settled name (Server.sockets name rest)) ∧
      (t.profile name = none → Server.sockets name (rest ++ selfMessages effects) = []) := by
    intro name
    rw [Server.sockets_append]
    refine (Server.client_touches h.wellFormed.drivers hm hh (h.known (hfirst name))).settled ?_
    intro hnone
    rw [← hskip name]
    exact h.unknown name hnone
  constructor
  case wellFormed =>
    obtain ⟨hd, hstep⟩ := Server.registry_step h.wellFormed.drivers (isRegistry_of_client hm)
      (Server.registryStep_of_handle (isRegistry_of_client hm) hh)
    exact ⟨hd, h.wellFormed.ids.step hstep⟩
  case settled =>
    intro name
    have hsettled := h.settled name
    rw [hskip name] at hsettled
    rw [(htouched name).1, hsettled, sent, sent, List.filter_append, List.foldl_append]
    by_cases hc : m.client = some (.driver name) <;> simp [hc]
  case passengers =>
    intro name
    rw [client_passengers hm hh, h.passengers]
    simp [or_and_right, exists_or]
  case unknown => exact fun name => (htouched name).2
  case messages =>
    intro x hx
    rcases List.mem_append.1 hx with hx | hx
    · exact h.messages x (List.mem_cons_of_mem _ hx)
    · exact .inr (client_self hm hh x hx)

/-- **The leader handles the messages in the order in which they arrive**, and its own in between. -/
theorem inOrder_run (h : Run (step N) (fun _ _ => True) (start N id) ls d)
    (hintro : Introduced ls) : ∃ handled,
      posted ls = handled ++ d.mailbox.filter (fun m => m.client.isSome) ∧ InOrder handled d := by
  refine h.invariant_labels (P := fun ls d => Introduced ls → ∃ handled,
    posted ls = handled ++ d.mailbox.filter (fun m => m.client.isSome) ∧ InOrder handled d)
    ?_ (fun _ => ⟨[], rfl, inOrder_start⟩) hintro
  intro ls d l d' ih _ hstep hintro
  obtain ⟨handled, hposted, hin⟩ := ih hintro.append
  cases l with
  | post m =>
      simp only [step] at hstep
      split at hstep
      · next hm =>
          obtain rfl := Option.some.inj hstep
          refine ⟨handled, ?_, hin.wellFormed, fun name => ?_, hin.passengers, fun name hnone => ?_,
            fun x hx => ?_⟩
          · rw [posted, List.filterMap_append, ← posted, hposted, List.filter_append,
              List.append_assoc]
            simp [hm]
          · rw [← hin.settled name, Server.sockets_append]
            have : Server.sockets name [m] = [] := by cases m <;> first | rfl | cases hm
            rw [this, List.append_nil]
          · rw [Server.sockets_append, hin.unknown name hnone]
            cases m <;> first | rfl | cases hm
          · rcases List.mem_append.1 hx with hx | hx
            · exact hin.messages x hx
            · exact .inl (List.mem_singleton.1 hx ▸ hm)
      · cases hstep
  | handle =>
      have hsame : posted (ls ++ [.handle]) = posted ls := by simp [posted]
      rw [hsame, hposted]
      obtain ⟨srv, mailbox⟩ := d
      cases mailbox with
      | nil => cases hstep
      | cons m rest =>
          obtain ⟨⟨t, effects⟩, hh, rfl⟩ := Option.map_eq_some_iff.1 hstep
          rcases hin.messages m List.mem_cons_self with hm | ⟨u, rfl⟩
          · have hself : (selfMessages effects).filter (fun m => m.client.isSome) = [] :=
              List.filter_eq_nil_iff.2 fun x hx => by
                obtain ⟨u, rfl⟩ := client_self hm hh x hx
                simp [Msg.client]
            refine ⟨handled ++ [m], ?_, inOrder_client (d := ⟨srv, m :: rest⟩) hin hm ?_ hh⟩
            · simp [List.filter_append, hself, hm]
            · intro name x xs hx
              refine hintro name x (xs ++ sent (.driver name) (rest.filter fun m => m.client.isSome)) ?_
              have hmail : (m :: rest).filter (fun m => m.client.isSome) =
                  m :: rest.filter fun m => m.client.isSome := by simp [hm]
              rw [hsame, hposted, hmail, List.append_cons, sent, List.filter_append]
              exact congrArg (· ++ _) hx
          · obtain ⟨rfl, rfl⟩ := Prod.mk.inj (Option.some.inj hh)
            refine ⟨handled, ?_, ?_⟩
            · simp [Msg.client, selfMessages]
            · show InOrder handled ⟨_, rest ++ []⟩
              rw [List.append_nil]
              exact inOrder_socket (d := ⟨srv, rest⟩) hin

/-- Everything is handled: the profile of a driver, and who is a passenger, follow from the messages
    of that client alone. -/
theorem drained (h : Run (step N) (fun _ _ => True) (start N id) ls d) (hintro : Introduced ls)
    (hempty : d.mailbox = []) : d.srv.WellFormed ∧
      (∀ name, d.srv.profile name = (sent (.driver name) (posted ls)).foldl Profile.step none) ∧
      ∀ name, name ∈ d.srv.passengers ↔ sent (.passenger name) (posted ls) ≠ [] := by
  obtain ⟨handled, hposted, hin⟩ := inOrder_run h hintro
  rw [hempty, List.filter_nil, List.append_nil] at hposted
  refine ⟨hin.wellFormed, fun name => ?_, fun name => ?_⟩
  · have hsettled := hin.settled name
    rw [hempty, ← hposted, Server.settled] at hsettled
    rw [← hsettled]
    cases d.srv.profile name <;> rfl
  · rw [hin.passengers, hposted, sent, ne_eq, List.filter_eq_nil_iff]
    simp

theorem mem_drivers_iff {s : Server} (hd : s.DriversOk) (name : String) :
    (name ∈ s.drivers ↔ (s.profile name).any fun p => !p.busy) ∧
      (name ∈ s.busyDrivers ↔ (s.profile name).any fun p => p.busy) := by
  rw [mem_iff_lookup, mem_iff_lookup, Server.profile]
  cases hfree : s.drivers.lookup name with
  | some driver => simp [Server.not_busy_of_free hd hfree]
  | none => cases s.busyDrivers.lookup name <;> simp

/-- **The registry does not depend on how clients interleave.** After any two runs of a leader in
    which every client sends the same messages, the same drivers are free and busy, with the same
    sockets and positions, the same passengers are logged in, and the ids differ by a bijection. -/
theorem registry_interleaving {d d' : Desk}
    (h : Run (step N) (fun _ _ => True) (start N id) ls d)
    (h' : Run (step N) (fun _ _ => True) (start N id) ls' d')
    (hintro : Introduced ls) (hsame : ∀ c, sent c (posted ls) = sent c (posted ls'))
    (hempty : d.mailbox = []) (hempty' : d'.mailbox = []) :
    (∀ name, name ∈ d.srv.drivers ↔ name ∈ d'.srv.drivers) ∧
    (∀ name, name ∈ d.srv.busyDrivers ↔ name ∈ d'.srv.busyDrivers) ∧
    (∀ name, name ∈ d.srv.passengers ↔ name ∈ d'.srv.passengers) ∧
    (∀ name, (d.srv.driverInfo name).map (fun i => (i.socket, i.position)) =
      (d'.srv.driverInfo name).map (fun i => (i.socket, i.position))) ∧
    ∃ f, Set.BijOn f {i | ∃ c, d.srv.idOf c = some i} {i | ∃ c, d'.srv.idOf c = some i} ∧
      ∀ c, d'.srv.idOf c = (d.srv.idOf c).map f := by
  have hintro' : Introduced ls' := fun name m rest hm =>
    hintro name m rest ((hsame (.driver name)).trans hm)
  obtain ⟨hwf, hprofile, hpass⟩ := drained h hintro hempty
  obtain ⟨hwf', hprofile', hpass'⟩ := drained h' hintro' hempty'
  have hprofiles : ∀ name, d.srv.profile name = d'.srv.profile name := fun name => by
    rw [hprofile, hprofile', hsame]
  have hpassengers : ∀ name, name ∈ d.srv.passengers ↔ name ∈ d'.srv.passengers := fun name => by
    rw [hpass, hpass', hsame]
  refine ⟨fun name => ?_, fun name => ?_, hpassengers, fun name => ?_, ?_⟩
  · rw [(mem_drivers_iff hwf.drivers name).1, (mem_drivers_iff hwf'.drivers name).1, hprofiles]
  · rw [(mem_drivers_iff hwf.drivers name).2, (mem_drivers_iff hwf'.drivers name).2, hprofiles]
  · have hinfo : ∀ s : Server, (s.driverInfo name).map (fun i => (i.socket, i.position)) =
        (s.profile name).map (fun p => (p.socket, p.position)) := fun s => by
      simp only [Server.driverInfo, Server.profile]
      cases s.drivers.lookup name <;> cases s.busyDrivers.lookup name <;> rfl
    rw [hinfo, hinfo, hprofiles]
  · refine Alloc.exists_bijOn hwf.ids hwf'.ids fun c => ?_
    cases c with
    | driver name =>
        show (d.srv.idOf (.driver name)).isSome = (d'.srv.idOf (.driver name)).isSome
        rw [← Server.profile_isSome, ← Server.profile_isSome, hprofiles]
    | passenger name =>
        show (d.srv.passengers.lookup name).isSome = (d'.srv.passengers.lookup name).isSome
        rw [Bool.eq_iff_iff, AList.lookup_isSome, AList.lookup_isSome]
        exact hpassengers name

/-- Driver "mario" registers, takes a ride, and comes back from a crash. -/
def mario : List Msg :=
  [.newDriver ⟨"mario", "127.0.0.1:40000", (5, 3)⟩, .busyDriver ⟨"mario"⟩,
    .reconnectDriver ⟨1, "127.0.0.1:40001", "mario"⟩]

/-- Passenger "peach" logs in twice. -/
def peach : List Msg := [.passengerLogin ⟨"peach", .client 0⟩, .passengerLogin ⟨"peach", .client 1⟩]

/-- One client after the other, and one message at a time. -/
def inTurn : List Label :=
  ((mario ++ peach).flatMap fun m => [.post m, .handle]) ++ [.handle]

/-- The other way round, and all messages at once. -/
def atOnce : List Label :=
  (peach ++ mario).map Label.post ++ List.replicate 6 .handle

theorem registry_interleaving_mario : ∃ d d' : Desk,
    d.srv.idOf (.driver "mario") = some 1 ∧ d'.srv.idOf (.driver "mario") = some 2 ∧
      ∃ f, Set.BijOn f {i | ∃ c, d.srv.idOf c = some i} {i | ∃ c, d'.srv.idOf c = some i} ∧
        ∀ c, d'.srv.idOf c = (d.srv.idOf c).map f := by
  obtain ⟨d, hrun, hd⟩ := exists_run_of_exec (fun _ _ => true) (start 5 1) inTurn
    (fun (d : Desk) => d.mailbox.isEmpty && decide (d.srv.idOf (.driver "mario") = some 1))
    (show (exec (step 5) _ _ _).any _ = true by decide +kernel)
  obtain ⟨d', hrun', hd'⟩ := exists_run_of_exec (fun _ _ => true) (start 5 1) atOnce
    (fun (d : Desk) => d.mailbox.isEmpty && decide (d.srv.idOf (.driver "mario") = some 2))
    (show (exec (step 5) _ _ _).any _ = true by decide +kernel)
  simp only [Bool.and_eq_true, List.isEmpty_iff, decide_eq_true_eq] at hd hd'
  have hsame : ∀ c, sent c (posted inTurn) = sent c (posted atOnce) := by
    intro c
    have hturn : posted inTurn = mario ++ peach := rfl
    have honce : posted atOnce = peach ++ mario := rfl
    have happend : ∀ a b : List Msg, sent c (a ++ b) = sent c a ++ sent c b :=
      fun a b => List.filter_append a b
    rw [hturn, honce, happend, happend]
    by_cases hc : c = .driver "mario"
    · have hnone : sent c peach = [] := by simp [sent, peach, Msg.client, hc]
      rw [hnone, List.append_nil, List.nil_append]
    · have hnone : sent c mario = [] := by simp [sent, mario, Msg.client, Ne.symm hc]
      rw [hnone, List.append_nil, List.nil_append]
  have hintro : Introduced inTurn := by
    intro name m rest hm
    have hturn : posted inTurn = mario ++ peach := rfl
    rw [hturn] at hm
    by_cases hname : "mario" = name
    · subst hname
      exact ⟨_, (List.cons.inj hm).1.symm⟩
    · simp [sent, mario, peach, Msg.client, hname] at hm
  obtain ⟨-, -, -, -, hids⟩ := registry_interleaving (hrun.mono fun _ _ _ => trivial)
    (hrun'.mono fun _ _ _ => trivial) hintro hsame hd.1 hd'.1
  exact ⟨d, d', hd.2, hd'.2, hids⟩

end Desk

end ConcuRide
