import ConcuRide.Network.Logins

set_option autoImplicit false

/-! # Passengers after a failover

`passengers` reaches the replicas in the copies of the registry, and `passengers_address` does not:
a server only fills it when it handles the login of a passenger, with the connection the login came
on. A passenger logs in when it is started, and not when it has to find a new leader. One that runs
while another server becomes leader has no address there, and a driver that comes back is not
reported to it. -/

namespace ConcuRide

open Lib

/-! ## Registries and their copies -/

theorem Server.SameRegistry.wellFormed {s t : Server} (h : s.SameRegistry t) (hs : s.WellFormed) :
    t.WellFormed where
  drivers := by
    obtain ⟨hdisj, hfree, hbusy⟩ := hs.drivers
    exact ⟨h.drivers ▸ h.busyDrivers ▸ hdisj, h.drivers ▸ hfree, h.busyDrivers ▸ hbusy⟩
  ids := h.alloc_eq ▸ hs.ids

/-- A copy of a registry that is well formed. -/
def UpdateNetworkState.WellFormed (state : UpdateNetworkState) : Prop :=
  ∀ s : Server, (s.updateNetworkState state).1.WellFormed

/-- Every registry of the group is well formed, and so is every copy that is on its way. -/
structure Net.RegistriesOk (net : Net) : Prop where
  servers : ∀ k s, net.srv k = some s → s.WellFormed
  copies : ∀ k state, net.Queued k (.updateNetworkState state) → state.WellFormed
  lines : ∀ line ∈ net.pongs, line.state.WellFormed

theorem replica_wellFormed (N k : ℕ) : (Server.replica N k).WellFormed :=
  Server.SameRegistry.wellFormed (s := Server.lider N k) ⟨rfl, rfl, rfl, rfl⟩ (lider_wellFormed N k)

/-- A server keeps its registry in order, whatever it handles. -/
theorem Server.wellFormed_handled {N : ℕ} {o : Oracle} {s t : Server} {m : Msg}
    {effects : List Effect} (hs : s.WellFormed)
    (hcopy : ∀ state, m = .updateNetworkState state → state.WellFormed)
    (h : s.handle N o m = some (t, effects)) : t.WellFormed := by
  by_cases hstate : ∃ state, m = .updateNetworkState state
  · obtain ⟨state, rfl⟩ := hstate
    obtain ⟨rfl, -⟩ := Prod.mk.inj (Option.some.inj h)
    exact hcopy state rfl s
  · cases hm : m.isRegistry with
    | true =>
        obtain ⟨hdrivers, hstep⟩ := registry_step hs.drivers hm (registryStep_of_handle hm h)
        exact ⟨hdrivers, hs.ids.step hstep⟩
    | false =>
        exact (handle_sameRegistry hm (fun state heq => hstate ⟨state, heq⟩) h).wellFormed hs

namespace Net

variable {N i : ℕ} {net net' : Net} {l : ConcuRide.Label}

theorem registriesOk_step (h : net.RegistriesOk) (hst : Step N net l net') :
    net'.RegistriesOk where
  servers := fun k t ht => by
    rcases hst.srv_cases ht with hold | ⟨o, before, m, effects, -, hr⟩ | ⟨-, -, -, rfl⟩
    · exact h.servers k t hold
    · refine Server.wellFormed_handled (h.servers k before hr.srvBefore) ?_ hr.result
      rintro state rfl
      exact h.copies k state hr.queued
    · exact replica_wellFormed N k
  copies := fun k state hq => by
    rcases hst.queued_cases hq with hold | hnew | ⟨o, before, m, after, effects, -, hr, hx⟩
    · exact h.copies k state hold
    · obtain ⟨line, hline, rfl⟩ :=
        (Books.arrives_registry (b := ⟨net, []⟩) hnew).2 state rfl
      exact h.lines line hline
    · exact absurd rfl ((Server.isRegistry_of_self hr.result hx).2 state)
  lines := fun line hline => by
    rcases hst.pongs_cases hline with hold | ⟨s, o, before, m, after, effects, -, hr, hnew⟩
    · exact h.lines line hold
    · rw [(hr.pongLine hnew).2]
      exact fun _ => Server.SameRegistry.wellFormed (s := before) ⟨rfl, rfl, rfl, rfl⟩
        (h.servers s before hr.srvBefore)

end Net

/-! ## What handlers do to the addresses -/

namespace Server

/-- A login files the connection it came on under the id of the passenger. -/
theorem passengerLogin_files (s : Server) (e : PassengerLogin) :
    ∃ id, (s.passengerLogin e).1.passengers.lookup e.name = some id ∧
      (s.passengerLogin e).1.passengersAddress = s.passengersAddress.insert id e.addr ∧
      ∀ name, name ≠ e.name →
        (s.passengerLogin e).1.passengers.lookup name = s.passengers.lookup name := by
  unfold passengerLogin
  split
  · next id hid => exact ⟨id, hid, rfl, fun _ _ => rfl⟩
  · exact ⟨_, AList.lookup_insert _, rfl, fun name hname => AList.lookup_insert_ne hname⟩

end Server

/-! ## Servers and passengers -/

/-- The group of servers and the passengers, which go by their names. -/
structure Riders where
  net : Net
  /-- the connections that passengers have opened, to which start of which server -/
  links : List ServerConnection
  /-- the connection that a passenger uses, if its process runs -/
  running : String → Option ℕ
  /-- the `login` lines on their way, with their connections -/
  logins : List (ℕ × String)

inductive Riders.Label where
  /-- a step of the servers in which no login arrives -/
  | server (l : ConcuRide.Label)
  /-- `main` starts a passenger -/
  | starts (name : String)
  /-- a passenger handles `Reconnect` -/
  | reconnects (name : String)
  /-- a passenger writes its `login` line -/
  | logs (name : String)
  /-- the `i`-th `login` line arrives -/
  | loginArrives (i : ℕ)
  | loginLost (i : ℕ)
  /-- the process of a passenger ends -/
  | ends (name : String)

namespace Riders

/-- The group that consists of `servidor_lider(l)`, before any passenger is started. -/
def start (N l : ℕ) : Riders := ⟨Net.start N l, [], fun _ => none, []⟩

/-- A passenger gets a connection from `connect_to_server_leader`, if any server listens. -/
def connects (N : ℕ) (w : Riders) (name : String) : Option Riders :=
  (connectToServerLeader w.net.listening N).map fun s =>
    { w with
      links := w.links ++ [⟨s, w.net.boots s⟩]
      running := Function.update w.running name (some w.links.length) }

/-- The riders after a step, if the step is possible. A line arrives as long as the server at the
    other end of its connection runs. -/
def step (N : ℕ) (w : Riders) : Label → Option Riders
  | .server l =>
    if Lobby.isLogin l then none else (w.net.step N l).map fun net => { w with net := net }
  | .starts name => if (w.running name).isSome then none else w.connects N name
  | .reconnects name => if (w.running name).isSome then w.connects N name else none
  | .logs name => (w.running name).map fun n => { w with logins := w.logins ++ [(n, name)] }
  | .loginArrives i => do
    let (n, name) ← w.logins[i]?
    let link ← w.links[n]?
    if w.net.isUp link.server link.session then
      let net ← w.net.step N (.post link.server (.passengerLogin ⟨name, .client n⟩))
      return { w with net := net, logins := w.logins.eraseIdx i }
    else none
  | .loginLost i =>
    if i < w.logins.length then some { w with logins := w.logins.eraseIdx i } else none
  | .ends name =>
    if (w.running name).isSome then
      some { w with running := Function.update w.running name none }
    else none

/-- Server `s` has filed connection `n` under the id, and the connection leads to this start
    of it. -/
def files (w : Riders) (s : ℕ) (srv : Server) (id n : ℕ) : Bool :=
  decide (srv.passengersAddress.lookup id = some (.client n)) &&
    decide (w.links[n]? = some ⟨s, w.net.boots s⟩)

/-- A leader has the passenger in its registry. -/
def isKnown (N : ℕ) (w : Riders) (name : String) : Bool :=
  (List.range (N + 1)).any fun s => (w.net.srv s).any fun srv =>
    srv.imLeader && (srv.passengers.lookup name).isSome

/-- Server `s` may handle the message: it becomes leader only when no passenger of its registry
    runs, has the connections of the running passengers on file when it takes over a copy as leader,
    and handles the login of a running passenger only if it comes on the connection that the
    passenger uses. -/
def mayHandle (w : Riders) (s : ℕ) (srv : Server) : Msg → Bool
  | .newLeader m =>
    srv.imLeader || decide (m.leaderId ≠ srv.id) ||
      srv.passengers.entries.all fun e => (w.running e.1).isNone
  | .updateNetworkState state =>
    !srv.imLeader || state.passengers.entries.all fun e =>
      (w.running e.1).all fun n => w.files s srv e.2 n
  | .passengerLogin e => (w.running e.name).all fun n => decide (e.addr = .client n)
  | _ => true

/-- **Nobody is left behind**: the servers handle what they may, and a passenger that a leader knows
    opens no new connection. -/
def keepsAddresses (N : ℕ) (w : Riders) : Label → Bool
  | .server (.recv s _) =>
    (w.net.srv s).all fun srv => (w.net.mailbox s).head?.all (w.mayHandle s srv)
  | .starts name | .reconnects name => !w.isKnown N name
  | _ => true

variable {N i : ℕ} {w w' : Riders} {l : Label} {ls : List Label} {name : String}

/-- Every leader has the connection of every running passenger it knows on file. -/
structure Reached (N : ℕ) (w : Riders) : Prop where
  valid : Net.Valid N w.net
  registries : w.net.RegistriesOk
  queued : ∀ s e, w.net.Queued s (.passengerLogin e) →
    ∃ n, e.addr = .client n ∧ w.links[n]? = some ⟨s, w.net.boots s⟩
  addresses : ∀ s srv name id n, w.net.srv s = some srv → srv.imLeader = true →
    srv.passengers.lookup name = some id → w.running name = some n → w.files s srv id n = true

theorem files_iff {s id n : ℕ} {srv : Server} : w.files s srv id n = true ↔
    srv.passengersAddress.lookup id = some (.client n) ∧
      w.links[n]? = some ⟨s, w.net.boots s⟩ := by
  simp [files]

theorem mem_entries {passengers : HashMap String ℕ} {name : String} {id : ℕ}
    (h : passengers.lookup name = some id) : ⟨name, id⟩ ∈ passengers.entries :=
  AList.mem_lookup_iff.1 h

/-! ### Steps of the servers -/

section Server

variable {net' : Net} {sl : ConcuRide.Label}

/-- A login waits at the end of its own connection. -/
theorem queued_server (h : w.Reached N) (hstep : w.net.step N sl = some net')
    (hposted : ∀ s e, sl = .post s (.passengerLogin e) →
      ∃ n, e.addr = .client n ∧ w.links[n]? = some ⟨s, w.net.boots s⟩) {s : ℕ}
    {e : PassengerLogin} (hq : net'.Queued s (.passengerLogin e)) :
    ∃ n, e.addr = .client n ∧ w.links[n]? = some ⟨s, net'.boots s⟩ := by
  have hboots : net'.boots s = w.net.boots s := by
    rcases (Net.step_cases hstep).boots_cases s with hboots | ⟨-, -, hempty, -⟩
    · exact hboots
    · rw [Net.Queued, hempty] at hq
      cases hq
  rw [hboots]
  have hbooks : (⟨w.net, []⟩ : Books).step N sl = some ⟨net', Books.told w.net net' sl ++ []⟩ := by
    rw [Books.step, hstep]
    rfl
  rcases Lobby.login_queued hbooks hq with hold | hnew
  · exact h.queued s e hold
  · exact hposted s e hnew

/-- A leader that handles a login, or applies a copy, or handles anything else. -/
theorem files_handled (h : w.Reached N) {s : ℕ} {o : Oracle} {before after : Server} {m : Msg}
    {effects : List Effect} (hr : Net.Handles N w.net net' s o before m after effects)
    (hok : w.keepsAddresses N (.server (.recv s o)) = true) (him : before.imLeader = true)
    {name : String} {id n : ℕ} (hid : after.passengers.lookup name = some id)
    (hrun : w.running name = some n) : w.files s after id n = true := by
  obtain ⟨rest, hbox, -⟩ := hr.mailbox
  simp only [keepsAddresses, hr.srvBefore, Option.all_some, hbox, List.head?_cons] at hok
  rcases Server.passengers_handled hr.result with ⟨hpass, haddr⟩ | ⟨e, rfl⟩ | ⟨state, rfl⟩
  · rw [hpass] at hid
    rw [files, haddr]
    exact h.addresses s before name id n hr.srvBefore him hid hrun
  · have hafter : (before.passengerLogin e).1 = after := congrArg Prod.fst
      (Option.some.inj hr.result)
    obtain ⟨k, hk, hfiled, hothers⟩ := before.passengerLogin_files e
    rw [hafter] at hk hfiled hothers
    by_cases hname : name = e.name
    · subst hname
      obtain rfl := Option.some.inj (hk.symm.trans hid)
      rw [mayHandle, hrun, Option.all_some, decide_eq_true_eq] at hok
      obtain ⟨n', hn', hlink⟩ := h.queued s e hr.queued
      obtain rfl : n = n' := Addr.client.inj (hok.symm.trans hn')
      exact files_iff.2 ⟨by rw [hfiled, AList.lookup_insert, hok], hlink⟩
    · -- the login of somebody else, who has another id
      have hne : id ≠ k := by
        rintro rfl
        have hwf : after.WellFormed := Server.wellFormed_handled
          (h.registries.servers s before hr.srvBefore) (fun _ heq => by cases heq) hr.result
        have hsame := hwf.ids.inj (.passenger name) (.passenger e.name) id hid hk
        exact hname (Client.passenger.inj hsame)
      rw [hothers name hname] at hid
      rw [files, hfiled, AList.lookup_insert_ne hne]
      exact h.addresses s before name id n hr.srvBefore him hid hrun
  · obtain ⟨rfl, -⟩ := Prod.mk.inj (Option.some.inj hr.result)
    simp only [mayHandle, him, Bool.not_true, Bool.false_or, List.all_eq_true] at hok
    have hfiles := hok _ (mem_entries hid)
    rw [hrun, Option.all_some] at hfiles
    exact hfiles

/-- A server that becomes leader knows no running passenger, unless it was leader before. -/
theorem files_newLeader (h : w.Reached N) {s : ℕ} {o : Oracle} {before after : Server}
    {e : NewLeader} {effects : List Effect}
    (hr : Net.Handles N w.net net' s o before (.newLeader e) after effects)
    (hok : w.keepsAddresses N (.server (.recv s o)) = true) (he : e.leaderId = before.id)
    {id n : ℕ} (hid : after.passengers.lookup name = some id) (hrun : w.running name = some n) :
    w.files s after id n = true := by
  obtain ⟨rest, hbox, -⟩ := hr.mailbox
  obtain ⟨hpass, haddr⟩ : after.passengers = before.passengers ∧
      after.passengersAddress = before.passengersAddress := by
    rcases Server.passengers_handled hr.result with hsame | ⟨e', he'⟩ | ⟨state, he'⟩
    · exact hsame
    · cases he'
    · cases he'
  rw [hpass] at hid
  simp only [keepsAddresses, hr.srvBefore, Option.all_some, hbox, List.head?_cons, mayHandle, he,
    ne_eq, not_true_eq_false, decide_false, Bool.or_false, Bool.or_eq_true, List.all_eq_true,
    Option.isNone_iff_eq_none] at hok
  rcases hok with hleader | hnobody
  · rw [files, haddr]
    exact h.addresses s before name id n hr.srvBefore hleader hid hrun
  · exact absurd ((hnobody _ (mem_entries hid)).symm.trans hrun) (by simp)

theorem reached_server (h : w.Reached N) (hok : w.keepsAddresses N (.server sl) = true)
    (hstep : w.net.step N sl = some net')
    (hposted : ∀ s e, sl = .post s (.passengerLogin e) →
      ∃ n, e.addr = .client n ∧ w.links[n]? = some ⟨s, w.net.boots s⟩) :
    Reached N { w with net := net' } where
  valid := Net.valid_step h.valid hstep
  registries := Net.registriesOk_step h.registries (Net.step_cases hstep)
  queued := fun _ _ hq => queued_server h hstep hposted hq
  addresses := fun s srv name id n hs him hid hrun => by
    rcases (Net.step_cases hstep).srv_cases hs with hold | ⟨o, before, m, effects, rfl, hr⟩ |
      ⟨-, -, -, rfl⟩
    · have hboots : net'.boots s = w.net.boots s :=
        (Net.step_cases hstep).boots_eq (Net.live_iff.2 ⟨srv, hold⟩)
      have hfiles := files_iff.1 (h.addresses s srv name id n hold him hid hrun)
      exact files_iff.2 ⟨hfiles.1, hfiles.2.trans (by rw [hboots])⟩
    · have hboots : net'.boots s = w.net.boots s := congrFun hr.boots s
      have hfiles : w.files s srv id n = true := by
        rcases hr.handled.imLeader_cases him with hleader | ⟨e, rfl, he⟩
        · exact files_handled h hr hok hleader hid hrun
        · exact files_newLeader h hr hok he hid hrun
      exact files_iff.2 ⟨(files_iff.1 hfiles).1, (files_iff.1 hfiles).2.trans (by rw [hboots])⟩
    · cases him

end Server

/-! ### Steps of the passengers -/

/-- A connection that is open keeps its number. -/
theorem link_append {links : List ServerConnection} {n : ℕ} {link : ServerConnection}
    (h : links[n]? = some link) (new : List ServerConnection) : (links ++ new)[n]? = some link := by
  rw [List.getElem?_append_left (List.getElem?_eq_some_iff.1 h).1]
  exact h

theorem not_known (h : w.Reached N) (hknown : w.isKnown N name = false) {s : ℕ} {srv : Server}
    (hs : w.net.srv s = some srv) (him : srv.imLeader = true) :
    srv.passengers.lookup name = none := by
  have hlt : s < N + 1 := Nat.lt_succ_of_le (mem_ring.1 (h.valid.ids s srv hs).1).2
  simp only [isKnown, List.any_eq_false, List.mem_range] at hknown
  simpa [hs, him] using hknown s hlt

/-- A passenger that no leader knows opens a connection. -/
theorem reached_connects (h : w.Reached N) (hknown : w.isKnown N name = false)
    (hstep : w.connects N name = some w') : w'.Reached N := by
  obtain ⟨s, -, rfl⟩ := Option.map_eq_some_iff.1 hstep
  refine ⟨h.valid, h.registries, fun k e hq => ?_, fun k srv other id n hs him hid hrun => ?_⟩
  · obtain ⟨n, haddr, hlink⟩ := h.queued k e hq
    exact ⟨n, haddr, link_append hlink _⟩
  · dsimp only at hrun
    by_cases hother : other = name
    · subst hother
      rw [not_known h hknown hs him] at hid
      cases hid
    · rw [Function.update_of_ne hother] at hrun
      have hfiles := files_iff.1 (h.addresses k srv other id n hs him hid hrun)
      exact files_iff.2 ⟨hfiles.1, link_append hfiles.2 _⟩

/-- A `login` line arrives at the end of its connection. -/
theorem reached_loginArrives (h : w.Reached N) {j : ℕ}
    (hstep : w.step N (.loginArrives j) = some w') : w'.Reached N := by
  simp only [step, Option.bind_eq_bind, Option.bind_eq_some_iff, Prod.exists] at hstep
  obtain ⟨n, name, -, link, hlink, hstep⟩ := hstep
  split at hstep
  · next hup =>
      obtain ⟨net, hnet, hw'⟩ := Option.bind_eq_some_iff.1 hstep
      obtain rfl := Option.some.inj hw'
      have hok : w.keepsAddresses N
          (.server (.post link.server (.passengerLogin ⟨name, .client n⟩))) = true := rfl
      have hreached := reached_server h hok hnet fun s e heq => by
        obtain ⟨rfl, hmsg⟩ := ConcuRide.Label.post.inj heq
        obtain rfl := Msg.passengerLogin.inj hmsg
        simp only [Net.isUp, Bool.and_eq_true, decide_eq_true_eq] at hup
        exact ⟨n, rfl, by rw [hlink, hup.2]⟩
      exact ⟨hreached.valid, hreached.registries, hreached.queued, hreached.addresses⟩
  · cases hstep

theorem reached_step (h : w.Reached N) (hok : w.keepsAddresses N l = true)
    (hstep : w.step N l = some w') : w'.Reached N := by
  cases l with
  | server sl =>
      simp only [step] at hstep
      split at hstep
      · cases hstep
      · next hlogin =>
          obtain ⟨net', hnet, rfl⟩ := Option.map_eq_some_iff.1 hstep
          refine reached_server h hok hnet fun s e heq => ?_
          rw [heq] at hlogin
          exact absurd rfl hlogin
  | starts name =>
      simp only [step] at hstep
      split at hstep
      · cases hstep
      · exact reached_connects h (by simpa [keepsAddresses] using hok) hstep
  | reconnects name =>
      simp only [step] at hstep
      split at hstep
      · exact reached_connects h (by simpa [keepsAddresses] using hok) hstep
      · cases hstep
  | logs name =>
      obtain ⟨n, -, rfl⟩ := Option.map_eq_some_iff.1 hstep
      exact ⟨h.valid, h.registries, h.queued, h.addresses⟩
  | loginArrives j => exact reached_loginArrives h hstep
  | loginLost j =>
      simp only [step] at hstep
      split at hstep
      · obtain rfl := Option.some.inj hstep
        exact ⟨h.valid, h.registries, h.queued, h.addresses⟩
      · cases hstep
  | ends name =>
      simp only [step] at hstep
      split at hstep
      · obtain rfl := Option.some.inj hstep
        refine ⟨h.valid, h.registries, h.queued, fun s srv other id n hs him hid hrun => ?_⟩
        dsimp only at hrun
        by_cases hother : other = name
        · rw [hother, Function.update_self] at hrun
          cases hrun
        · rw [Function.update_of_ne hother] at hrun
          exact h.addresses s srv other id n hs him hid hrun
      · cases hstep

/-- Replica 2 joins leader 1. -/
def joins : List Label :=
  [.server (.boot 2), .server (.dial 2), .server (.recv 2 .up),
    .server (.post 1 (.newServerConnection ⟨.server 2 1, "127.0.0.1:5002", 2⟩)),
    .server (.recv 1 .up), .server (.recv 1 .up), .server (.pongArrives 0), .server (.recv 2 .up)]

/-- Passenger "peach" is started, and its login handled by server `s`. -/
def logsIn (s : ℕ) : List Label :=
  [.starts "peach", .logs "peach", .loginArrives 0, .server (.recv s .up)]

end Riders

end ConcuRide
