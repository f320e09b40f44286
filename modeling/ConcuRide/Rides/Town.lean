import ConcuRide.Rides.InStep
import ConcuRide.Rides.Undisturbed
import ConcuRide.Server.Replies
import ConcuRide.Wire.Lines

set_option autoImplicit false

/-! # A leader, its drivers and a passenger

The leader with its registry, the drivers and a passenger, and the lines between any two of them,
as long as nobody crashes and no connection is lost. The registry lags behind the drivers by the
lines that are on their way, and the passenger looks for a driver in a list that the leader has
written at some moment. When everything has come to rest the registry is up to date, and a passenger
that has found no driver was turned away for a reason. -/

namespace ConcuRide

open Lib

/-! ## What the passenger says -/

namespace Passenger

/-- The lines of a handler for the leader. -/
def serverLines (effects : List Effect) : List ServerLine :=
  effects.filterMap fun
    | .server line => some line
    | _ => none

theorem asks_eq (effects : List Effect) :
    asks effects = (serverLines effects).countP ServerLine.isGetDrivers := by
  induction effects with
  | nil => rfl
  | cons e effects ih =>
      rw [asks, List.countP_cons, ← asks, ih]
      cases e with
      | server line => exact (List.countP_cons (p := ServerLine.isGetDrivers)).symm
      | _ => rfl

end Passenger

/-! ## What a driver says -/

namespace Driver

/-- What a driver that keeps running says about itself. -/
structure Speaks (name : String) (d : Driver) (m : Msg) (t : Driver) (effects : List Effect) :
    Prop where
  about : ∀ line ∈ notices effects, line.About name
  socket : ∀ line ∈ notices effects, ∀ socket, line.toMsg.socketOf name = some socket →
    ∃ r, m = .register r ∧ r.socket = socket
  driverSocket : t.driverSocket = d.driverSocket
  register : ∀ r, .register r ∉ selfMessages effects

variable {o : Oracle} {d t : Driver} {m : Msg} {effects : List Effect} {name : String}

/-- A handler that tells the leader nothing but this line. -/
theorem Speaks.of_line (line : ServerLine) (hlines : ∀ l ∈ notices effects, l = line)
    (habout : line.About name)
    (hsocket : ∀ socket, line.toMsg.socketOf name = some socket →
      ∃ r, m = .register r ∧ r.socket = socket)
    (hsame : t.driverSocket = d.driverSocket) (hself : ∀ r, .register r ∉ selfMessages effects) :
    Speaks name d m t effects :=
  ⟨fun l hl => hlines l hl ▸ habout, fun l hl => hlines l hl ▸ hsocket, hsame, hself⟩

theorem handle_speaks (hconn : d.serverReceiver.isSome = true) (ho : o.connected = true)
    (hname : d.name = name) (hrec : m.isReconnect = false) (hread : m.isRecovery = false)
    (hregister : ∀ r, m = .register r → r.name = name) (h : d.handle o m = some (t, effects)) :
    Speaks name d m t effects := by
  cases handle_outcome h with
  | noServer | newServer => cases hrec
  | recoversFree | recoversBusy => cases hread
  | register r =>
      rw [sendToServer_up hconn ho]
      refine .of_line (.newDriver r.socket r.name r.position)
        (by simp [notices, serverLines, saveState]) (hregister r rfl) (fun socket hsocket => ?_) rfl
        (by simp [selfMessages, saveState])
      exact ⟨r, rfl, Option.some.inj (Option.ite_none_right_eq_some.1 hsocket).2⟩
  | accepts r hfree ht =>
      rw [sendToServer_up (by rw [ht]; exact hconn) ho]
      exact .of_line (.busyDriver d.name) (by simp [notices, serverLines, saveState]) hname
        (fun socket hsocket => by cases hsocket) (by rw [ht]) (by simp [selfMessages, saveState])
  | endRide dst ht =>
      have hsend := sendToServer_up (d := { d with position := dst }) hconn ho
        (.availableDriver d.name dst)
      rw [hsend]
      exact .of_line (.availableDriver d.name dst) (by simp [notices, serverLines, saveState]) hname
        (fun socket hsocket => by cases hsocket) (by rw [ht]) (by simp [selfMessages, saveState])
  | _ =>
      exact ⟨by simp [notices, serverLines, saveState], by simp [notices, serverLines, saveState],
        rfl, by simp [selfMessages, saveState]⟩

/-- A driver that goes on undisturbed takes its position from nobody. -/
theorem follows_of_isPlain {own : ℕ → Bool} (hm : m.isPlain own = true) : d.follows m = true := by
  cases m with
  | reconnectPassenger => cases hm
  | _ => rfl

end Driver

/-- A driver in step speaks of nobody but itself. -/
theorem Cab.Phase.speaks {name : String} {told : Option Standing} {file : StatusFile}
    {d t : Driver} {m : Driver.Msg} {rest : List Driver.Msg} {effects : List Driver.Effect}
    (h : Phase name told file d (m :: rest)) (hread : m.isRecovery = false)
    (hh : handler d m = some (t, effects)) : Driver.Speaks name d m t effects := by
  cases h with
  | connects =>
      obtain ⟨rfl, rfl⟩ := Prod.mk.inj (Option.some.inj hh)
      exact ⟨by simp [Driver.notices, Driver.serverLines],
        by simp [Driver.notices, Driver.serverLines], rfl, by simp [Driver.selfMessages]⟩
  | reads => cases hread
  | registers hconn hname hr =>
      exact Driver.handle_speaks hconn rfl hname rfl rfl
        (fun r heq => Driver.Msg.register.inj heq ▸ hr) hh
  | running hconn hname _ _ hmailbox =>
      obtain ⟨hstart, hrec⟩ := hmailbox m List.mem_cons_self
      refine Driver.handle_speaks hconn rfl hname hrec hread (fun r heq => ?_) hh
      rw [heq] at hstart
      cases hstart

/-- The step of the passenger's world in which a line of the leader arrives. A `pong` is dropped. -/
def Line.label : Line → Option World.Label
  | .drivers driversInfo => some (.answer 0 (driversInfo.map DriverInfo.forPassenger))
  | .identificador id => some (.notice (.completeLogin id))
  | .reconnectDriver socket => some (.notice (.reconnectDriver socket))
  | .pong _ => none

/-- The messages of others than the drivers and the client at `me`: replicas, other passengers and
    the timers of the leader. -/
def Msg.isOther (me : Addr) : Msg → Bool
  | .newDriver _ | .updateDriver _ | .busyDriver _ | .reconnectDriver _ | .updateDriverSocket _
  | .updateNetworkState _ => false
  | .getDrivers addr | .pong addr => decide (addr ≠ me)
  | .passengerLogin m => decide (m.addr ≠ me)
  | _ => true

namespace World

/-- A line of the leader arrives. -/
def Label.isReply : Label → Bool
  | .notice _ | .answer _ _ => true
  | _ => false

/-- A driver's connection to the leader is up. -/
def Label.connected : Label → Bool
  | .drives _ o => decide (o = Driver.Process.up)
  | _ => true

/-- What driver `x` writes to the leader in a step. -/
def notices (w : World) (l : Label) (x : String) : List Driver.ServerLine :=
  match l with
  | .drives d o => if x = d then ((w.drivers d).recv o).elim [] fun r => Driver.notices r.2 else []
  | _ => []

/-- The driver that the passenger dials in a step. -/
def contacts (distance : Position → Position → ℕ) (w : World) : Label → List Passenger.DriverInfo
  | .recv _ _ =>
    match w.passenger with
    | some (p, m :: _) => p.contacts distance m
    | _ => []
  | _ => []

end World

/-- The passenger and the drivers with the leader, the lines of each of them that the leader has not
    received, and the leader's lines to the passenger. -/
structure Town where
  trip : Trip
  srv : Server
  mailbox : List Msg
  wires : String → List Driver.ServerLine
  requests : List Passenger.ServerLine
  replies : List Line
  /-- the drivers that the passenger has dialled since the leader answered it last -/
  dialled : List Passenger.DriverInfo

namespace Town

inductive Label where
  /-- a step of the passenger and the drivers -/
  | ride (l : World.Label)
  /-- the next line of driver `d` reaches the leader -/
  | tells (d : String)
  /-- the next line of the passenger reaches the leader -/
  | asks
  /-- the next line of the leader reaches the passenger -/
  | hears
  /-- a message of somebody else reaches the leader -/
  | post (m : Msg)
  /-- the leader handles the next message of its mailbox -/
  | handle (o : Oracle)

def init (N id : ℕ) (name : String) (position destination : Position) (k : ℕ) : Town where
  trip := .init name position destination k
  srv := Server.lider N id
  mailbox := []
  wires := fun _ => []
  requests := []
  replies := []
  dialled := []

variable (N : ℕ) (me : Addr) (distance : Position → Position → ℕ) (own : ℕ → Bool) (name : String)
  (w : Town)

/-- A step of the passenger and the drivers, with the lines they write to the leader. -/
def ride (l : World.Label) : Option Town :=
  (w.trip.step distance own name l).map fun trip =>
    { w with
      trip := trip
      wires := fun d => w.wires d ++ w.trip.world.notices l d
      requests := w.requests ++ Passenger.serverLines (w.trip.world.effects distance l)
      dialled := w.dialled ++ w.trip.world.contacts distance l }

/-- One step, if it is possible. -/
def step (w : Town) : Label → Option Town
  | .ride l => if l.isReply then none else w.ride distance own name l
  | .tells d =>
    match w.wires d with
    | [] => none
    | line :: rest =>
      some { w with
        mailbox := w.mailbox ++ [line.toMsg]
        wires := Function.update w.wires d rest }
  | .asks =>
    match w.requests with
    | [] => none
    | line :: rest => some { w with mailbox := w.mailbox ++ [line.toMsg me], requests := rest }
  | .hears =>
    match w.replies with
    | [] => none
    | line :: rest =>
      match line.label with
      | none => some { w with replies := rest }
      | some l => { w with replies := rest }.ride distance own name l
  | .post m => if m.isOther me then some { w with mailbox := w.mailbox ++ [m] } else none
  | .handle o =>
    match w.mailbox with
    | [] => none
    | m :: rest =>
      (w.srv.handle N o m).map fun (srv, effects) =>
        { w with
          srv := srv
          mailbox := rest ++ selfMessages effects
          replies := w.replies ++ Server.linesTo me effects
          dialled := if m.isQuery me then [] else w.dialled }

/-- **Nothing goes wrong** in this step. -/
def undisturbed : Label → Bool
  | .ride l => w.trip.world.undisturbed own l && l.connected
  | _ => true

/-- Everybody waits for a message, and none is on its way. -/
structure AtRest (w : Town) : Prop where
  passenger : ∃ p, w.trip.world.passenger = some (p, [])
  drivers : ∀ d, w.trip.world.starts d ≠ 0 →
    ∃ a, (w.trip.world.drivers d).actor = some (a, [])
  auths : w.trip.world.auths = 0
  up : w.trip.world.up = []
  down : w.trip.world.down = []
  mailbox : w.mailbox = []
  wires : ∀ d, w.trip.world.starts d ≠ 0 → w.wires d = []
  requests : w.requests = []
  replies : w.replies = []

/-- The leader has heard everything about driver `d`, which is in state `a`. -/
structure Knows (w : Town) (d : String) (a : Driver) : Prop where
  running : ∃ box, (w.trip.world.drivers d).actor = some (a, box) ∧
    ∀ m ∈ box, m.isStartUp = false
  wire : w.wires d = []
  mailbox : ∀ m ∈ w.mailbox, m.moves ≠ some d

/-- The leader is about to answer the client at `me`. -/
def Answers (w : Town) : Prop := ∃ rest, w.mailbox = .getDrivers me :: rest

/-- The leader has answered the client at `me` last in `w₀`. -/
def LastAnswer (past : List Town) (w₀ : Town) : Prop :=
  ∃ before after, past = before ++ w₀ :: after ∧ w₀.Answers me ∧ ∀ w₁ ∈ after, ¬ w₁.Answers me

/-- Every free driver that the leader knows is in the list. -/
def CoveredBy (driversInfo : List Passenger.DriverInfo) : Prop :=
  ∀ d a, w.Knows d a → a.isAvailable = true →
    (⟨a.driverSocket, a.position⟩ : Passenger.DriverInfo) ∈ driversInfo

/-! ## Steps -/

/-- **The steps of the town**, one case for each way a step is possible. -/
inductive Step : Label → Town → Prop
  | ride {l : World.Label} {w' : Town} (hl : l.isReply = false)
      (h : w.ride distance own name l = some w') : Step (.ride l) w'
  | tells {d : String} {line : Driver.ServerLine} {rest : List Driver.ServerLine}
      (hwire : w.wires d = line :: rest) : Step (.tells d) { w with
        mailbox := w.mailbox ++ [line.toMsg]
        wires := Function.update w.wires d rest }
  | asks {line : Passenger.ServerLine} {rest : List Passenger.ServerLine}
      (hrequests : w.requests = line :: rest) : Step .asks { w with
        mailbox := w.mailbox ++ [line.toMsg me]
        requests := rest }
  | drops {line : Line} {rest : List Line} (hreplies : w.replies = line :: rest)
      (hline : line.label = none) : Step .hears { w with replies := rest }
  | hears {line : Line} {rest : List Line} {l : World.Label} {w' : Town}
      (hreplies : w.replies = line :: rest) (hline : line.label = some l)
      (h : { w with replies := rest }.ride distance own name l = some w') : Step .hears w'
  | post {m : Msg} (hm : m.isOther me = true) :
      Step (.post m) { w with mailbox := w.mailbox ++ [m] }
  | handle {o : Oracle} {m : Msg} {rest : List Msg} {srv : Server} {effects : List Effect}
      (hmailbox : w.mailbox = m :: rest) (hh : w.srv.handle N o m = some (srv, effects)) :
      Step (.handle o) { w with
        srv := srv
        mailbox := rest ++ selfMessages effects
        replies := w.replies ++ Server.linesTo me effects
        dialled := if m.isQuery me then [] else w.dialled }

variable {N me distance own name w} {w' : Town} {l : Label} {d : String}

theorem step_cases (h : step N me distance own name w l = some w') :
    Step N me distance own name w l w' := by
  cases l with
  | ride l =>
      simp only [step] at h
      split at h
      · cases h
      · next hl => exact .ride (Bool.not_eq_true _ ▸ hl) h
  | tells d =>
      simp only [step] at h
      split at h
      · cases h
      · next hwire =>
          obtain rfl := Option.some.inj h
          exact .tells hwire
  | asks =>
      simp only [step] at h
      split at h
      · cases h
      · next hrequests =>
          obtain rfl := Option.some.inj h
          exact .asks hrequests
  | hears =>
      simp only [step] at h
      split at h
      · cases h
      · next hreplies =>
          split at h
          · next hline =>
              obtain rfl := Option.some.inj h
              exact .drops hreplies hline
          · next hline => exact .hears hreplies hline h
  | post m =>
      simp only [step] at h
      split at h
      · next hm =>
          obtain rfl := Option.some.inj h
          exact .post hm
      · cases h
  | handle o =>
      simp only [step] at h
      split at h
      · cases h
      · next hmailbox =>
          obtain ⟨⟨srv, effects⟩, hh, rfl⟩ := Option.map_eq_some_iff.1 h
          exact .handle hmailbox hh

/-! ## The leader and the drivers -/

/-- What the leader has yet to handle of driver `d`, in the order in which it was sent. -/
def pending (w : Town) (d : String) : List Msg :=
  w.mailbox ++ (w.wires d).map Driver.ServerLine.toMsg

/-- What the leader knows about driver `d` once it has handled what is pending. -/
def told (w : Town) (d : String) : Option Standing :=
  (w.pending d).foldl (Standing.hear d) (w.srv.standing d)

/-- The leader has been told this socket of driver `d`, or is going to be. -/
def TellsSocket (w : Town) (d socket : String) : Prop :=
  (∃ p, w.srv.profile d = some p ∧ p.socket = socket) ∨
    ∃ m ∈ w.pending d, m.socketOf d = some socket

/-- Driver `d` is in step with what the leader has been told. -/
structure Follows (w : Town) (d : String) (a : Driver) (box : List Driver.Msg) : Prop where
  phase : ∃ file, Cab.Phase d (w.told d) file a box
  register : ∀ r, .register r ∈ box → r.socket = a.driverSocket
  socket : ∀ socket, w.TellsSocket d socket → socket = a.driverSocket

/-- The invariant of the leader and the drivers. -/
structure Registry (w : Town) : Prop where
  drivers : w.srv.DriversOk
  copies : ∀ m ∈ w.mailbox, ∀ state, m ≠ .updateNetworkState state
  comebacks : ∀ m ∈ w.mailbox, ∀ e, m ≠ .reconnectDriver e
  lines : ∀ d, ∀ line ∈ w.wires d, line.About d
  follows : ∀ d a box, (w.trip.world.drivers d).actor = some (a, box) → w.Follows d a box
  unknown : ∀ d, w.trip.world.starts d = 0 →
    w.told d = none ∧ ∀ socket, ¬ w.TellsSocket d socket

/-- A step of the leader, or of what is on its way to it. -/
theorem Registry.leader (hs : w.Registry)
    (hactors : w'.trip.world.drivers = w.trip.world.drivers)
    (hstarts : w'.trip.world.starts = w.trip.world.starts) (hdrivers : w'.srv.DriversOk)
    (hcopies : ∀ m ∈ w'.mailbox, ∀ state, m ≠ .updateNetworkState state)
    (hcomebacks : ∀ m ∈ w'.mailbox, ∀ e, m ≠ .reconnectDriver e)
    (hlines : ∀ d, ∀ line ∈ w'.wires d, line ∈ w.wires d)
    (htold : ∀ d, w'.told d = w.told d)
    (hsocket : ∀ d socket, w'.TellsSocket d socket → w.TellsSocket d socket) :
    w'.Registry where
  drivers := hdrivers
  copies := hcopies
  comebacks := hcomebacks
  lines := fun d line hline => hs.lines d line (hlines d line hline)
  follows := fun d a box hactor => by
    have hfollows := hs.follows d a box (hactors ▸ hactor)
    exact ⟨(htold d).symm ▸ hfollows.phase, hfollows.register,
      fun socket htells => hfollows.socket socket (hsocket d socket htells)⟩
  unknown := fun d hd => by
    obtain ⟨hnone, hquiet⟩ := hs.unknown d (hstarts ▸ hd)
    exact ⟨(htold d).trans hnone, fun socket htells => hquiet socket (hsocket d socket htells)⟩

/-- A message that says nothing about a driver reaches the leader. -/
theorem told_post {m : Msg} (hmailbox : w'.mailbox = w.mailbox ++ [m]) (hsrv : w'.srv = w.srv)
    (hwire : w'.wires d = w.wires d) (hm : m.moves ≠ some d) : w'.told d = w.told d := by
  simp only [told, pending, hmailbox, hsrv, hwire, List.foldl_append, List.foldl_cons,
    List.foldl_nil, Server.hear_other hm]

theorem tellsSocket_post {m : Msg} {socket : String} (h : w'.TellsSocket d socket)
    (hmailbox : w'.mailbox = w.mailbox ++ [m]) (hsrv : w'.srv = w.srv)
    (hwire : w'.wires d = w.wires d) (hm : m.socketOf d = none) : w.TellsSocket d socket := by
  rcases h with hprofile | ⟨x, hx, hsocket⟩
  · exact .inl (hsrv ▸ hprofile)
  · simp only [pending, hmailbox, hwire, List.mem_append, List.mem_singleton] at hx
    rcases hx with (hx | rfl) | hx
    · exact .inr ⟨x, List.mem_append_left _ hx, hsocket⟩
    · rw [hm] at hsocket
      cases hsocket
    · exact .inr ⟨x, List.mem_append_right _ hx, hsocket⟩

theorem registry_post {m : Msg} (hs : w.Registry) (htrip : w'.trip = w.trip)
    (hmailbox : w'.mailbox = w.mailbox ++ [m]) (hsrv : w'.srv = w.srv) (hwires : w'.wires = w.wires)
    (hm : m.fromDriver = false) (hsocket : ∀ d, m.socketOf d = none)
    (hcopy : ∀ state, m ≠ .updateNetworkState state) : w'.Registry := by
  have hmoves : ∀ d, m.moves ≠ some d := fun d => by simp [Msg.moves_eq_none hm]
  have hnew : ∀ x ∈ w'.mailbox, x ∈ w.mailbox ∨ x = m := fun x hx => by
    rw [hmailbox] at hx
    simpa using hx
  refine hs.leader (by rw [htrip]) (by rw [htrip]) (hsrv ▸ hs.drivers) (fun x hx => ?_)
    (fun x hx => ?_) (fun d line hline => hwires ▸ hline)
    (fun d => told_post hmailbox hsrv (by rw [hwires]) (hmoves d))
    (fun d socket h => tellsSocket_post h hmailbox hsrv (by rw [hwires]) (hsocket d))
  · rcases hnew x hx with hx | rfl
    · exact hs.copies x hx
    · exact hcopy
  · rcases hnew x hx with hx | rfl
    · exact hs.comebacks x hx
    · rintro e rfl
      cases hm

theorem registry_tells {line : Driver.ServerLine} {rest : List Driver.ServerLine}
    (hs : w.Registry) (hwire : w.wires d = line :: rest) : Registry { w with
      mailbox := w.mailbox ++ [line.toMsg]
      wires := Function.update w.wires d rest } := by
  have habout : line.About d := hs.lines d line (hwire ▸ List.mem_cons_self)
  have hmoves : line.toMsg.moves = some d := Msg.moves_toMsg habout
  have hpending : pending { w with
      mailbox := w.mailbox ++ [line.toMsg]
      wires := Function.update w.wires d rest } d = w.pending d := by
    simp [pending, hwire]
  refine hs.leader rfl rfl hs.drivers (List.forall_mem_append.2 ⟨hs.copies, ?_⟩)
    (List.forall_mem_append.2 ⟨hs.comebacks, ?_⟩) (fun x l hl => ?_) (fun x => ?_)
    fun x socket h => ?_
  · exact List.forall_mem_singleton.2 (Cab.toMsg_ne_copy line)
  · refine List.forall_mem_singleton.2 fun e heq => ?_
    rw [heq] at hmoves
    cases hmoves
  · by_cases hx : x = d
    · subst hx
      simp only [Function.update_self] at hl
      exact hwire ▸ List.mem_cons_of_mem line hl
    · simpa only [Function.update_of_ne hx] using hl
  · by_cases hx : x = d
    · subst hx
      rw [told, hpending]
      rfl
    · refine told_post rfl rfl (Function.update_of_ne hx ..) fun heq => hx ?_
      exact Option.some.inj (heq.symm.trans hmoves)
  · by_cases hx : x = d
    · subst hx
      rw [TellsSocket, hpending] at h
      exact h
    · refine tellsSocket_post h rfl rfl (Function.update_of_ne hx ..) ?_
      cases line with
      | newDriver => exact if_neg fun heq => hx (heq.symm.trans habout)
      | reconnectDriver => exact habout.elim
      | _ => rfl

theorem registry_handle {o : Oracle} {m : Msg} {rest : List Msg} {srv : Server}
    {effects : List Effect} (hs : w.Registry) (hmailbox : w.mailbox = m :: rest)
    (hh : w.srv.handle N o m = some (srv, effects)) (htrip : w'.trip = w.trip)
    (hmailbox' : w'.mailbox = rest ++ selfMessages effects) (hsrv : w'.srv = srv)
    (hwires : w'.wires = w.wires) : w'.Registry := by
  have hcopy := hs.copies m (hmailbox ▸ List.mem_cons_self)
  refine hs.leader (by rw [htrip]) (by rw [htrip]) ?_ (fun x hx => ?_) (fun x hx => ?_)
    (fun d line hline => hwires ▸ hline) (fun d => ?_) fun d socket h => ?_
  · exact hsrv ▸ Server.handle_driversOk hs.drivers hcopy hh
  · rw [hmailbox'] at hx
    rcases List.mem_append.1 hx with hx | hx
    · exact hs.copies x (hmailbox ▸ List.mem_cons_of_mem m hx)
    · exact (Server.isRegistry_of_self hh hx).2
  · rw [hmailbox'] at hx
    rcases List.mem_append.1 hx with hx | hx
    · exact hs.comebacks x (hmailbox ▸ List.mem_cons_of_mem m hx)
    · rintro e rfl
      obtain ⟨u, hu, -⟩ := Server.self_of_registry hh hx rfl
      cases hu
  · simp only [told, pending, hmailbox, hmailbox', hsrv, hwires, List.cons_append, List.foldl_cons,
      List.foldl_append, Server.handle_standing hs.drivers hcopy hh,
      Server.foldl_hear_others (Server.moves_of_self hh)]
  · have hhead : m.socketOf d = some socket → w.TellsSocket d socket := fun hm =>
      .inr ⟨m, List.mem_append_left _ (hmailbox ▸ List.mem_cons_self), hm⟩
    rcases h with ⟨p, hp, rfl⟩ | ⟨x, hx, hsocket⟩
    · rw [hsrv] at hp
      rcases Server.socket_of_handle hs.drivers hcopy hh hp with hold | hnew
      · exact .inl hold
      · exact hhead hnew
    · simp only [pending, hmailbox', hwires, List.mem_append] at hx
      rcases hx with (hx | hx) | hx
      · exact .inr ⟨x, List.mem_append_left _ (hmailbox ▸ List.mem_cons_of_mem m hx), hsocket⟩
      · exact hhead (Server.socketOf_self hh hx hsocket)
      · exact .inr ⟨x, List.mem_append_right _ hx, hsocket⟩

/-- A step that no driver takes part in. -/
theorem Registry.congr (hs : w.Registry) (hactors : w'.trip.world.drivers = w.trip.world.drivers)
    (hstarts : w'.trip.world.starts = w.trip.world.starts) (hsrv : w'.srv = w.srv)
    (hmailbox : w'.mailbox = w.mailbox) (hwires : w'.wires = w.wires) : w'.Registry :=
  hs.leader hactors hstarts (hsrv ▸ hs.drivers) (hmailbox ▸ hs.copies) (hmailbox ▸ hs.comebacks)
    (fun d line hline => hwires ▸ hline) (fun d => by rw [told, told, pending, pending, hmailbox,
      hwires, hsrv]) fun d socket h => by rwa [TellsSocket, pending, hmailbox, hwires, hsrv] at h

/-- A step of driver `d`. -/
theorem Registry.driver (hs : w.Registry) (new : List Driver.ServerLine) (hsrv : w'.srv = w.srv)
    (hmailbox : w'.mailbox = w.mailbox) (hwire : w'.wires d = w.wires d ++ new)
    (hwires : ∀ x, x ≠ d → w'.wires x = w.wires x)
    (hothers : ∀ x, x ≠ d → w'.trip.world.drivers x = w.trip.world.drivers x)
    (hstarts : ∀ x, w'.trip.world.starts x = 0 → x ≠ d ∧ w.trip.world.starts x = 0)
    (habout : ∀ line ∈ new, line.About d)
    (hfollows : ∀ a box, (w'.trip.world.drivers d).actor = some (a, box) → w'.Follows d a box) :
    w'.Registry := by
  have hpending : ∀ x, x ≠ d → w'.pending x = w.pending x := fun x hx => by
    rw [pending, pending, hmailbox, hwires x hx]
  have htold : ∀ x, x ≠ d → w'.told x = w.told x := fun x hx => by
    rw [told, told, hpending x hx, hsrv]
  have hsocket : ∀ x, x ≠ d → ∀ socket, w'.TellsSocket x socket → w.TellsSocket x socket :=
    fun x hx socket h => by rwa [TellsSocket, hpending x hx, hsrv] at h
  constructor
  case drivers => exact hsrv ▸ hs.drivers
  case copies => exact hmailbox ▸ hs.copies
  case comebacks => exact hmailbox ▸ hs.comebacks
  case lines =>
    intro x line hline
    by_cases hx : x = d
    · subst hx
      rw [hwire] at hline
      rcases List.mem_append.1 hline with hold | hnew
      · exact hs.lines x line hold
      · exact habout line hnew
    · exact hs.lines x line (hwires x hx ▸ hline)
  case follows =>
    intro x a box hactor
    by_cases hx : x = d
    · subst hx
      exact hfollows a box hactor
    · have hold := hs.follows x a box (hothers x hx ▸ hactor)
      exact ⟨(htold x hx).symm ▸ hold.phase, hold.register,
        fun socket h => hold.socket socket (hsocket x hx socket h)⟩
  case unknown =>
    intro x hzero
    obtain ⟨hx, hzero⟩ := hstarts x hzero
    obtain ⟨hnone, hquiet⟩ := hs.unknown x hzero
    exact ⟨(htold x hx).trans hnone, fun socket h => hquiet socket (hsocket x hx socket h)⟩

/-- A driver that runs has been started. -/
theorem started_of_actor (htrip : w.trip.Sound distance own)
    (hactor : (w.trip.world.drivers d).actor.isSome = true) (x : String)
    (hx : w.trip.world.starts x = 0) : x ≠ d ∧ w.trip.world.starts x = 0 := by
  refine ⟨?_, hx⟩
  rintro rfl
  rw [htrip.fresh x hx] at hactor
  cases hactor

/-- A message of a passenger reaches driver `d`. -/
theorem registry_enqueue {s : Driver.Process} {m : Driver.Msg} (hs : w.Registry)
    (htrip : w.trip.Sound distance own) (hsrv : w'.srv = w.srv) (hmailbox : w'.mailbox = w.mailbox)
    (hwires : w'.wires = w.wires)
    (hdrivers : w'.trip.world.drivers = (w.trip.world.setDriver d s).drivers)
    (hstarts : w'.trip.world.starts = w.trip.world.starts) (hm : m.isStartUp = false)
    (hrec : m.isReconnect = false) (h : (w.trip.world.drivers d).enqueue m = some s) :
    w'.Registry := by
  have hruns := World.enqueueDriver_isSome h
  refine hs.driver (d := d) [] hsrv hmailbox (by rw [hwires, List.append_nil])
    (fun x _ => by rw [hwires]) (fun x hx => by rw [hdrivers, World.setDriver_other _ s hx])
    (fun x hx => started_of_actor htrip hruns x (hstarts ▸ hx)) (by simp) ?_
  intro a box hactor
  rw [hdrivers, World.setDriver_same] at hactor
  obtain ⟨⟨b, old⟩, hold, rfl⟩ := Option.map_eq_some_iff.1 h
  obtain ⟨rfl, rfl⟩ := Prod.mk.inj (Option.some.inj hactor)
  have hfollows := hs.follows d b old hold
  have hpending : w'.pending d = w.pending d := by rw [pending, pending, hmailbox, hwires]
  obtain ⟨file, hphase⟩ := hfollows.phase
  refine ⟨⟨file, ?_⟩, fun r hr => ?_, fun socket htells => hfollows.socket socket ?_⟩
  · rw [told, hpending, hsrv]
    exact hphase.append (List.forall_mem_singleton.2 ⟨hm, hrec⟩)
  · rcases List.mem_append.1 hr with hr | hr
    · exact hfollows.register r hr
    · rw [← List.mem_singleton.1 hr] at hm
      cases hm
  · rwa [TellsSocket, hpending, hsrv] at htells

/-- Driver `d` handles a message. -/
theorem registry_drives {s : Driver.Process} {effects : List Driver.Effect} (hs : w.Registry)
    (htrip : w.trip.Sound distance own)
    (hrecv : (w.trip.world.drivers d).recv Driver.Process.up = some (s, effects))
    (hruns : s.actor.isSome = true) (hsrv : w'.srv = w.srv) (hmailbox : w'.mailbox = w.mailbox)
    (hwire : w'.wires d = w.wires d ++ Driver.notices effects)
    (hwires : ∀ x, x ≠ d → w'.wires x = w.wires x)
    (hdrivers : w'.trip.world.drivers = (w.trip.world.setDriver d s).drivers)
    (hstarts : w'.trip.world.starts = w.trip.world.starts) : w'.Registry := by
  rcases Driver.Process.recv_cases hrecv with ⟨_, _, _, _, _, _, rfl⟩ |
    ⟨a, m, rest, t, hactor, hh, rfl⟩
  · cases hruns
  · have hcalm := htrip.drivers d
    have hplain : m.isPlain own = true := hcalm.plain m (by simp [Driver.Process.mailbox, hactor])
    have hread := Driver.isRecovery_of_isPlain hplain
    have hride := Cab.busy_of_ride (hcalm.sound.actor a _ hactor)
    have hfollows := hs.follows d a _ hactor
    obtain ⟨file, hphase⟩ := hfollows.phase
    have hspeaks := hphase.speaks hread hh
    refine hs.driver _ hsrv hmailbox hwire hwires
      (fun x hx => by rw [hdrivers, World.setDriver_other _ _ hx])
      (fun x hx => started_of_actor htrip (World.recvDriver_isSome hrecv) x (hstarts ▸ hx))
      hspeaks.about ?_
    intro b box hb
    rw [hdrivers, World.setDriver_same] at hb
    obtain ⟨rfl, rfl⟩ := Prod.mk.inj (Option.some.inj hb)
    have hpending : w'.pending d =
        w.pending d ++ (Driver.notices effects).map Driver.ServerLine.toMsg := by
      rw [pending, pending, hmailbox, hwire, List.map_append, List.append_assoc]
    have hregister : ∀ r, .register r ∈ m :: rest → r.socket = t.driverSocket := fun r hr =>
      (hfollows.register r hr).trans hspeaks.driverSocket.symm
    refine ⟨⟨file.write (Driver.saves effects), ?_⟩, fun r hr => ?_, fun socket htells => ?_⟩
    · rw [told, hpending, hsrv, List.foldl_append]
      exact hphase.recv hride (Driver.follows_of_isPlain hplain) hh
    · rcases List.mem_append.1 hr with hr | hr
      · exact hregister r (List.mem_cons_of_mem m hr)
      · exact absurd hr (hspeaks.register r)
    · rw [TellsSocket, hpending, hsrv] at htells
      rcases htells with hprofile | ⟨x, hx, hsocket⟩
      · exact (hfollows.socket socket (.inl hprofile)).trans hspeaks.driverSocket.symm
      · rcases List.mem_append.1 hx with hold | hnew
        · exact (hfollows.socket socket (.inr ⟨x, hold, hsocket⟩)).trans hspeaks.driverSocket.symm
        · obtain ⟨line, hline, rfl⟩ := List.mem_map.1 hnew
          obtain ⟨r, rfl, rfl⟩ := hspeaks.socket line hline socket hsocket
          exact hregister r List.mem_cons_self

/-- Driver `d` is started for the first time. -/
theorem registry_startDriver {s : Driver.Process} {at_ : Driver.Launch} (hs : w.Registry)
    (htrip : w.trip.Sound distance own) (hfirst : w.trip.world.starts d = 0)
    (h : (w.trip.world.drivers d).step d (World.startLabel (w.trip.world.drivers d) at_) = some s)
    (hsrv : w'.srv = w.srv) (hmailbox : w'.mailbox = w.mailbox) (hwires : w'.wires = w.wires)
    (hdrivers : w'.trip.world.drivers = (w.trip.world.setDriver d s).drivers)
    (hstarts : w'.trip.world.starts =
      Function.update w.trip.world.starts d (w.trip.world.starts d + 1)) : w'.Registry := by
  rw [htrip.fresh d hfirst] at h
  obtain rfl := Option.some.inj h
  obtain ⟨hnone, hquiet⟩ := hs.unknown d hfirst
  have hpending : w'.pending d = w.pending d := by rw [pending, pending, hmailbox, hwires]
  refine hs.driver (d := d) [] hsrv hmailbox (by rw [hwires, List.append_nil])
    (fun x _ => by rw [hwires]) (fun x hx => by rw [hdrivers, World.setDriver_other _ _ hx])
    (fun x hx => ?_) (by simp) fun a box hactor => ?_
  · have hxd : x ≠ d := by
      rintro rfl
      rw [hstarts, Function.update_self] at hx
      cases hx
    rw [hstarts, Function.update_of_ne hxd] at hx
    exact ⟨hxd, hx⟩
  · rw [hdrivers, World.setDriver_same] at hactor
    obtain ⟨rfl, rfl⟩ := Prod.mk.inj (Option.some.inj hactor)
    constructor
    case phase =>
      rw [told, hpending, hsrv, ← told, hnone]
      -- nothing has been told of the driver, and it has no file
      exact ⟨.missing, .connects (.registers rfl rfl rfl rfl (by simp [StatusFile.standing])
        (by simp [Cab.Started]))⟩
    case register =>
      intro r hr
      simp only [Option.toList, List.map_nil, List.cons_append, List.nil_append, List.mem_cons,
        reduceCtorEq, Driver.Msg.register.injEq, List.not_mem_nil, or_false,
        false_or] at hr
      rw [hr]
      rfl
    case socket =>
      intro socket htells
      rw [TellsSocket, hpending, hsrv] at htells
      exact absurd htells (hquiet socket)

/-- What a step of the passenger and the drivers leaves. -/
theorem ride_eq {l : World.Label} (h : w.ride distance own name l = some w') :
    ∃ world, w.trip.world.step distance own name l = some world ∧ w' =
      { w with
        trip :=
          { world := world
            paid := w.trip.paid + Passenger.payments (w.trip.world.effects distance l)
            gaveUp := w.trip.gaveUp + (w.trip.world.givesUp distance l).toNat }
        wires := fun d => w.wires d ++ w.trip.world.notices l d
        requests := w.requests ++ Passenger.serverLines (w.trip.world.effects distance l)
        dialled := w.dialled ++ w.trip.world.contacts distance l } := by
  obtain ⟨trip, htrip, rfl⟩ := Option.map_eq_some_iff.1 h
  obtain ⟨world, hworld, rfl⟩ := Trip.step_eq htrip
  exact ⟨world, hworld, rfl⟩

/-- **The drivers stay in step** with what the leader has been told. -/
theorem registry_ride {l : World.Label} (hs : w.Registry) (htrip : w.trip.Sound distance own)
    (hok : w.trip.world.undisturbed own l = true) (hup : l.connected = true)
    (h : w.ride distance own name l = some w') (hhealthy : w'.trip.world.Healthy) :
    w'.Registry := by
  obtain ⟨world, hworld, rfl⟩ := ride_eq h
  have hsame : (∀ d o, l ≠ .drives d o) → ∀ d, w.wires d ++ w.trip.world.notices l d = w.wires d :=
    fun hl d => by
      cases l with
      | drives x o => exact absurd rfl (hl x o)
      | _ => exact List.append_nil _
  cases World.step_cases hworld with
  | handles | toPassenger => exact hs.congr rfl rfl rfl rfl (funext (hsame (by simp)))
  | notice _ hnext | answer _ hnext | gateway _ hnext =>
      obtain ⟨a, -, rfl⟩ := Option.map_eq_some_iff.1 hnext
      exact hs.congr rfl rfl rfl rfl (funext (hsame (by simp)))
  | panics =>
      exact hs.congr World.panicked_drivers.1 World.panicked_drivers.2 rfl rfl
        (funext (hsame (by simp)))
  | @toDriver _ _ line d s _ hnext =>
      refine registry_enqueue hs htrip rfl rfl (funext (hsame (by simp))) rfl rfl ?_ ?_ hnext <;>
        cases line <;> rfl
  | @foreign d m s hm hnext =>
      refine registry_enqueue hs htrip rfl rfl (funext (hsame (by simp))) rfl rfl ?_ ?_ hnext <;>
        cases m <;> first | rfl | cases hm
  | @drives d o s effects lines hrecv =>
      obtain rfl : o = Driver.Process.up := of_decide_eq_true hup
      have hstarted := World.recvDriver_isSome hrecv
      have hruns : s.actor.isSome = true := by
        have hdriver := hhealthy.drivers d fun hzero => by
          rw [htrip.fresh d hzero] at hstarted
          cases hstarted
        rwa [show _ = s from World.setDriver_same w.trip.world d s] at hdriver
      refine registry_drives hs htrip hrecv hruns rfl rfl ?_ (fun x hx => ?_) rfl rfl
      · simp only [World.notices, if_pos, hrecv, Option.elim_some]
      · simp only [World.notices, if_neg hx, List.append_nil]
  | startDriver hnext =>
      exact registry_startDriver hs htrip (of_decide_eq_true hok) hnext rfl rfl
        (funext (hsame (by simp))) rfl rfl
  | linkDies | crashPassenger | restartPassenger | crashDriver => cases hok

end Town

end ConcuRide
