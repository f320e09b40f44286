import ConcuRide.Network.Ids
import ConcuRide.Passenger.Recovery
import ConcuRide.Server.Replies

set_option autoImplicit false

/-! # Passengers and their ids

The servers and all passengers, with the `login` and `identificador` lines between them. A
passenger takes the id that the leader of its connection tells it, keeps it in its file, and reads
it back when it is started again. What it goes by is therefore always an id that some leader has
told it under its own name, and two passengers never go by the same one. -/

namespace ConcuRide

open Lib

/-! ## The answer of a leader -/

/-- A server tells an id to nobody but the passenger that logs in. -/
theorem Server.told_of_identificador {N : ℕ} {o : Oracle} {s t : Server} {m : Msg}
    {effects : List Effect} {addr : Addr} {id : ℕ} (h : s.handle N o m = some (t, effects))
    (he : .tcp addr (.identificador id) ∈ effects) :
    ∃ name, m = .passengerLogin ⟨name, addr⟩ ∧ (.passenger name, id) ∈ t.told m := by
  generalize hline : Line.identificador id = line at he
  cases handle_writes h he with
  | id e htold =>
      obtain rfl := Line.identificador.inj hline
      exact ⟨e.name, rfl, htold⟩
  | drivers | reconnects | copy => cases hline

/-- No server logs in with itself. -/
theorem Server.ne_login_of_self {N : ℕ} {o : Oracle} {s t : Server} {m x : Msg}
    {effects : List Effect} (h : s.handle N o m = some (t, effects))
    (hx : x ∈ selfMessages effects) (e : PassengerLogin) : x ≠ .passengerLogin e := by
  rintro rfl
  obtain ⟨u, hu, -⟩ := self_of_registry h hx rfl
  cases hu

/-! ## The passenger -/

namespace Passenger

/-- The names under which a handler logs in. -/
def loginNames (effects : List Effect) : List String :=
  effects.filterMap fun
    | .server (.login name) => some name
    | _ => none

/-- The state was saved by a passenger of this name that went by one of the `known` ids. -/
def SavedAs (name : String) (known : ℕ → Prop) (status : Json) : Prop :=
  ∃ p : Passenger, status = p.status ∧ p.name = name ∧ known p.info.id

/-- A message that logs in under the name, brings one of the `known` ids, or has nothing to do with
    ids. -/
def Msg.Signed (name : String) (known : ℕ → Prop) : Msg → Prop
  | .login n | .reconnect (.login n) => n = name
  | .completeLogin id => known id
  | .recover status => SavedAs name known status
  | _ => True

/-- What a handler does under the name: it stays under the name and goes by one of the `known`
    ids. -/
structure Signs (name : String) (known : ℕ → Prop) (o : Oracle) (p t : Passenger)
    (effects : List Effect) : Prop where
  named : t.name = name
  goesBy : known t.info.id
  sender : t.serverSender = p.serverSender ∨ o.server = some t.serverSender
  messages : ∀ x ∈ selfMessages effects, x.Signed name known
  logins : ∀ n ∈ loginNames effects, n = name
  saved : ∀ file status, .save file status ∈ effects →
    file = statusFile name ∧ SavedAs name known status

variable {distance : Position → Position → ℕ} {o : Oracle} {p t : Passenger} {m : Msg}
  {effects : List Effect} {name : String} {known known' : ℕ → Prop} {status : Json}

theorem SavedAs.mono (hmono : ∀ id, known id → known' id) (h : SavedAs name known status) :
    SavedAs name known' status := by
  obtain ⟨p, hp, hname, hid⟩ := h
  exact ⟨p, hp, hname, hmono _ hid⟩

theorem Msg.Signed.mono (hmono : ∀ id, known id → known' id) (h : m.Signed name known) :
    m.Signed name known' := by
  cases m with
  | completeLogin id => exact hmono id h
  | recover status => exact SavedAs.mono hmono h
  | reconnect line => cases line <;> exact h
  | _ => exact h

theorem setConnection_same (p : Passenger) (driver : Connection) :
    (p.setConnection driver).name = p.name ∧ (p.setConnection driver).info = p.info ∧
      (p.setConnection driver).serverSender = p.serverSender := by
  unfold setConnection
  split <;> exact ⟨rfl, rfl, rfl⟩

theorem sendToServer_signs (hname : p.name = name) (hid : known p.info.id) (line : ServerLine)
    (hline : ∀ n, line = .login n → n = name) :
    Signs name known o p p (p.sendToServer o.connected line) := by
  unfold sendToServer
  cases line with
  | login n =>
      obtain rfl := hline n rfl
      split <;>
        exact ⟨hname, hid, .inl rfl, by simp [selfMessages, Msg.Signed], by simp [loginNames],
          by simp⟩
  | getDrivers =>
      split <;>
        exact ⟨hname, hid, .inl rfl, by simp [selfMessages, Msg.Signed], by simp [loginNames],
          by simp⟩

/-- What is read back of a saved state keeps the name, and brings the id that was saved. -/
theorem restore_signed (hname : p.name = name) (h : SavedAs name known status) :
    (p.restore status).name = name ∧ known (p.restore status).info.id ∧
      (p.restore status).serverSender = p.serverSender := by
  obtain ⟨saved, rfl, -, hid⟩ := h
  rw [restore_status]
  exact ⟨hname, hid, rfl⟩

/-- A handler that saves nothing and keeps the connection to the leader. -/
theorem Signs.quiet (hname : t.name = name) (hid : known t.info.id)
    (hsender : t.serverSender = p.serverSender)
    (hself : ∀ x ∈ selfMessages effects, x.Signed name known) (hlogins : loginNames effects = [])
    (hsaves : ∀ file status, .save file status ∉ effects) : Signs name known o p t effects :=
  ⟨hname, hid, .inl hsender, hself, by simp [hlogins],
    fun file status h => absurd h (hsaves file status)⟩

/-- A handler that saves the state once. -/
theorem Signs.saving (q : Passenger) (hqname : q.name = name) (hqid : known q.info.id)
    (hname : t.name = name) (hid : known t.info.id) (hsender : t.serverSender = p.serverSender)
    (hself : ∀ x ∈ selfMessages effects, x.Signed name known) (hlogins : loginNames effects = [])
    (hsaves : ∀ file status, .save file status ∈ effects →
      Effect.save file status = q.saveState) : Signs name known o p t effects := by
  refine ⟨hname, hid, .inl hsender, hself, by simp [hlogins], fun file status h => ?_⟩
  have heq := hsaves file status h
  rw [saveState_eq, hqname] at heq
  obtain ⟨rfl, rfl⟩ := Effect.save.inj heq
  exact ⟨rfl, q, rfl, hqname, hqid⟩

/-- A handler that saves the state it leaves. -/
theorem Signs.savingNew (hname : t.name = name) (hid : known t.info.id)
    (hsender : t.serverSender = p.serverSender)
    (hself : ∀ x ∈ selfMessages effects, x.Signed name known) (hlogins : loginNames effects = [])
    (hsaves : ∀ file status, .save file status ∈ effects →
      Effect.save file status = t.saveState) : Signs name known o p t effects :=
  .saving t hname hid hname hid hsender hself hlogins hsaves

/-- **Every handler keeps the name and a known id.** -/
theorem handle_signs (h : p.handle distance o m = some (t, effects)) (hname : p.name = name)
    (hid : known p.info.id) (hm : m.Signed name known) : Signs name known o p t effects := by
  cases handle_outcome h with
  | setReceiver | driverArrived | requestDrive | keepLooking | rideEnded | rideGoesOn | rideWaits
  | noServer | noDriver =>
      exact .quiet hname hid rfl (by simp [selfMessages, finishRide, Msg.Signed])
        (by simp [loginNames, finishRide]) (by simp [finishRide])
  | getDrivers => exact sendToServer_signs hname hid _ (by simp)
  | login n =>
      refine sendToServer_signs hname hid _ fun n' hn => ?_
      obtain rfl := ServerLine.login.inj hn
      exact hm
  | nobody driversInfo | unreachable driversInfo =>
      exact .saving { p with driversInfo := driversInfo } hname hid hname hid rfl
        (by simp [selfMessages, saveState, Msg.Signed]) (by simp [loginNames, saveState])
        (by simp [eq_comm])
  | dials driversInfo others driver number =>
      have hsame := setConnection_same { p with driversInfo := others } ⟨driver.socket, number⟩
      exact .saving { p with driversInfo := driversInfo } hname hid (hsame.1.trans hname)
        (hsame.2.1 ▸ hid) hsame.2.2
        (by simp [selfMessages, saveState]) (by simp [loginNames, saveState]) (by simp [eq_comm])
  | travels | arrives =>
      exact .saving p hname hid hname hid rfl
        (by simp [selfMessages, saveState, finishRide, Msg.Signed])
        (by simp [loginNames, saveState, finishRide]) (by simp [finishRide, eq_comm])
  | completeLogin id =>
      exact .quiet hname hm rfl (by simp [selfMessages]) rfl (by simp)
  | rideAccepted | paymentAuthorized | paymentDeny =>
      exact .savingNew hname hid rfl (by simp [selfMessages, saveState, Msg.Signed])
        (by simp [loginNames, saveState]) (by simp [eq_comm])
  | newServer line number hserver =>
      refine ⟨hname, hid, .inr hserver, by simp [selfMessages], ?_, by simp⟩
      cases line with
      | login n =>
          obtain rfl : n = name := hm
          simp [loginNames]
      | getDrivers => simp [loginNames]
  | newDriver socket number =>
      have hsame := setConnection_same p ⟨socket, number⟩
      exact .quiet (hsame.1.trans hname) (hsame.2.1 ▸ hid) hsame.2.2 (by simp [selfMessages]) rfl
        (by simp)
  | recoversPaid status | recoversDenied status | recoversRide status | recoversAlone status =>
      obtain ⟨hname', hid', hsender'⟩ := restore_signed hname hm
      exact .quiet hname' hid' hsender' (by simp [selfMessages, Msg.Signed, hname']) rfl (by simp)

namespace Process

/-- The `login` lines that the next handler writes, with their connection. -/
def loginLines (distance : Position → Position → ℕ) (o : Oracle) (s : Process) :
    List (ℕ × String) :=
  match s.actor with
  | some (p, m :: _) =>
    (p.handle distance o m).elim [] fun r => (loginNames r.2).map fun n => (r.1.serverSender, n)
  | _ => []

/-- The next handler gets the connection it asks `connect_to_server_leader` for, a new one. -/
def mayDial (isNew : ℕ → Bool) (o : Oracle) (s : Process) : Bool :=
  match s.actor with
  | some (_, .reconnect _ :: _) => o.server.all isNew
  | _ => o.server.isNone

/-- The program is started without the recovery flag, whatever an earlier start has saved. -/
def launch (name : String) (position destination : Position) (serverSender : ℕ) (s : Process) :
    Process :=
  { s with actor := (start name position destination serverSender).actor }

/-- The process goes by its name, its connections and one of the `known` ids. -/
structure SignedAs (name : String) (known opened : ℕ → Prop) (s : Process) : Prop where
  actor : ∀ p mailbox, s.actor = some (p, mailbox) →
    p.name = name ∧ known p.info.id ∧ opened p.serverSender ∧ ∀ m ∈ mailbox, m.Signed name known
  file : ∀ status, s.files (statusFile name) = some status → SavedAs name known status

variable {s s' : Process} {opened opened' : ℕ → Prop} {new : List Msg}

theorem SignedAs.mono (hknown : ∀ id, known id → known' id) (hopened : ∀ n, opened n → opened' n)
    (h : s.SignedAs name known opened) : s.SignedAs name known' opened' where
  actor := fun p mailbox hactor => by
    obtain ⟨hname, hid, hsender, hbox⟩ := h.actor p mailbox hactor
    exact ⟨hname, hknown _ hid, hopened _ hsender, fun m hm => (hbox m hm).mono hknown⟩
  file := fun status hstatus => (h.file status hstatus).mono hknown

theorem SignedAs.enqueue (h : s.SignedAs name known opened) (hnew : ∀ m ∈ new, m.Signed name known)
    (hs' : s.enqueue new = some s') : s'.SignedAs name known opened := by
  obtain ⟨⟨p, mailbox⟩, hactor, rfl⟩ := Option.map_eq_some_iff.1 hs'
  refine ⟨fun p' mailbox' hactor' => ?_, h.file⟩
  obtain ⟨rfl, rfl⟩ := Prod.mk.inj (Option.some.inj hactor')
  obtain ⟨hname, hid, hsender, hbox⟩ := h.actor p mailbox hactor
  exact ⟨hname, hid, hsender, List.forall_mem_append.2 ⟨hbox, hnew⟩⟩

theorem SignedAs.stop (h : s.SignedAs name known opened) (hactor : s'.actor = none)
    (hfiles : s'.files = s.files) : s'.SignedAs name known opened where
  actor := fun p mailbox hactor' => by
    rw [hactor] at hactor'
    cases hactor'
  file := hfiles ▸ h.file

/-- **A handler goes on under the name**, and logs in under it. -/
theorem SignedAs.recv (h : s.SignedAs name known opened)
    (hserver : ∀ k, o.server = some k → opened k) (hs' : s.recv distance o = some s') :
    s'.SignedAs name known opened ∧
      ∀ l ∈ s.loginLines distance o, opened l.1 ∧ l.2 = name := by
  unfold Process.recv at hs'
  split at hs'
  · cases hs'
  · cases hs'
  · next p m rest hactor =>
      obtain ⟨hname, hid, hsender, hbox⟩ := h.actor p _ hactor
      split at hs'
      · next hh =>
          obtain rfl := Option.some.inj hs'
          refine ⟨⟨fun p' mailbox hactor' => (by cases hactor'), fun status hstatus => ?_⟩, ?_⟩
          · rcases saveFiles_cases s.files (savedBeforePanic p m) (statusFile name) with
              ⟨heq, -⟩ | ⟨status', hmem, heq⟩
            · exact h.file status (heq ▸ hstatus)
            · obtain rfl := Option.some.inj (heq.symm.trans hstatus)
              cases m with
              | traveling =>
                  have heq := List.mem_singleton.1 hmem
                  rw [saveState_eq] at heq
                  exact ⟨p, (Effect.save.inj heq).2, hname, hid⟩
              | _ => cases hmem
          · simp [loginLines, hactor, hh]
      · next t effects hh =>
          obtain rfl := Option.some.inj hs'
          have hsigns := handle_signs hh hname hid (hbox m List.mem_cons_self)
          have hsender' : opened t.serverSender := by
            rcases hsigns.sender with heq | hnew
            · exact heq ▸ hsender
            · exact hserver _ hnew
          refine ⟨⟨fun p' mailbox hactor' => ?_, fun status hstatus => ?_⟩, fun l hl => ?_⟩
          · obtain ⟨rfl, rfl⟩ := Prod.mk.inj (Option.some.inj hactor')
            exact ⟨hsigns.named, hsigns.goesBy, hsender', List.forall_mem_append.2
              ⟨fun x hx => hbox x (List.mem_cons_of_mem m hx), hsigns.messages⟩⟩
          · rcases saveFiles_cases s.files effects (statusFile name) with
              ⟨heq, -⟩ | ⟨status', hmem, heq⟩
            · exact h.file status (heq ▸ hstatus)
            · obtain rfl := Option.some.inj (heq.symm.trans hstatus)
              exact (hsigns.saved _ _ hmem).2
          · simp only [loginLines, hactor, hh, Option.elim_some] at hl
            obtain ⟨n, hn, rfl⟩ := List.mem_map.1 hl
            exact ⟨hsender', hsigns.logins n hn⟩

/-- What `main` starts goes by the id 0 until it has read its file. -/
theorem SignedAs.started {p : Passenger} {mailbox : List Msg} (h : s.SignedAs name known opened)
    (hfiles : s'.files = s.files) (hactor : s'.actor = some (p, mailbox)) (hname : p.name = name)
    (hid : known p.info.id) (hsender : opened p.serverSender)
    (hbox : ∀ m ∈ mailbox, m.Signed name known) : s'.SignedAs name known opened where
  actor := fun p' mailbox' hactor' => by
    obtain ⟨rfl, rfl⟩ := Prod.mk.inj (Option.some.inj (hactor.symm.trans hactor'))
    exact ⟨hname, hid, hsender, hbox⟩
  file := hfiles ▸ h.file

theorem SignedAs.restarted (h : s.SignedAs name known opened) (hzero : known 0) {k : ℕ}
    (hk : opened k) (position destination : Position) :
    (s.restart name position destination k).SignedAs name known opened := by
  refine h.started rfl rfl rfl hzero hk ?_
  cases hfile : s.files (statusFile name) with
  | none => simp [Msg.Signed]
  | some status => simpa [Msg.Signed] using h.file status hfile

theorem SignedAs.launched (h : s.SignedAs name known opened) (hzero : known 0) {k : ℕ}
    (hk : opened k) (position destination : Position) :
    (s.launch name position destination k).SignedAs name known opened :=
  h.started rfl rfl rfl hzero hk (by simp [Msg.Signed])

end Process

end Passenger

/-! ## Servers and passengers -/

/-- The servers with their ledger, the passengers by name, and the lines of their logins. -/
structure Lobby where
  books : Books
  passengers : String → Passenger.Process
  /-- how often each passenger was started -/
  starts : String → ℕ
  /-- which start of which passenger has opened a connection -/
  routes : ℕ → Option (String × ℕ)
  /-- the `login` lines on their way to the servers, with their connections -/
  logins : List (ℕ × String)
  /-- the `identificador` lines on their way to passengers, with their connections -/
  ids : List (ℕ × ℕ)

namespace Lobby

inductive Label where
  /-- a step of the servers in which no login arrives -/
  | server (l : ConcuRide.Label)
  /-- passenger `x` handles the next message of its mailbox -/
  | handles (x : String) (o : Passenger.Oracle)
  /-- a line that brings no id arrives at passenger `x` -/
  | line (x : String) (m : Passenger.Msg)
  | gateway (x : String) (isAuthorized : Bool)
  | crash (x : String)
  /-- passenger `x` is started, connected by `k` -/
  | launch (x : String) (position destination : Position) (k : ℕ)
  /-- passenger `x` is started with the recovery flag -/
  | restart (x : String) (position destination : Position) (k : ℕ)
  /-- the `i`-th `login` line arrives at server `s` -/
  | loginArrives (i s : ℕ)
  | loginLost (i : ℕ)
  /-- the `i`-th `identificador` line arrives -/
  | idArrives (i : ℕ)
  | idLost (i : ℕ)

/-- No passenger runs. -/
def init (N l : ℕ) : Lobby where
  books := Books.start N l
  passengers := fun _ => { actor := none, files := fun _ => none, log := [] }
  starts := fun _ => 0
  routes := fun _ => none
  logins := []
  ids := []

/-- The id an effect tells a passenger, with the connection. -/
def idLine : Effect → Option (ℕ × ℕ)
  | .tcp (.client n) (.identificador id) => some (n, id)
  | _ => none

/-- The `identificador` lines that a step of the servers writes. -/
def idLines (N : ℕ) (net : Net) : ConcuRide.Label → List (ℕ × ℕ)
  | .recv s o =>
    match net.srv s, net.mailbox s with
    | some srv, m :: _ => (srv.handle N o m).elim [] fun r => r.2.filterMap idLine
    | _, _ => []
  | _ => []

def isLogin : ConcuRide.Label → Bool
  | .post _ (.passengerLogin _) => true
  | _ => false

def bringsId : Passenger.Msg → Bool
  | .completeLogin _ => true
  | _ => false

variable (distance : Position → Position → ℕ) (w : Lobby)

def setPassenger (x : String) (s : Passenger.Process) : Lobby :=
  { w with passengers := Function.update w.passengers x s }

/-- Passenger `x` is started as `s`. -/
def starting (x : String) (k : ℕ) (s : Passenger.Process) : Lobby :=
  { w.setPassenger x s with
    starts := Function.update w.starts x (w.starts x + 1)
    routes := Function.update w.routes k (some (x, w.starts x + 1)) }

/-- Passenger `x` has become `s`, with the connection it has opened and the lines it has
    written. -/
def handled (x : String) (o : Passenger.Oracle) (s : Passenger.Process) : Lobby :=
  { w.setPassenger x s with
    routes := o.server.elim w.routes fun k => Function.update w.routes k (some (x, w.starts x))
    logins := w.logins ++ (w.passengers x).loginLines distance o }

/-- The world after a step, if the step is possible. -/
def step (N : ℕ) (w : Lobby) : Label → Option Lobby
  | .server l =>
    if isLogin l then none
    else (w.books.step N l).map fun b =>
      { w with books := b, ids := w.ids ++ idLines N w.books.net l }
  | .handles x o =>
    if (w.passengers x).mayDial (fun k => (w.routes k).isNone) o then
      ((w.passengers x).recv distance o).map (w.handled distance x o)
    else none
  | .line x m =>
    if bringsId m then none
    else ((w.passengers x).step distance x (.line m)).map (w.setPassenger x)
  | .gateway x isAuthorized =>
    ((w.passengers x).step distance x (.gateway isAuthorized)).map (w.setPassenger x)
  | .crash x => ((w.passengers x).step distance x .crash).map (w.setPassenger x)
  | .launch x position destination k =>
    if (w.passengers x).actor.isNone && (w.routes k).isNone then
      some (w.starting x k ((w.passengers x).launch x position destination k))
    else none
  | .restart x position destination k =>
    if (w.passengers x).actor.isNone && (w.routes k).isNone then
      some (w.starting x k ((w.passengers x).restart x position destination k))
    else none
  | .loginArrives i s => do
    let (n, name) ← w.logins[i]?
    let b ← w.books.step N (.post s (.passengerLogin ⟨name, .client n⟩))
    return { w with books := b, logins := w.logins.eraseIdx i }
  | .loginLost i =>
    if i < w.logins.length then some { w with logins := w.logins.eraseIdx i } else none
  | .idArrives i => do
    let (n, id) ← w.ids[i]?
    let (x, k) ← w.routes n
    if k = w.starts x then
      let s ← (w.passengers x).enqueue [.completeLogin id]
      return { w.setPassenger x s with ids := w.ids.eraseIdx i }
    else none
  | .idLost i => if i < w.ids.length then some { w with ids := w.ids.eraseIdx i } else none

/-- A leader has told passenger `x` this id, or it is the one a passenger starts with. -/
def Known (x : String) (id : ℕ) : Prop := id = 0 ∨ (.passenger x, id) ∈ w.books.ledger

/-- Passenger `x` has opened this connection. -/
def Opened (x : String) (n : ℕ) : Prop := ∃ k, w.routes n = some (x, k)

/-- The invariant: every login, on its way or in a mailbox, is sent under the name of the passenger
    whose connection it comes on, every id on its way was told to the passenger at the other end,
    and every passenger goes by its name and an id it was told. -/
structure Sound (N : ℕ) (w : Lobby) : Prop where
  net : Net.Valid N w.books.net
  ledger : w.books.IdsOk
  queued : ∀ s name n, w.books.net.Queued s (.passengerLogin ⟨name, .client n⟩) → w.Opened name n
  logins : ∀ l ∈ w.logins, w.Opened l.2 l.1
  ids : ∀ l ∈ w.ids, ∃ x, w.Opened x l.1 ∧ (.passenger x, l.2) ∈ w.books.ledger
  passengers : ∀ x, (w.passengers x).SignedAs x (w.Known x) (w.Opened x)

variable {distance w} {N i : ℕ} {w' : Lobby} {b b' : Books} {l : ConcuRide.Label} {x : String}
  {s : Passenger.Process} {o : Passenger.Oracle} {k : ℕ}

/-! ### Steps of the servers -/

/-- An id that is written is in the ledger, under the name on the login. -/
theorem told_of_idLine (hstep : b.step N l = some b') {n id : ℕ} (h : (n, id) ∈ idLines N b.net l) :
    ∃ s name, b.net.Queued s (.passengerLogin ⟨name, .client n⟩) ∧
      (.passenger name, id) ∈ b'.ledger := by
  obtain ⟨net', hnet, rfl⟩ := Option.map_eq_some_iff.1 hstep
  cases l with
  | recv s o =>
      simp only [idLines] at h
      split at h
      · next srv m rest hsrv hbox =>
          cases hh : srv.handle N o m with
          | none => simp [hh] at h
          | some r =>
              obtain ⟨t, effects⟩ := r
              rw [hh, Option.elim_some] at h
              obtain ⟨effect, he, hline⟩ := List.mem_filterMap.1 h
              unfold idLine at hline
              split at hline
              · next n' id' =>
                  obtain ⟨rfl, rfl⟩ := Prod.mk.inj (Option.some.inj hline)
                  obtain ⟨name, rfl, htold⟩ := Server.told_of_identificador hh he
                  refine ⟨s, name, by rw [Net.Queued, hbox]; exact List.mem_cons_self, ?_⟩
                  obtain ⟨p, hp, rfl⟩ := Net.srv_eq_some.1 hsrv
                  have hpbox := (Net.mailbox_of_procs hp).symm.trans hbox
                  have hafter : net'.srv s = some t := by
                    cases Net.step_cases hnet with
                    | recv hp' hbox' hans hh' =>
                        obtain rfl := Option.some.inj (hp.symm.trans hp')
                        obtain ⟨rfl, rfl⟩ := List.cons.inj (hpbox.symm.trans hbox')
                        obtain ⟨rfl, rfl⟩ := Prod.mk.inj (Option.some.inj (hh.symm.trans hh'))
                        rw [Net.srv_handled, if_pos rfl]
                    | panic hp' hbox' hh' =>
                        obtain rfl := Option.some.inj (hp.symm.trans hp')
                        obtain ⟨rfl, rfl⟩ := List.cons.inj (hpbox.symm.trans hbox')
                        cases hh.symm.trans hh'
                  refine List.mem_append_left _ ?_
                  simp only [Books.told, hbox, hafter]
                  exact htold
              · cases hline
      · cases h
  | _ => cases h

/-- A login in a mailbox was there before, or has arrived now. -/
theorem login_queued (hstep : b.step N l = some b') {s : ℕ} {e : PassengerLogin}
    (h : b'.net.Queued s (.passengerLogin e)) :
    b.net.Queued s (.passengerLogin e) ∨ l = .post s (.passengerLogin e) := by
  obtain ⟨net', hnet, rfl⟩ := Option.map_eq_some_iff.1 hstep
  rcases (Net.step_cases hnet).queued_cases h with
    hold | hnew | ⟨o, before, m, after, effects, -, hr, hx⟩
  · exact .inl hold
  · generalize hx : Msg.passengerLogin e = y at hnew
    cases hnew with
    | posted => exact .inr rfl
    | @msg _ _ m _ hmsg => cases m <;> cases hx.trans hmsg
    | _ => cases hx
  · exact absurd rfl (Server.ne_login_of_self hr.result hx e)

theorem sound_books (hs : w.Sound N) (hcrash : w.books.afterCrash N l = true)
    (hdate : w.books.upToDate l = true) (hstep : w.books.step N l = some b)
    (hposted : ∀ s name n, l = .post s (.passengerLogin ⟨name, .client n⟩) → w.Opened name n) :
    Sound N { w with books := b, ids := w.ids ++ idLines N w.books.net l } := by
  obtain ⟨hnet, hledger⟩ := Books.idsOk_step hs.net hs.ledger hcrash hdate hstep
  have hgrows : ∀ g ∈ w.books.ledger, g ∈ b.ledger := by
    obtain ⟨net', -, rfl⟩ := Option.map_eq_some_iff.1 hstep
    exact fun g hg => List.mem_append_right _ hg
  constructor
  case net => exact hnet
  case ledger => exact hledger
  case queued =>
    intro s name n hq
    rcases login_queued hstep hq with hold | hnew
    · exact hs.queued s name n hold
    · exact hposted s name n hnew
  case logins => exact hs.logins
  case ids =>
    refine List.forall_mem_append.2 ⟨fun line hline => ?_, fun line hline => ?_⟩
    · obtain ⟨x, hopened, htold⟩ := hs.ids line hline
      exact ⟨x, hopened, hgrows _ htold⟩
    · obtain ⟨s, name, hq, htold⟩ := told_of_idLine hstep hline
      exact ⟨name, hs.queued s name _ hq, htold⟩
  case passengers =>
    intro x
    exact (hs.passengers x).mono (fun _ hid => hid.imp_right (hgrows _)) fun _ hn => hn

/-! ### Steps of a passenger -/

/-- A step of one passenger, which may open connections and write `login` lines. -/
theorem Sound.passenger (hs : w.Sound N) (hbooks : w'.books = w.books) (hids : w'.ids = w.ids)
    (hroutes : ∀ y n, w.Opened y n → w'.Opened y n)
    (hothers : ∀ y, y ≠ x → w'.passengers y = w.passengers y)
    (hsigned : (w'.passengers x).SignedAs x (w'.Known x) (w'.Opened x))
    (hlogins : ∀ l ∈ w'.logins, l ∈ w.logins ∨ w'.Opened l.2 l.1) : w'.Sound N where
  net := hbooks ▸ hs.net
  ledger := hbooks ▸ hs.ledger
  queued := fun s name n hq => hroutes _ _ (hs.queued s name n (hbooks ▸ hq))
  logins := fun l hl => (hlogins l hl).elim (fun hold => hroutes _ _ (hs.logins l hold)) id
  ids := fun l hl => by
    obtain ⟨y, hopened, htold⟩ := hs.ids l (hids ▸ hl)
    exact ⟨y, hroutes _ _ hopened, hbooks ▸ htold⟩
  passengers := fun y => by
    by_cases hy : y = x
    · exact hy ▸ hsigned
    · rw [hothers y hy]
      refine (hs.passengers y).mono (fun id hid => ?_) (hroutes y)
      unfold Known
      rwa [hbooks]

theorem setPassenger_same : (w.setPassenger x s).passengers x = s := Function.update_self ..

theorem setPassenger_other {y : String} (hy : y ≠ x) :
    (w.setPassenger x s).passengers y = w.passengers y := Function.update_of_ne hy ..

theorem sound_setPassenger (hs : w.Sound N) (hsigned : s.SignedAs x (w.Known x) (w.Opened x)) :
    (w.setPassenger x s).Sound N :=
  hs.passenger rfl rfl (fun _ _ h => h) (fun _ hy => setPassenger_other hy)
    (setPassenger_same.symm ▸ hsigned) fun _ hl => .inl hl

/-- A connection that is opened now was not open before. -/
theorem opened_update (hk : w.routes k = none) {start : ℕ} {y : String} {n : ℕ}
    (hn : w.Opened y n) : ∃ j, Function.update w.routes k (some (x, start)) n = some (y, j) := by
  obtain ⟨j, hj⟩ := hn
  refine ⟨j, ?_⟩
  rw [Function.update_of_ne]
  · exact hj
  · rintro rfl
    rw [hk] at hj
    cases hj

theorem sound_starting (hs : w.Sound N) (hk : w.routes k = none)
    (hsigned : ∀ opened : ℕ → Prop, opened k → (∀ n, w.Opened x n → opened n) →
      s.SignedAs x (w.Known x) opened) : (w.starting x k s).Sound N := by
  refine hs.passenger rfl rfl (fun y n hn => opened_update hk hn)
    (fun _ hy => setPassenger_other hy) ?_ fun _ hl => .inl hl
  show ((w.setPassenger x s).passengers x).SignedAs x _ _
  rw [setPassenger_same]
  exact hsigned _ ⟨_, Function.update_self ..⟩ fun n hn => opened_update hk hn

/-- The connection that a handler gets is a new one. -/
theorem isNew_of_mayDial {isNew : ℕ → Bool} (h : s.mayDial isNew o = true)
    (ho : o.server = some k) : isNew k = true := by
  unfold Passenger.Process.mayDial at h
  split at h
  · simpa [ho] using h
  · simp [ho] at h

theorem sound_handled (hs : w.Sound N)
    (hdial : (w.passengers x).mayDial (fun k => (w.routes k).isNone) o = true)
    (hrecv : (w.passengers x).recv distance o = some s) :
    (w.handled distance x o s).Sound N := by
  have hroutes : ∀ y n, w.Opened y n → (w.handled distance x o s).Opened y n := by
    intro y n hn
    cases hserver : o.server with
    | none =>
        simp only [Opened, handled, hserver, Option.elim_none]
        exact hn
    | some k =>
        simp only [Opened, handled, hserver, Option.elim_some]
        exact opened_update (Option.isNone_iff_eq_none.1 (isNew_of_mayDial hdial hserver)) hn
  have hserver : ∀ k, o.server = some k → (w.handled distance x o s).Opened x k := by
    intro k hk
    simp only [Opened, handled, hk, Option.elim_some]
    exact ⟨_, Function.update_self ..⟩
  obtain ⟨hsigned, hlines⟩ :=
    ((hs.passengers x).mono (fun _ h => h) (hroutes x)).recv hserver hrecv
  refine hs.passenger rfl rfl hroutes (fun _ hy => setPassenger_other hy) ?_ fun l hl => ?_
  · show ((w.setPassenger x s).passengers x).SignedAs x _ _
    rw [setPassenger_same]
    exact hsigned
  · rcases List.mem_append.1 hl with hold | hnew
    · exact .inl hold
    · obtain ⟨hopened, hname⟩ := hlines l hnew
      exact .inr (hname ▸ hopened)

/-! ### Runs -/

/-- The condition on the steps of the servers under which ids stay distinct. -/
def idsKept (N : ℕ) (w : Lobby) : Label → Bool
  | .server l => w.books.afterCrash N l && w.books.upToDate l
  | _ => true

theorem sound_step {l : Label} (hs : w.Sound N) (hok : w.idsKept N l = true)
    (h : step distance N w l = some w') : w'.Sound N := by
  cases l with
  | server l =>
      simp only [idsKept, Bool.and_eq_true] at hok
      simp only [step] at h
      split at h
      · cases h
      · next hlogin =>
          obtain ⟨b, hb, rfl⟩ := Option.map_eq_some_iff.1 h
          refine sound_books hs hok.1 hok.2 hb fun s name n hl => ?_
          rw [hl] at hlogin
          exact absurd rfl hlogin
  | handles x o =>
      simp only [step] at h
      split at h
      · next hdial =>
          obtain ⟨s, hrecv, rfl⟩ := Option.map_eq_some_iff.1 h
          exact sound_handled hs hdial hrecv
      · cases h
  | line x m =>
      simp only [step] at h
      split at h
      · cases h
      · next hm =>
          obtain ⟨s, hs', rfl⟩ := Option.map_eq_some_iff.1 h
          refine sound_setPassenger hs ?_
          simp only [Passenger.Process.step] at hs'
          split at hs'
          · next hline =>
              refine (hs.passengers x).enqueue (List.forall_mem_singleton.2 ?_) hs'
              cases m with
              | completeLogin => exact absurd rfl hm
              | login | reconnect | recover => cases hline
              | _ => trivial
          · cases hs'
  | gateway x isAuthorized =>
      obtain ⟨s, hs', rfl⟩ := Option.map_eq_some_iff.1 h
      refine sound_setPassenger hs ((hs.passengers x).enqueue ?_ hs')
      cases isAuthorized <;> simp [Passenger.paymentAuthorizationStatus, Passenger.Msg.Signed]
  | crash x =>
      obtain ⟨s, hs', rfl⟩ := Option.map_eq_some_iff.1 h
      refine sound_setPassenger hs ?_
      simp only [Passenger.Process.step] at hs'
      split at hs'
      · obtain rfl := Option.some.inj hs'
        exact (hs.passengers x).stop rfl rfl
      · cases hs'
  | launch x position destination k | restart x position destination k =>
      simp only [step, Bool.and_eq_true, Option.isNone_iff_eq_none] at h
      split at h
      · next hfree =>
          obtain rfl := Option.some.inj h
          refine sound_starting hs hfree.2 fun opened hk hopened => ?_
          have hsigned := (hs.passengers x).mono (fun _ h => h) hopened
          first
            | exact hsigned.launched (.inl rfl) hk position destination
            | exact hsigned.restarted (.inl rfl) hk position destination
      · cases h
  | loginArrives i s =>
      simp only [step, Option.bind_eq_bind, Option.bind_eq_some_iff] at h
      obtain ⟨⟨n, name⟩, hline, b, hb, h⟩ := h
      obtain rfl := Option.some.inj h
      have hopened := hs.logins _ (List.mem_of_getElem? hline)
      have hposted : ∀ s' name' n',
          ConcuRide.Label.post s (.passengerLogin ⟨name, .client n⟩) =
            .post s' (.passengerLogin ⟨name', .client n'⟩) → w.Opened name' n' := by
        intro s' name' n' hl
        obtain ⟨-, hmsg⟩ := ConcuRide.Label.post.inj hl
        obtain ⟨rfl, haddr⟩ := PassengerLogin.mk.inj (Msg.passengerLogin.inj hmsg)
        obtain rfl := Addr.client.inj haddr
        exact hopened
      have hsound := sound_books hs rfl rfl hb hposted
      exact { hsound with
        logins := fun l hl => hs.logins l (List.mem_of_mem_eraseIdx hl)
        ids := fun l hl => hsound.ids l (List.mem_append_left _ hl) }
  | loginLost i =>
      simp only [step] at h
      split at h
      · obtain rfl := Option.some.inj h
        exact { hs with logins := fun l hl => hs.logins l (List.mem_of_mem_eraseIdx hl) }
      · cases h
  | idArrives i =>
      simp only [step, Option.bind_eq_bind, Option.bind_eq_some_iff] at h
      obtain ⟨⟨n, id⟩, hline, ⟨x, k⟩, hroute, h⟩ := h
      split at h
      · obtain ⟨s, hs', h⟩ := Option.bind_eq_some_iff.1 h
        obtain rfl := Option.some.inj h
        obtain ⟨y, ⟨j, hy⟩, htold⟩ := hs.ids _ (List.mem_of_getElem? hline)
        obtain ⟨rfl, -⟩ := Prod.mk.inj (Option.some.inj (hy.symm.trans hroute))
        have hknown : (Passenger.Msg.completeLogin id).Signed y (w.Known y) :=
          Or.inr (a := id = 0) htold
        have hsigned := (hs.passengers y).enqueue (List.forall_mem_singleton.2 hknown) hs'
        have hsound := sound_setPassenger hs hsigned
        exact { hsound with ids := fun l hl => hs.ids l (List.mem_of_mem_eraseIdx hl) }
      · cases h
  | idLost i =>
      simp only [step] at h
      split at h
      · obtain rfl := Option.some.inj h
        exact { hs with ids := fun l hl => hs.ids l (List.mem_of_mem_eraseIdx hl) }
      · cases h

theorem sound_init (hi : i ∈ ring N) : (init N i).Sound N where
  net := Net.valid_start hi
  ledger := Books.idsOk_start i
  queued := fun _ _ _ hq => absurd hq Net.not_queued_start
  logins := fun l hl => by cases hl
  ids := fun l hl => by cases hl
  passengers := fun _ => ⟨fun _ _ h => (by cases h), fun _ h => by cases h⟩

/-- **No two passengers go by the same id.** In every run of the servers and the passengers, with
    any crashes and restarts of both, in which the servers keep ids distinct, every running
    passenger goes by its own name and by no id or an id that a leader has told it, and two
    passengers that have an id have different ones; the same holds of the ids in their files, and no
    driver was told any of them. -/
theorem passengers_go_by_their_ids {ls : List Label} (hi : i ∈ ring N)
    (h : Run (step distance N) (fun w l => w.idsKept N l = true) (init N i) ls w) :
    (∀ x p mailbox, (w.passengers x).actor = some (p, mailbox) → p.name = x ∧ w.Known x p.info.id) ∧
      (∀ x status, (w.passengers x).files (Passenger.statusFile x) = some status →
        Passenger.SavedAs x (w.Known x) status) ∧
      (∀ x y id, x ≠ y → w.Known x id → w.Known y id → id = 0) ∧
      ∀ x d id, w.Known x id → (.driver d, id) ∈ w.books.ledger → id = 0 := by
  have hs : w.Sound N := h.invariant (fun _ _ _ hs hok hst => sound_step hs hok hst) (sound_init hi)
  refine ⟨fun x p mailbox hactor => ?_, fun x => (hs.passengers x).file, fun x y id hne hx hy => ?_,
    fun x d id hx hd => ?_⟩
  · obtain ⟨hname, hid, -⟩ := (hs.passengers x).actor p mailbox hactor
    exact ⟨hname, hid⟩
  · rcases hx with hzero | hx
    · exact hzero
    · rcases hy with hzero | hy
      · exact hzero
      · have heq := hs.ledger.distinct _ _ _ hx hy
        exact absurd (Client.passenger.inj heq) hne
  · rcases hx with hzero | hx
    · exact hzero
    · cases hs.ledger.distinct _ _ _ hx hd

/-- Passenger `x`, connected by `n`, logs in with leader `s`. -/
def logsIn (x : String) (n s : ℕ) : List Label :=
  [.launch x (1, 1) (3, 2) n, .handles x .up, .handles x .up, .loginArrives 0 s,
    .server (.recv s .up), .idArrives 0, .handles x .up, .handles x .up]

/-- Passenger "peach" logs in with leader 1, which crashes after the replica 2 has its copy, and
    "pepe" logs in with leader 2. -/
def failover : List Label :=
  [.server (.boot 2), .server (.dial 2), .server (.recv 2 .up)] ++ logsIn "peach" 0 1 ++
    Books.copyToReplica.map .server ++
    [.server (.crash 1), .server (.post 2 .ping), .server (.recv 2 .down), .server (.recv 2 .up),
      .server (.recv 2 .up)] ++ logsIn "pepe" 1 2

theorem passengers_go_by_their_ids_failover : ∃ w : Lobby,
    (∀ x y id, x ≠ y → w.Known x id → w.Known y id → id = 0) ∧
      ["peach", "pepe"].map (fun x => (w.passengers x).actor.map fun a => a.1.info.id) =
        [some 1, some 2] := by
  obtain ⟨w, hrun, hids⟩ := exists_run_of_exec (idsKept 2) (init 2 1) failover
    (fun w => decide (["peach", "pepe"].map (fun x => (w.passengers x).actor.map fun a =>
      a.1.info.id) = [some 1, some 2]))
    (show (exec (step (fun _ _ => 0) 2) _ _ _).any _ = true by decide +kernel)
  exact ⟨w, (passengers_go_by_their_ids (by decide) hrun).2.2.1, of_decide_eq_true hids⟩

end Lobby

end ConcuRide
