import ConcuRide.Driver.Outcome

set_option autoImplicit false

/-! # What a handler of the driver can do

`Driver.Handled` lists what handling a message can do to the connection of a driver with the leader
and to what it tells the leader; the ride itself only matters through the lines it leads to. -/

namespace ConcuRide.Driver

/-- What a handler sends to the mailbox of its driver. -/
def selfMessages (effects : List Effect) : List Msg :=
  effects.filterMap fun
    | .trySend m => some m
    | _ => none

/-- The lines a handler sends to servers. -/
def serverLines (effects : List Effect) : List (Link × ServerLine) :=
  effects.filterMap fun
    | .server link line => some (link, line)
    | _ => none

def Msg.isReconnect : Msg → Bool
  | .reconnect _ => true
  | _ => false

/-- The messages only `main` sends. -/
def Msg.isStartUp : Msg → Bool
  | .setReceiver _ | .register _ | .recovery _ _ => true
  | _ => false

/-- The driver tells the leader something new when it handles `m`. -/
def tells (d : Driver) : Msg → Bool
  | .register _ | .endRide _ => true
  | .requestRide _ => d.isAvailable
  | _ => false

/-- A line that says its driver is busy. -/
def ServerLine.isBusy : ServerLine → Bool
  | .busyDriver _ => true
  | _ => false

/-- A line about the state of driver `name`. -/
def ServerLine.About (name : String) : ServerLine → Prop
  | .newDriver _ name' _ | .busyDriver name' | .availableDriver name' _ => name' = name
  | .reconnectDriver _ _ _ => False

/-- What a driver sends itself when it has told the leader `line`. -/
def resend (d : Driver) (o : Oracle) (line : ServerLine) : List Msg :=
  if d.serverReceiver.isSome && o.connected then [] else [.reconnect line]

/-- Two states with the same name and the same connection to the leader. -/
structure SameLink (d t : Driver) : Prop where
  name : t.name = d.name
  serverSender : t.serverSender = d.serverSender
  serverReceiver : t.serverReceiver = d.serverReceiver

/-- **What a handler can do**: the message handled, the state after it, what the driver sends itself
    and the lines it sends to servers. -/
inductive Handled (o : Oracle) (d : Driver) :
    Msg → Driver → List Msg → List (Link × ServerLine) → Prop
  | silent {m : Msg} {t : Driver} {self : List Msg} (hm : m.isStartUp = false)
      (hrec : m.isReconnect = false) (htells : d.tells m = false) (hsame : d.SameLink t)
      (havail : t.isAvailable = d.isAvailable)
      (hself : ∀ x ∈ self, x.isStartUp = false ∧ x.isReconnect = false) :
      Handled o d m t self []
  | setReceiver (link : Link) :
      Handled o d (.setReceiver link) { d with serverReceiver := some link } [] []
  | registers {t : Driver} (r : Register) (hsame : d.SameLink t)
      (havail : t.isAvailable = d.isAvailable) :
      Handled o d (.register r) t (d.resend o (.newDriver r.socket r.name r.position))
        [(d.serverSender, .newDriver r.socket r.name r.position)]
  | tells {m : Msg} {t : Driver} {self : List Msg} {line : ServerLine} (hm : m.isStartUp = false)
      (hrec : m.isReconnect = false) (htells : d.tells m = true) (hline : line.About d.name)
      (hsame : d.SameLink t) (havail : t.isAvailable = !line.isBusy)
      (hself : ∀ x ∈ self, x.isStartUp = false ∧ x.isReconnect = false) :
      Handled o d m t (d.resend o line ++ self) [(d.serverSender, line)]
  | reconnectFailed {line : ServerLine} (ho : o.server = none) :
      Handled o d (.reconnect line) d [] []
  | reconnected {line : ServerLine} {link : Link} (ho : o.server = some link) :
      Handled o d (.reconnect line) { d with serverReceiver := some link, serverSender := link } []
        [(link, line)]

theorem selfMessages_append (e₁ e₂ : List Effect) :
    selfMessages (e₁ ++ e₂) = selfMessages e₁ ++ selfMessages e₂ :=
  List.filterMap_append

theorem serverLines_append (e₁ e₂ : List Effect) :
    serverLines (e₁ ++ e₂) = serverLines e₁ ++ serverLines e₂ :=
  List.filterMap_append

variable {o : Oracle} {d t : Driver} {m : Msg} {effects : List Effect}

theorem selfMessages_sendToServer (line : ServerLine) :
    selfMessages (d.sendToServer o.connected line) = d.resend o line := by
  unfold sendToServer resend
  split <;> rfl

theorem serverLines_sendToServer (line : ServerLine) :
    serverLines (d.sendToServer o.connected line) = [(d.serverSender, line)] := by
  unfold sendToServer
  split <;> rfl

theorem SameLink.refl (d : Driver) : d.SameLink d := ⟨rfl, rfl, rfl⟩

/-- The lines for a passenger are neither for the driver itself nor for a server. -/
theorem passengerLine_aside (addrs : Option ℕ) (line : PassengerLine) :
    selfMessages (addrs.toList.map fun addr => .passenger addr line) = [] ∧
      serverLines (addrs.toList.map fun addr => .passenger addr line) = [] := by
  cases addrs <;> exact ⟨rfl, rfl⟩

/-- **Every handler does one of the things `Handled` lists**, if the driver was started without the
    recovery flag. -/
theorem handle_cases (hm : ∀ status socket, m ≠ .recovery status socket)
    (h : d.handle o m = some (t, effects)) :
    Handled o d m t (selfMessages effects) (serverLines effects) := by
  cases handle_outcome h with
  | setReceiver link => exact .setReceiver link
  | register r =>
      rw [selfMessages_append, serverLines_append, selfMessages_sendToServer,
        serverLines_sendToServer]
      exact (List.append_nil _).symm ▸ .registers r ⟨rfl, rfl, rfl⟩ rfl
  | refuses r hbusy => exact .silent rfl rfl hbusy (.refl d) rfl (by simp [selfMessages])
  | accepts r hfree ht =>
      subst ht
      rw [selfMessages_append, selfMessages_append, serverLines_append, serverLines_append,
        selfMessages_sendToServer, serverLines_sendToServer]
      have habout : ServerLine.About d.name (.busyDriver d.name) := rfl
      exact .tells rfl rfl hfree habout ⟨rfl, rfl, rfl⟩ rfl
        (by simp [selfMessages, Msg.isStartUp, Msg.isReconnect])
  | endRide dst ht =>
      subst ht
      rw [selfMessages_append, serverLines_append, selfMessages_sendToServer,
        serverLines_sendToServer]
      exact .tells rfl rfl rfl rfl ⟨rfl, rfl, rfl⟩ rfl (by simp [selfMessages, saveState])
  | picksUp origin =>
      obtain ⟨hself, hlines⟩ := passengerLine_aside d.currentPassengerConnection .driverArrived
      rw [selfMessages_append, serverLines_append, hself, hlines]
      exact .silent rfl rfl rfl ⟨rfl, rfl, rfl⟩ rfl
        (by simp [selfMessages, Msg.isStartUp, Msg.isReconnect])
  | noServer line hserver => exact .reconnectFailed hserver
  | newServer line link hserver => exact .reconnected hserver
  | recoversFree status socket | recoversBusy status socket => exact absurd rfl (hm status socket)
  | newConnection | startRide | noPassenger | approaches | noDestination | rides | arrives
  | responds | denies | reconnectPassenger =>
      exact .silent rfl rfl rfl ⟨rfl, rfl, rfl⟩ rfl
        (by simp [selfMessages, saveState, Msg.isStartUp, Msg.isReconnect])

/-! ## The start of a driver -/

/-- How far the driver called `name` is with its start-up, by its mailbox: `main` hands it the
    receiver of its connection and has it register before anybody else reaches it. -/
inductive StartUp (name : String) (d : Driver) : List Msg → Prop
  | fresh {r : Register} {post : List Msg} (hr : r.name = name) (hav : d.isAvailable = true)
      (hpost : ∀ m ∈ post, m.isStartUp = false) :
      StartUp name d (.setReceiver d.serverSender :: .register r :: post)
  | connected {r : Register} {post : List Msg} (hr : r.name = name) (hav : d.isAvailable = true)
      (hrec : d.serverReceiver = some d.serverSender)
      (hpost : ∀ m ∈ post, m.isStartUp = false) : StartUp name d (.register r :: post)
  | registered {mailbox : List Msg} (hrec : d.serverReceiver = some d.serverSender)
      (hbox : ∀ m ∈ mailbox, m.isStartUp = false) : StartUp name d mailbox

variable {name : String} {mailbox rest self new : List Msg} {lines : List (Link × ServerLine)}

theorem StartUp.append (h : StartUp name d mailbox) (hnew : ∀ m ∈ new, m.isStartUp = false) :
    StartUp name d (mailbox ++ new) := by
  cases h with
  | fresh hr hav hpost => exact .fresh hr hav (List.forall_mem_append.2 ⟨hpost, hnew⟩)
  | connected hr hav hrec hpost =>
      exact .connected hr hav hrec (List.forall_mem_append.2 ⟨hpost, hnew⟩)
  | registered hrec hbox => exact .registered hrec (List.forall_mem_append.2 ⟨hbox, hnew⟩)

/-- A driver that is not fresh reads its connection. -/
theorem StartUp.receiver (h : StartUp name d (m :: rest)) (hm : ∀ link, m ≠ .setReceiver link) :
    d.serverReceiver = some d.serverSender := by
  cases h with
  | fresh => exact absurd rfl (hm _)
  | connected _ _ hrec => exact hrec
  | registered hrec => exact hrec

theorem StartUp.not_recovery (h : StartUp name d (m :: rest)) (status : Lib.Json)
    (socket : String) : m ≠ .recovery status socket := by
  rintro rfl
  cases h with
  | registered _ hbox => simpa [Msg.isStartUp] using hbox _ List.mem_cons_self

theorem mem_resend {line : ServerLine} {x : Msg} (hx : x ∈ d.resend o line) :
    x = .reconnect line := by
  unfold resend at hx
  split at hx
  · simp at hx
  · exact List.mem_singleton.1 hx

/-- The start-up goes on with every message handled. -/
theorem StartUp.handled (h : StartUp name d (m :: rest)) (hh : Handled o d m t self lines) :
    StartUp name t (rest ++ self) := by
  have hresend : ∀ line, ∀ x ∈ d.resend o line, x.isStartUp = false := by
    intro line x hx
    rw [mem_resend hx]
    rfl
  cases hh with
  | setReceiver link =>
      rw [List.append_nil]
      cases h with
      | fresh hr hav hpost => exact .connected hr hav rfl hpost
      | registered _ hbox => simpa [Msg.isStartUp] using hbox _ List.mem_cons_self
  | registers r hsame hav =>
      have hrec := h.receiver (by simp)
      refine .append (.registered ?_ ?_) (hresend _)
      · rw [hsame.serverReceiver, hsame.serverSender, hrec]
      · cases h with
        | connected _ _ _ hpost => exact hpost
        | registered _ hbox => exact fun m hm => hbox m (List.mem_cons_of_mem _ hm)
  | silent hm _ _ hsame _ hself | tells hm _ _ _ hsame _ hself =>
      cases h with
      | registered hrec hbox =>
          refine .append (.registered ?_ fun m hm => hbox m (List.mem_cons_of_mem _ hm)) ?_
          · rw [hsame.serverReceiver, hsame.serverSender, hrec]
          · intro x hx
            first
              | exact (hself x hx).1
              | exact (List.mem_append.1 hx).elim (hresend _ x) fun hx => (hself x hx).1
      | _ => simp [Msg.isStartUp] at hm
  | reconnectFailed =>
      rw [List.append_nil]
      cases h with
      | registered hrec hbox =>
          exact .registered hrec fun m hm => hbox m (List.mem_cons_of_mem _ hm)
  | reconnected =>
      rw [List.append_nil]
      cases h with
      | registered hrec hbox =>
          exact .registered rfl fun m hm => hbox m (List.mem_cons_of_mem _ hm)

end ConcuRide.Driver
