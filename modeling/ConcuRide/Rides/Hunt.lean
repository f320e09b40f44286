import ConcuRide.Passenger.Select
import ConcuRide.Rides.Balance

set_option autoImplicit false

/-! # A search ends

The list of drivers a passenger got from the leader travels with its search: each driver it dials is
taken out of the list, and what is left goes on, in the memory of the passenger or in the next
`Drivers` it sends itself. The `Drivers` is part of the token of the search, so there is never a
second copy of the list that is still used, and no entry is dialled twice. -/

namespace ConcuRide

open Lib

/-! ## One handler -/

namespace Passenger

/-- The entry of the list that a handler dials. -/
def contacts (distance : Position → Position → ℕ) (p : Passenger) : Msg → List DriverInfo
  | .drivers driversInfo =>
    (selectDriver distance { p with driversInfo := driversInfo } 5).2.toList
  | _ => []

/-- The messages with which a passenger asks for the drivers. -/
def Msg.asksDrivers : Msg → Bool
  | .getDrivers => true
  | .reconnect line => line.isGetDrivers
  | _ => false

/-- No entry that is left can be selected: the others are out of every range. -/
def Exhausted (distance : Position → Position → ℕ) (p : Passenger) (rest : List DriverInfo) :
    Prop :=
  ∀ e ∈ rest, MAX_RANGE < away distance p e

/-- What handling a list of drivers leads to: the entry that is dialled leaves the list, and the
    search goes on with the rest or with an authorization, unless nobody was selected. -/
structure Picks (distance : Position → Position → ℕ) (p : Passenger) (driversInfo : List DriverInfo)
    (t : Passenger) (effects : List Effect) : Prop where
  perm : (contacts distance p (.drivers driversInfo) ++ t.driversInfo).Perm driversInfo
  queued : ∀ others, .drivers others ∈ selfMessages effects → others = t.driversInfo
  goesOn : Exhausted distance t t.driversInfo ∨ .drivers t.driversInfo ∈ selfMessages effects ∨
    authorizations effects = 1
  connected : authorizations effects ≠ 0 → t.connections ≠ []

variable {distance : Position → Position → ℕ} {o : Oracle} {p t : Passenger} {m : Msg}
  {driversInfo : List DriverInfo} {effects : List Effect}

theorem setConnection_ne_nil (p : Passenger) (c : Connection) :
    (p.setConnection c).connections ≠ [] := by
  unfold setConnection
  cases p.connections <;> simp

/-- The entry that is selected leaves the list. -/
theorem contacts_perm {others : List DriverInfo} {driver : DriverInfo}
    (h : selectDriver distance { p with driversInfo := driversInfo } 5
      = ({ p with driversInfo := others }, some driver)) :
    (p.contacts distance (.drivers driversInfo) ++ others).Perm driversInfo := by
  have hselect := selectDriver_nearOptimal distance { p with driversInfo := driversInfo }
  simp only [h, NearOptimal] at hselect
  obtain ⟨⟨others', htaken, hothers⟩, -⟩ := hselect
  obtain rfl : others = others' := congrArg Passenger.driversInfo hothers
  simpa [contacts, h] using htaken.perm

theorem drivers_picks (h : p.handle distance o (.drivers driversInfo) = some (t, effects)) :
    Picks distance p driversInfo t effects := by
  cases handle_outcome h with
  | nobody _ others hr =>
      have hselect := selectDriver_nearOptimal distance { p with driversInfo := driversInfo }
      simp only [hr, NearOptimal] at hselect
      obtain ⟨hothers, hout⟩ := hselect
      obtain rfl : others = driversInfo := congrArg Passenger.driversInfo hothers
      have hnobody : contacts distance p (.drivers others) = [] := by simp [contacts, hr]
      exact ⟨by rw [hnobody]; exact .refl _, by simp [selfMessages, saveState], .inl hout,
        by simp [authorizations, Effect.isAuthorizePayment, saveState]⟩
  | unreachable _ others _ hr =>
      exact ⟨contacts_perm hr, by simp [selfMessages, saveState],
        .inr (.inl (by simp [selfMessages, saveState])),
        by simp [authorizations, Effect.isAuthorizePayment, saveState]⟩
  | dials _ others _ _ hr =>
      exact ⟨contacts_perm hr, by simp [selfMessages, saveState],
        .inr (.inr (by simp [authorizations, Effect.isAuthorizePayment, saveState])),
        fun _ => setConnection_ne_nil _ _⟩

/-- No other message changes the list. -/
theorem handle_driversInfo (h : p.handle distance o m = some (t, effects))
    (hm : ∀ driversInfo, m ≠ .drivers driversInfo) : t.driversInfo = p.driversInfo := by
  cases handle_outcome h with
  | nobody driversInfo | unreachable driversInfo | dials driversInfo =>
      exact absurd rfl (hm driversInfo)
  | _ => rfl

/-- Only `Drivers` and `KeepLooking` send `Drivers`, and `KeepLooking` sends the list as it is. -/
theorem Searches.drivers {self : List Msg} {n k : ℕ} {lines : List (Connection × DriverLine)}
    (h : Searches distance o p m t self n k lines) (hm : ∀ driversInfo, m ≠ .drivers driversInfo)
    (hself : .drivers driversInfo ∈ self) : m = .keepLooking ∧ driversInfo = p.driversInfo := by
  cases h with
  | aside _ _ _ _ _ hquiet => exact absurd (hquiet _ hself) Bool.noConfusion
  | asks =>
      split at hself <;> simp at hself
  | unreachable list => exact absurd rfl (hm list)
  | keepsLooking => exact ⟨rfl, by simpa using hself⟩
  | recovers status =>
      split at hself <;> simp at hself
  | _ => simp at hself

/-- Only the selection of a driver asks the gateway. -/
theorem Searches.authorizations {self : List Msg} {n k : ℕ} {lines : List (Connection × DriverLine)}
    (h : Searches distance o p m t self n k lines) (hm : ∀ driversInfo, m ≠ .drivers driversInfo) :
    k = 0 := by
  cases h with
  | selects list => exact absurd rfl (hm list)
  | _ => rfl

/-- A message that is no list, and does not ask for one, passes the token on. -/
theorem Searches.passesOn {self : List Msg} {n k : ℕ} {lines : List (Connection × DriverLine)}
    (h : Searches distance o p m t self n k lines) (hm : ∀ driversInfo, m ≠ .drivers driversInfo)
    (hrecover : ∀ status, m ≠ .recover status) (hasks : m.asksDrivers = false) :
    m.isToken.toNat ≤ self.countP Msg.isToken + lines.countP (fun l => l.2.isRequest) := by
  cases h with
  | aside hquiet =>
      rw [isToken_of_aside hquiet hrecover]
      exact Nat.zero_le _
  | asks | asksAgain => cases hasks
  | nobody list | unreachable list | selects list => exact absurd rfl (hm list)
  | recovers status => exact absurd rfl (hrecover status)
  | requests | keepsLooking | authorized | denied | reconnects =>
      simp [Msg.isToken, Msg.isSearch, rideRequest, DriverLine.isRequest]

/-- A passenger that has a connection to a driver keeps one. -/
theorem Searches.connected {self : List Msg} {n k : ℕ} {lines : List (Connection × DriverLine)}
    (h : Searches distance o p m t self n k lines) (hp : p.connections ≠ []) :
    t.connections ≠ [] := by
  cases h with
  | aside _ _ _ _ hsame => rwa [hsame.connections]
  | asksAgain id hsame => rwa [hsame.connections]
  | nobody list hsame => rwa [hsame.connections]
  | unreachable list rest hsame => rwa [hsame.connections]
  | selects list c _ hconn =>
      rw [hconn]
      exact setConnection_ne_nil p c
  | reconnects socket c => exact setConnection_ne_nil p c
  | _ => exact hp

end Passenger

namespace World

variable {distance : Position → Position → ℕ} {own : ℕ → Bool} {name : String} {w w' : World}
  {l : Label} {p t : Passenger} {m : Passenger.Msg} {mailbox rest : List Passenger.Msg}
  {effects : List Passenger.Effect}

/-! ## What a step does to the passenger -/

/-- The steps in which only others act. -/
def Label.isPassive : Label → Bool
  | .recv _ _ | .answer _ _ | .crashPassenger | .restartPassenger _ _ _ => false
  | _ => true

/-- **What a step does to the passenger** and to what it waits for. -/
inductive Moves (distance : Position → Position → ℕ) (w : World) : Label → World → Prop
  | handles (o : Passenger.Oracle) (d : String) {p t : Passenger} {m : Passenger.Msg}
      {rest : List Passenger.Msg} {effects : List Passenger.Effect}
      (hactor : w.passenger = some (p, m :: rest))
      (hh : p.handle distance o m = some (t, effects)) :
      Moves distance w (.recv o d) (w.handled o d t rest effects)
  | panics (o : Passenger.Oracle) (d : String) {p : Passenger} {m : Passenger.Msg}
      {rest : List Passenger.Msg} (hactor : w.passenger = some (p, m :: rest))
      (hh : p.handle distance o m = none) : Moves distance w (.recv o d) (w.panicked p m)
  | answers {i : ℕ} (driversInfo : List Passenger.DriverInfo) {p : Passenger}
      {mailbox : List Passenger.Msg} (hi : i < w.asks.length)
      (hactor : w.passenger = some (p, mailbox)) :
      Moves distance w (.answer i driversInfo)
        { w with
          passenger := some (p, mailbox ++ [.drivers driversInfo])
          asks := w.asks.eraseIdx i }
  | restarts (name : String) (position destination : Position) (k : ℕ) :
      Moves distance w (.restartPassenger position destination k)
        (w.restart name position destination k)
  | stops : Moves distance w .crashPassenger w.endPassenger
  | brings {l : Label} {w' : World} (hl : l.isPassive = true) (new : List Passenger.Msg)
      (hnew : ∀ m ∈ new, m.isStartUp = false ∧ ∀ driversInfo, m ≠ .drivers driversInfo)
      (hpassenger : w'.passenger = w.passenger.map fun a => (a.1, a.2 ++ new))
      (hasks : w.asks = [] → w'.asks = []) (hauths : w'.auths ≤ w.auths)
      (hrequest : .requestDrive ∈ new → w.auths ≠ 0) : Moves distance w l w'

/-- A step that leaves the passenger alone. -/
theorem moves_aside (hl : l.isPassive = true) (hpassenger : w'.passenger = w.passenger)
    (hasks : w.asks = [] → w'.asks = []) (hauths : w'.auths = w.auths) : Moves distance w l w' := by
  refine .brings hl [] (by simp) ?_ hasks (Nat.le_of_eq hauths) (by simp)
  rw [hpassenger]
  cases w.passenger <;> simp

theorem step_moves (h : step distance own name w l = some w') : Moves distance w l w' := by
  cases step_cases h with
  | handles hactor _ hh => exact .handles _ _ hactor hh
  | panics hactor hh => exact .panics _ _ hactor hh
  | @notice m _ hm hnext =>
      obtain ⟨⟨p, mailbox⟩, hactor, rfl⟩ := Option.map_eq_some_iff.1 hnext
      have hquiet : m.isStartUp = false ∧ m ≠ .requestDrive ∧
          ∀ driversInfo, m ≠ .drivers driversInfo := by
        cases m with
        | completeLogin | reconnectDriver => exact ⟨rfl, by simp, by simp⟩
        | _ => cases hm
      refine .brings rfl [m] (fun x hx => ?_) (by rw [hactor]; rfl) id (Nat.le_refl _) fun hx => ?_
      · rw [List.mem_singleton.1 hx]
        exact ⟨hquiet.1, hquiet.2.2⟩
      · exact absurd (List.mem_singleton.1 hx).symm hquiet.2.1
  | answer hi hnext =>
      obtain ⟨⟨p, mailbox⟩, hactor, rfl⟩ := Option.map_eq_some_iff.1 hnext
      exact .answers _ hi hactor
  | @gateway isAuthorized _ hauths hnext =>
      obtain ⟨⟨p, mailbox⟩, hactor, rfl⟩ := Option.map_eq_some_iff.1 hnext
      have hactor : w.passenger = some (p, mailbox) := hactor
      refine .brings rfl (Passenger.paymentAuthorizationStatus isAuthorized) ?_
        (by rw [hactor]; rfl) id (Nat.sub_le _ _) fun _ => Nat.pos_iff_ne_zero.mp hauths
      cases isAuthorized <;>
        simp [Passenger.paymentAuthorizationStatus, Passenger.Msg.isStartUp]
  | linkDies k => exact moves_aside rfl rfl (fun hnil => by simp [hnil]) rfl
  | @toPassenger i n line p mailbox _ hactor =>
      refine .brings rfl [line.toMsg] ?_ (by rw [hactor]; rfl) id (Nat.le_refl _) ?_
      · cases line <;> simp [Driver.PassengerLine.toMsg, Passenger.Msg.isStartUp]
      · cases line <;> simp [Driver.PassengerLine.toMsg]
  | crashPassenger => exact .stops
  | restartPassenger position destination k => exact .restarts name position destination k
  | toDriver | drives | foreign | crashDriver | startDriver => exact moves_aside rfl rfl id rfl

/-! ## The search since the last list -/

/-- The search since a list of drivers arrived. -/
structure Hunt where
  driversInfo : List Passenger.DriverInfo
  /-- the entries dialled since, the oldest first -/
  contacted : List Passenger.DriverInfo

/-- The search after a message is handled: it is over when the drivers are asked for again. -/
def huntHandled (distance : Position → Position → ℕ) (p : Passenger) (m : Passenger.Msg)
    (h : Hunt) : Option Hunt :=
  if m.asksDrivers then none
  else some { h with contacted := h.contacted ++ p.contacts distance m }

/-- The search after a step. -/
def huntAfter (distance : Position → Position → ℕ) (w : World) (h : Option Hunt) :
    Label → Option Hunt
  | .answer _ driversInfo => some { driversInfo := driversInfo, contacted := [] }
  | .recv _ _ =>
    match w.passenger with
    | some (p, m :: _) => h.bind (huntHandled distance p m)
    | _ => h
  | .restartPassenger _ _ _ => none
  | _ => h

end World

/-- A world, and the search that goes on in it. -/
structure Chase where
  world : World
  hunt : Option World.Hunt

namespace Chase

def init (name : String) (position destination : Position) (k : ℕ) : Chase where
  world := World.init name position destination k
  hunt := none

def step (distance : Position → Position → ℕ) (own : ℕ → Bool) (name : String) (c : Chase)
    (l : World.Label) : Option Chase :=
  (c.world.step distance own name l).map fun w =>
    { world := w, hunt := c.world.huntAfter distance c.hunt l }

/-- The passenger still has what is left of the list: in its memory, or in the one `Drivers` of its
    mailbox. It has a connection when it is about to ask a driver. -/
structure Carries (others : List Passenger.DriverInfo) (auths : ℕ) (p : Passenger)
    (mailbox : List Passenger.Msg) : Prop where
  queued : ∀ driversInfo, .drivers driversInfo ∈ mailbox → driversInfo = others
  kept : .drivers others ∈ mailbox ∨ p.driversInfo = others
  connected : auths ≠ 0 ∨ .requestDrive ∈ mailbox → p.connections ≠ []

/-- The entries dialled and those left are the list. -/
def OnTrack (w : World) (h : World.Hunt) : Prop :=
  ∃ others, (h.contacted ++ others).Perm h.driversInfo ∧
    ∀ p mailbox, w.passenger = some (p, mailbox) → Carries others w.auths p mailbox

/-- The invariant of a search. -/
structure Sound (own : ℕ → Bool) (c : Chase) : Prop where
  world : c.world.Sound own
  read : ∀ p mailbox, c.world.passenger = some (p, mailbox) →
    c.world.asks ≠ [] ∨ c.hunt ≠ none → ∀ status, .recover status ∉ mailbox
  onTrack : ∀ h, c.hunt = some h → OnTrack c.world h

variable {distance : Position → Position → ℕ} {own : ℕ → Bool} {name : String} {c c' : Chase}
  {l : World.Label} {w w' : World} {p t : Passenger} {m : Passenger.Msg}
  {mailbox rest : List Passenger.Msg} {effects : List Passenger.Effect}
  {others : List Passenger.DriverInfo} {o : Passenger.Oracle} {d : String}

/-! ## The list stays with the search -/

/-- The mailbox, the leader and the gateway have at most one token together. -/
theorem tokens_le_one (hs : w.Sound own) (hactor : w.passenger = some (p, mailbox)) :
    mailbox.countP Passenger.Msg.isToken + w.asks.length + w.auths ≤ 1 := by
  have hone : w.search ≤ 1 := hs.token.le_one none
  rw [World.search_of_actor hactor] at hone
  omega

theorem tokens_pos (hmem : m ∈ mailbox) (hm : m.isToken = true) :
    0 < mailbox.countP Passenger.Msg.isToken := List.countP_pos_iff.mpr ⟨m, hmem, hm⟩

/-- When the passenger handles the token, there is no other. -/
theorem tokens_rest (hs : w.Sound own) (hactor : w.passenger = some (p, m :: rest))
    (hm : m.isToken = true) : rest.countP Passenger.Msg.isToken = 0 ∧ w.auths = 0 := by
  have hone := tokens_le_one hs hactor
  rw [List.countP_cons_of_pos hm] at hone
  omega

/-- The list that is dialled is the one the passenger still has. -/
theorem Carries.drivers {driversInfo : List Passenger.DriverInfo}
    (hs : w.Sound own) (hactor : w.passenger = some (p, .drivers driversInfo :: rest))
    (hself : ∀ x ∈ Passenger.selfMessages effects, x.isSelf = true)
    (hpicks : p.Picks distance driversInfo t effects) :
    Carries t.driversInfo (w.auths + Passenger.authorizations effects) t
      (rest ++ Passenger.selfMessages effects) := by
  obtain ⟨hrest, hauths⟩ := tokens_rest hs hactor rfl
  refine ⟨fun list hlist => ?_, .inr rfl, fun hreq => hpicks.connected ?_⟩
  · rcases List.mem_append.mp hlist with hmem | hmem
    · exact absurd (tokens_pos hmem rfl) (by omega)
    · exact hpicks.queued list hmem
  · rcases hreq with hreq | hreq
    · omega
    · rcases List.mem_append.mp hreq with hmem | hmem
      · exact absurd (tokens_pos hmem rfl) (by omega)
      · exact absurd (hself _ hmem) Bool.noConfusion

/-- Any other message leaves the list where it is, or moves it from the memory to the mailbox. -/
theorem Carries.handled (h : Carries others w.auths p (m :: rest)) (hs : w.Sound own)
    (hactor : w.passenger = some (p, m :: rest)) (hm : ∀ driversInfo, m ≠ .drivers driversInfo)
    (hh : p.handle distance o m = some (t, effects)) :
    Carries others (w.auths + Passenger.authorizations effects) t
      (rest ++ Passenger.selfMessages effects) := by
  have hsearches := Passenger.handle_searches hh
  have hlist := Passenger.handle_driversInfo hh hm
  refine ⟨fun list hmem => ?_, ?_, fun hreq => hsearches.connected (h.connected ?_)⟩
  · rcases List.mem_append.mp hmem with hmem | hmem
    · exact h.queued list (List.mem_cons_of_mem m hmem)
    · obtain ⟨rfl, rfl⟩ := hsearches.drivers hm hmem
      -- the list is in the memory, since `KeepLooking` is the token
      obtain ⟨hrest, -⟩ := tokens_rest hs hactor rfl
      rcases h.kept with hqueued | hkept
      · have hmem' := (List.mem_cons.mp hqueued).resolve_left (hm others).symm
        exact absurd (tokens_pos hmem' rfl) (by omega)
      · exact hkept
  · rcases h.kept with hqueued | hkept
    · have hmem := (List.mem_cons.mp hqueued).resolve_left (hm others).symm
      exact .inl (List.mem_append_left _ hmem)
    · exact .inr (hlist.trans hkept)
  · rw [hsearches.authorizations hm, Nat.add_zero] at hreq
    refine hreq.imp_right fun hreq => ?_
    rcases List.mem_append.mp hreq with hmem | hmem
    · exact List.mem_cons_of_mem m hmem
    · exact absurd ((Passenger.handle_keeps hh).messages _ hmem) Bool.noConfusion

/-- What arrives from outside is no list. -/
theorem Carries.append {new : List Passenger.Msg} (h : Carries others w.auths p mailbox)
    (hnew : ∀ m ∈ new, ∀ driversInfo, m ≠ .drivers driversInfo) (hauths : w'.auths ≤ w.auths)
    (hrequest : .requestDrive ∈ new → w.auths ≠ 0) :
    Carries others w'.auths p (mailbox ++ new) := by
  refine ⟨fun list hmem => ?_, h.kept.imp_left (List.mem_append_left new), fun hreq => ?_⟩
  · rcases List.mem_append.mp hmem with hmem | hmem
    · exact h.queued list hmem
    · exact absurd rfl (hnew _ hmem list)
  · rcases hreq with hreq | hreq
    · exact h.connected (.inl (by omega))
    · rcases List.mem_append.mp hreq with hmem | hmem
      · exact h.connected (.inr hmem)
      · exact h.connected (.inl (hrequest hmem))

theorem huntHandled_eq_some {h h' : World.Hunt}
    (hunt : World.huntHandled distance p m h = some h') : m.asksDrivers = false ∧
      h' = { h with contacted := h.contacted ++ p.contacts distance m } := by
  unfold World.huntHandled at hunt
  split at hunt
  · cases hunt
  · next hasks => exact ⟨by simpa using hasks, (Option.some.inj hunt).symm⟩

theorem contacts_eq_nil (hm : ∀ driversInfo, m ≠ .drivers driversInfo) :
    p.contacts distance m = [] := by
  cases m with
  | drivers driversInfo => exact absurd rfl (hm driversInfo)
  | _ => rfl

/-- **A handled message keeps the search on track.** -/
theorem OnTrack.handled {h h' : World.Hunt} (htrack : OnTrack w h) (hs : w.Sound own)
    (hactor : w.passenger = some (p, m :: rest)) (hh : p.handle distance o m = some (t, effects))
    (hunt : World.huntHandled distance p m h = some h') :
    OnTrack (w.handled o d t rest effects) h' := by
  obtain ⟨others, hperm, hcarries⟩ := htrack
  obtain ⟨-, rfl⟩ := huntHandled_eq_some hunt
  have hcarry := hcarries p _ hactor
  have htrack : ∀ {others' : List Passenger.DriverInfo},
      (h.contacted ++ p.contacts distance m ++ others').Perm h.driversInfo →
      Carries others' (w.auths + Passenger.authorizations effects) t
        (rest ++ Passenger.selfMessages effects) →
      OnTrack (w.handled o d t rest effects)
        { h with contacted := h.contacted ++ p.contacts distance m } := by
    intro others' hperm' hcarry'
    refine ⟨others', hperm', fun p' mailbox' hactor' => ?_⟩
    obtain ⟨rfl, rfl⟩ := Prod.mk.inj (Option.some.inj hactor')
    exact hcarry'
  by_cases hm : ∃ driversInfo, m = .drivers driversInfo
  · obtain ⟨driversInfo, rfl⟩ := hm
    obtain rfl := hcarry.queued driversInfo List.mem_cons_self
    have hpicks := Passenger.drivers_picks hh
    refine htrack ?_ (Carries.drivers hs hactor (Passenger.handle_keeps hh).messages hpicks)
    rw [List.append_assoc]
    exact (hpicks.perm.append_left _).trans hperm
  · have hm : ∀ driversInfo, m ≠ .drivers driversInfo := fun list heq => hm ⟨list, heq⟩
    refine htrack ?_ (hcarry.handled hs hactor hm hh)
    rw [contacts_eq_nil hm, List.append_nil]
    exact hperm

/-- A list that arrives starts a search. -/
theorem onTrack_answer {i : ℕ} {driversInfo : List Passenger.DriverInfo} (hs : w.Sound own)
    (hi : i < w.asks.length) (hactor : w.passenger = some (p, mailbox)) :
    OnTrack
      { w with
        passenger := some (p, mailbox ++ [.drivers driversInfo])
        asks := w.asks.eraseIdx i }
      { driversInfo := driversInfo, contacted := [] } := by
  have hone := tokens_le_one hs hactor
  have hnone : ∀ x ∈ mailbox, x.isToken = false := fun x hx => by
    by_contra htoken
    have := tokens_pos hx (Bool.of_not_eq_false htoken)
    omega
  refine ⟨driversInfo, .refl _, fun p' mailbox' hactor' => ?_⟩
  obtain ⟨rfl, rfl⟩ := Prod.mk.inj (Option.some.inj hactor')
  refine ⟨fun list hmem => ?_, .inl (by simp), fun hreq => ?_⟩
  · rcases List.mem_append.mp hmem with hmem | hmem
    · exact absurd (hnone _ hmem) Bool.noConfusion
    · simpa using hmem
  · rcases hreq with hreq | hreq
    · exact absurd (show w.auths ≠ 0 from hreq) (by omega)
    · rcases List.mem_append.mp hreq with hmem | hmem
      · exact absurd (hnone _ hmem) Bool.noConfusion
      · simp at hmem

/-- Without the passenger, what is left of the list stays what it was. -/
theorem OnTrack.stopped {h : World.Hunt} (htrack : OnTrack w h) (hstopped : w'.passenger = none) :
    OnTrack w' h := by
  obtain ⟨others, hperm, -⟩ := htrack
  exact ⟨others, hperm, fun p mailbox hactor => absurd (hstopped.symm.trans hactor) (by simp)⟩

theorem panicked_passenger (w : World) (p : Passenger) (m : Passenger.Msg) :
    (w.panicked p m).passenger = none := by
  cases m <;> rfl

/-- Only `SetReceiver` is handled before a state is read back. -/
theorem setReceiver_of_recover {file : Option Json} {status : Json}
    (h : Passenger.Settled file p (m :: rest)) (hmem : .recover status ∈ rest) :
    ∃ k, m = .setReceiver k := by
  cases h.head with
  | @links k => exact ⟨k, rfl⟩
  | reads _ _ hrest => exact absurd rfl (hrest _ hmem status)
  | running _ _ hrest => exact absurd rfl (hrest _ hmem status)

/-- The passenger reads its state back before it asks for drivers. -/
theorem Sound.read_handled (hs : c.Sound own) (hactor : c.world.passenger = some (p, m :: rest))
    (hh : p.handle distance o m = some (t, effects))
    (hbusy : (c.world.handled o d t rest effects).asks ≠ [] ∨
      c.hunt.bind (World.huntHandled distance p m) ≠ none) (status : Json) :
    .recover status ∉ rest ++ Passenger.selfMessages effects := by
  intro hmem
  have hkeeps := Passenger.handle_keeps hh
  rcases List.mem_append.mp hmem with hmem | hmem
  · -- a state is still to be read, so that nothing was asked and nothing is asked now
    have hidle := hs.read p _ hactor
    have hnothing : ¬(c.world.asks ≠ [] ∨ c.hunt ≠ none) := fun hbusy =>
      hidle hbusy status (List.mem_cons_of_mem m hmem)
    rw [not_or, not_not, not_not] at hnothing
    obtain ⟨k, rfl⟩ := setReceiver_of_recover (hs.world.inStep p _ hactor).settled hmem
    obtain ⟨rfl, rfl⟩ := Prod.mk.inj (Option.some.inj hh)
    rw [hnothing.2] at hbusy
    refine hbusy.elim (fun hasks => hasks ?_) fun hhunt => hhunt rfl
    simp [World.handled, Passenger.asks, hnothing.1]
  · exact absurd (hkeeps.messages _ hmem) Bool.noConfusion

theorem huntAfter_recv {h : Option World.Hunt} (hactor : w.passenger = some (p, m :: rest)) :
    w.huntAfter distance h (.recv o d) = h.bind (World.huntHandled distance p m) := by
  simp only [World.huntAfter, hactor]

theorem huntAfter_passive {h : Option World.Hunt} (hl : l.isPassive = true) :
    w.huntAfter distance h l = h := by
  cases l with
  | recv | answer | crashPassenger | restartPassenger => cases hl
  | _ => rfl

theorem sound_step (hs : c.Sound own) (h : c.step distance own name l = some c') :
    c'.Sound own := by
  obtain ⟨w, hw, rfl⟩ := Option.map_eq_some_iff.1 h
  have hworld := World.sound_step hs.world hw
  refine ⟨hworld, ?_, ?_⟩
  case refine_1 =>
    intro p' mailbox' hactor' hbusy status
    cases World.step_moves hw with
    | @handles o d p t m rest effects hactor hh =>
        obtain ⟨rfl, rfl⟩ := Prod.mk.inj (Option.some.inj hactor')
        simp only [huntAfter_recv hactor] at hbusy
        exact hs.read_handled hactor hh hbusy status
    | panics => exact absurd ((panicked_passenger ..).symm.trans hactor') (by simp)
    | @answers i driversInfo p mailbox hi hactor =>
        obtain ⟨rfl, rfl⟩ := Prod.mk.inj (Option.some.inj hactor')
        have hasks : c.world.asks ≠ [] := List.ne_nil_of_length_pos (by omega)
        have hread := hs.read p mailbox hactor (.inl hasks) status
        simpa using hread
    | restarts => exact absurd hbusy (by simp [World.restart, World.huntAfter])
    | stops => cases hactor'
    | brings hl new hnew hpassenger hasks =>
        have hbox := hpassenger.symm.trans hactor'
        obtain ⟨⟨p, mailbox⟩, hactor, heq⟩ := Option.map_eq_some_iff.1 hbox
        obtain ⟨rfl, rfl⟩ := Prod.mk.inj heq
        rw [huntAfter_passive hl] at hbusy
        have hread := hs.read p mailbox hactor (hbusy.imp_left (mt hasks)) status
        intro hmem
        rcases List.mem_append.mp hmem with hmem | hmem
        · exact hread hmem
        · exact absurd (hnew _ hmem).1 Bool.noConfusion
  case refine_2 =>
    intro h' hh'
    cases World.step_moves hw with
    | @handles o d p t m rest effects hactor hh =>
        rw [huntAfter_recv hactor, Option.bind_eq_some_iff] at hh'
        obtain ⟨h₀, hh₀, hhunt⟩ := hh'
        exact (hs.onTrack h₀ hh₀).handled hs.world hactor hh hhunt
    | @panics o d p m rest hactor hh =>
        rw [huntAfter_recv hactor, Option.bind_eq_some_iff] at hh'
        obtain ⟨h₀, hh₀, hhunt⟩ := hh'
        obtain ⟨-, rfl⟩ := huntHandled_eq_some hhunt
        have hm : ∀ driversInfo, m ≠ .drivers driversInfo := by
          rintro driversInfo rfl
          cases hh
        rw [contacts_eq_nil hm, List.append_nil]
        exact (hs.onTrack h₀ hh₀).stopped (panicked_passenger ..)
    | @answers i driversInfo p mailbox hi hactor =>
        obtain rfl := Option.some.inj hh'
        exact onTrack_answer hs.world hi hactor
    | restarts => cases hh'
    | stops => exact (hs.onTrack h' hh').stopped rfl
    | brings hl new hnew hpassenger hasks hauths hrequest =>
        rw [huntAfter_passive hl] at hh'
        obtain ⟨others, hperm, hcarries⟩ := hs.onTrack h' hh'
        refine ⟨others, hperm, fun p' mailbox' hactor' => ?_⟩
        have hbox := hpassenger.symm.trans hactor'
        obtain ⟨⟨p, mailbox⟩, hactor, heq⟩ := Option.map_eq_some_iff.1 hbox
        obtain ⟨rfl, rfl⟩ := Prod.mk.inj heq
        exact (hcarries p mailbox hactor).append (fun m hm => (hnew m hm).2) hauths hrequest

theorem sound_init (name : String) (position destination : Position) (k : ℕ) :
    (init name position destination k).Sound own where
  world := World.sound_init name position destination k
  read := fun p mailbox _ hbusy => absurd hbusy (by simp [init, World.init])
  onTrack := fun h hh => by cases hh

/-! ## Where a search ends -/

/-- The handler of a message of the search does not panic. -/
theorem Carries.handles (h : Carries others w.auths p (m :: rest)) (hm : m.isSearch = true) :
    (p.handle distance o m).isSome = true := by
  cases m with
  | requestDrive =>
      have hconn := h.connected (.inr List.mem_cons_self)
      obtain ⟨x, xs, hx⟩ := List.exists_cons_of_ne_nil hconn
      simp [Passenger.handle, Passenger.requestDrive, hx]
  | traveling => cases hm
  | _ => rfl

/-- The search is lost in a handler: it was somewhere before, and is nowhere afterwards. -/
def Lost (c c' : Chase) : Prop := c.world.search ≠ 0 ∧ c'.world.search = 0

/-- A handler loses the search only when it can select nobody. -/
theorem exhausted_of_lost (hs : c.Sound own) (h : c.step distance own name (.recv o d) = some c')
    (hlost : Lost c c') {h' : World.Hunt} (hh' : c'.hunt = some h')
    (hactor' : c'.world.passenger = some (t, mailbox)) :
    ∃ others, (h'.contacted ++ others).Perm h'.driversInfo ∧ t.Exhausted distance others := by
  have hs' := sound_step hs h
  obtain ⟨w, hw, rfl⟩ := Option.map_eq_some_iff.1 h
  obtain ⟨hbefore, hafter⟩ := hlost
  cases World.step_moves hw with
  | panics => exact absurd ((panicked_passenger ..).symm.trans hactor') (by simp)
  | brings hl => cases hl
  | @handles _ _ p t m rest effects hactor hh =>
      obtain ⟨rfl, rfl⟩ := Prod.mk.inj (Option.some.inj hactor')
      rw [huntAfter_recv hactor, Option.bind_eq_some_iff] at hh'
      obtain ⟨h₀, hh₀, hhunt⟩ := hh'
      obtain ⟨hasks, rfl⟩ := huntHandled_eq_some hhunt
      rw [World.search_of_actor hactor, countP_cons_toNat] at hbefore
      rw [World.search_of_actor hactor'] at hafter
      simp only [World.handled, List.countP_append, List.length_append, List.countP_map] at hafter
      by_cases hm : ∃ driversInfo, m = .drivers driversInfo
      · obtain ⟨driversInfo, rfl⟩ := hm
        obtain ⟨others, hperm, hcarries⟩ := hs.onTrack h₀ hh₀
        obtain rfl := (hcarries p _ hactor).queued driversInfo List.mem_cons_self
        have hpicks := Passenger.drivers_picks hh
        refine ⟨t.driversInfo, ?_, ?_⟩
        · rw [List.append_assoc]
          exact (hpicks.perm.append_left _).trans hperm
        · rcases hpicks.goesOn with hout | hqueued | hasked
          · exact hout
          · have := tokens_pos hqueued rfl
            omega
          · omega
      · have hm : ∀ driversInfo, m ≠ .drivers driversInfo := fun list heq => hm ⟨list, heq⟩
        have hrecover : ∀ status, m ≠ .recover status := fun status heq =>
          hs.read p _ hactor (.inr (by simp [hh₀])) status (heq ▸ List.mem_cons_self)
        have hpass := (Passenger.handle_searches hh).passesOn hm hrecover hasks
        have hlines : (Passenger.driverLines effects).countP
            ((fun l => l.2.isRequest) ∘ fun l => (l.1.number, l.2))
            = (Passenger.driverLines effects).countP fun l => l.2.isRequest := rfl
        rw [hlines] at hafter
        omega

/-- **A search asks each driver at most once and ends.** In every run of a passenger and the
    drivers, with any outcomes of its attempts, the entries a passenger has dialled since it got a
    list are entries of that list, each at most as often as it stands there; no handler of the
    search panics; and a handler that loses the search can select none of the entries that are
    left. -/
theorem each_driver_at_most_once {position destination : Position} {k : ℕ}
    {ls : List World.Label}
    (hrun : Run (step distance own name) (fun _ _ => True) (init name position destination k) ls c)
    {h : World.Hunt} (hh : c.hunt = some h) :
    h.contacted.Subperm h.driversInfo ∧ h.contacted.length ≤ h.driversInfo.length ∧
    (∀ o p m rest, c.world.passenger = some (p, m :: rest) → m.isSearch = true →
      (p.handle distance o m).isSome = true) ∧
    ∀ o d c' h' t mailbox, c.step distance own name (.recv o d) = some c' → Lost c c' →
      c'.hunt = some h' → c'.world.passenger = some (t, mailbox) →
      ∃ others, (h'.contacted ++ others).Perm h'.driversInfo ∧ t.Exhausted distance others := by
  have hs : c.Sound own := hrun.invariant (fun _ _ _ hs _ hst => sound_step hs hst)
    (sound_init name position destination k)
  obtain ⟨others, hperm, hcarries⟩ := hs.onTrack h hh
  have hsub : h.contacted.Subperm h.driversInfo :=
    (List.sublist_append_left h.contacted others).subperm.trans hperm.subperm
  refine ⟨hsub, hsub.length_le, fun o p m rest hactor hm => (hcarries p _ hactor).handles hm, ?_⟩
  intro o d c' h' t mailbox hstep hlost hh' hactor'
  exact exhausted_of_lost hs hstep hlost hh' hactor'

/-- Passenger "peach" gets a list of two drivers, and can connect to neither. -/
def unreachable : List World.Label :=
  [.recv .up "", .recv .up "", .recv .up "",
    .answer 0 [⟨"127.0.0.1:40000", (5, 3)⟩, ⟨"127.0.0.1:40001", (1, 1)⟩],
    .recv .up "", .recv .up "", .recv .up ""]

theorem each_driver_at_most_once_unreachable : ∃ (c : Chase) (h : World.Hunt),
    c.hunt = some h ∧ h.contacted.length = 2 ∧ h.contacted.Subperm h.driversInfo := by
  obtain ⟨c, hrun, hc⟩ := exists_run_of_exec (fun _ _ => true) (init "peach" (2, 2) (8, 8) 0)
    unreachable
    (fun (c : Chase) => c.hunt.any fun (h : World.Hunt) => decide (h.contacted.length = 2))
    (show (exec (step (fun _ _ => 1) (fun _ => true) "peach") _ _ _).any _ = true by
      decide +kernel)
  obtain ⟨h, hh, hlen⟩ := Option.any_eq_true _ _ |>.1 hc
  have honce := each_driver_at_most_once (hrun.mono fun _ _ _ => trivial) hh
  exact ⟨c, h, hh, of_decide_eq_true hlen, honce.1⟩

end Chase

end ConcuRide
