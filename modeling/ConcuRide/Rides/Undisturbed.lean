import ConcuRide.Rides.HandsOn

set_option autoImplicit false

/-! # An undisturbed ride

When nobody crashes and no connection is lost, the token of the passenger is never lost either: it
goes from the search to a driver, comes back with the `driver_arrived`, travels with the passenger
and ends with the payment, unless the search ends without a driver. A run that comes to rest has
therefore come to one of these two ends. -/

namespace ConcuRide

open Lib

namespace World

/-- **Nothing goes wrong** in this step: nobody crashes and is started again, no connection is lost,
    and the driver that handles a message does not take somebody else for its passenger. -/
def undisturbed (own : ℕ → Bool) (w : World) : Label → Bool
  | .crashPassenger | .restartPassenger _ _ _ | .crashDriver _ | .linkDies _ => false
  | .notice m => m.isPlain
  | .startDriver d _ => decide (w.starts d = 0)
  | .foreign _ m => m.isPlain own
  | .drives d _ => !(w.drivers d).misled own
  | _ => true

/-- Whoever was started is still running. -/
structure Healthy (w : World) : Prop where
  passenger : w.passenger.isSome = true
  drivers : ∀ d, w.starts d ≠ 0 → (w.drivers d).actor.isSome = true

/-- **The world is at rest**: everybody is waiting for a message, and none is on its way. -/
structure AtRest (w : World) : Prop where
  passenger : ∃ p, w.passenger = some (p, [])
  drivers : ∀ d, w.starts d ≠ 0 → ∃ a, (w.drivers d).actor = some (a, [])
  asks : w.asks = []
  auths : w.auths = 0
  up : w.up = []
  down : w.down = []

/-- What the passenger does in a step. -/
def effects (distance : Position → Position → ℕ) (w : World) : Label → List Passenger.Effect
  | .recv o _ =>
    match w.passenger with
    | some (p, m :: _) => (p.handle distance o m).elim [] Prod.snd
    | _ => []
  | _ => []

/-- The search of the passenger ends in a step. -/
def givesUp (distance : Position → Position → ℕ) (w : World) : Label → Bool
  | .recv _ _ =>
    match w.passenger with
    | some (p, m :: _) => p.givesUp distance m
    | _ => false
  | _ => false

variable {distance : Position → Position → ℕ} {own : ℕ → Bool} {name : String} {w w' : World}
  {l : Label} {p : Passenger} {o : Passenger.Oracle} {d : String}

theorem AtRest.healthy (h : w.AtRest) : w.Healthy where
  passenger := by
    obtain ⟨p, hp⟩ := h.passenger
    rw [hp]
    rfl
  drivers := fun d hd => by
    obtain ⟨a, ha⟩ := h.drivers d hd
    rw [ha]
    rfl

theorem enqueue_isSome {new : List Passenger.Msg} (h : w.enqueue new = some w') :
    w.passenger.isSome = true := by
  obtain ⟨a, ha, -⟩ := Option.map_eq_some_iff.1 h
  rw [ha]
  rfl

theorem enqueueDriver_isSome {s s' : Driver.Process} {m : Driver.Msg} (h : s.enqueue m = some s') :
    s.actor.isSome = true := by
  obtain ⟨a, ha, -⟩ := Option.map_eq_some_iff.1 h
  rw [ha]
  rfl

theorem recvDriver_isSome {s s' : Driver.Process} {o : Driver.Oracle}
    {effects : List Driver.Effect} (h : s.recv o = some (s', effects)) :
    s.actor.isSome = true := by
  rcases Driver.Process.recv_cases h with ⟨d, m, rest, hactor, -⟩ | ⟨d, m, rest, t, hactor, -⟩ <;>
    · rw [hactor]
      rfl

/-- A passenger that panics is gone. -/
theorem not_healthy_panicked {m : Passenger.Msg} : ¬ (w.panicked p m).Healthy := by
  intro hhealthy
  have hruns := hhealthy.passenger
  cases m <;> cases hruns

theorem panicked_drivers {m : Passenger.Msg} :
    (w.panicked p m).drivers = w.drivers ∧ (w.panicked p m).starts = w.starts := by
  cases m <;> exact ⟨rfl, rfl⟩

/-- A step of one driver that is running. -/
theorem healthy_setDriver {s : Driver.Process} (hactor : (w.drivers d).actor.isSome = true)
    (hpassenger : w.passenger.isSome = true)
    (h : ∀ x, w.starts x ≠ 0 → ((w.setDriver d s).drivers x).actor.isSome = true) : w.Healthy where
  passenger := hpassenger
  drivers := fun x hx => by
    by_cases hxd : x = d
    · exact hxd ▸ hactor
    · exact setDriver_other w s hxd ▸ h x hx

/-- Nobody who has stopped runs again. -/
theorem healthy_of_step (hok : w.undisturbed own l = true)
    (h : step distance own name w l = some w') (hhealthy : w'.Healthy) : w.Healthy := by
  cases step_cases h with
  | handles hactor => exact ⟨by rw [hactor]; rfl, hhealthy.drivers⟩
  | panics => exact absurd hhealthy not_healthy_panicked
  | notice _ hnext =>
      have hruns := enqueue_isSome hnext
      obtain ⟨a, -, rfl⟩ := Option.map_eq_some_iff.1 hnext
      exact ⟨hruns, hhealthy.drivers⟩
  | answer _ hnext | gateway _ hnext =>
      have hruns := enqueue_isSome hnext
      obtain ⟨a, -, rfl⟩ := Option.map_eq_some_iff.1 hnext
      exact ⟨hruns, hhealthy.drivers⟩
  | toPassenger _ hactor => exact ⟨by rw [hactor]; rfl, hhealthy.drivers⟩
  | toDriver _ hnext | foreign _ hnext =>
      exact healthy_setDriver (enqueueDriver_isSome hnext) hhealthy.passenger hhealthy.drivers
  | drives hrecv =>
      exact healthy_setDriver (recvDriver_isSome hrecv) hhealthy.passenger hhealthy.drivers
  | @startDriver d _ s =>
      have hnone : w.starts d = 0 := of_decide_eq_true hok
      refine ⟨hhealthy.passenger, fun x hx => ?_⟩
      have hxd : x ≠ d := fun hxd => hx (hxd ▸ hnone)
      have hruns := hhealthy.drivers x
      simp only [Function.update_of_ne hxd, setDriver_other w s hxd] at hruns
      exact hruns hx
  | linkDies | crashPassenger | restartPassenger | crashDriver => cases hok

/-- A driver that has been started was started before, or is started now. -/
theorem starts_of_step (h : step distance own name w l = some w') (hd : w'.starts d ≠ 0) :
    w.starts d ≠ 0 ∨ ∃ at_, l = .startDriver d at_ := by
  cases step_cases h with
  | @startDriver x at_ =>
      by_cases hx : d = x
      · exact .inr ⟨at_, by rw [hx]⟩
      · refine .inl fun hzero => hd ?_
        simp only [Function.update_of_ne hx]
        exact hzero
  | notice _ hnext | answer _ hnext | gateway _ hnext =>
      obtain ⟨a, -, rfl⟩ := Option.map_eq_some_iff.1 hnext
      exact .inl hd
  | panics => exact .inl fun hzero => hd ((congrFun panicked_drivers.2 d).trans hzero)
  | _ => exact .inl hd

end World

/-- A world, with how often its passenger has paid and how often its search has ended without a
    driver. -/
structure Trip where
  world : World
  paid : ℕ
  gaveUp : ℕ

namespace Trip

def init (name : String) (position destination : Position) (k : ℕ) : Trip where
  world := World.init name position destination k
  paid := 0
  gaveUp := 0

def step (distance : Position → Position → ℕ) (own : ℕ → Bool) (name : String) (t : Trip)
    (l : World.Label) : Option Trip :=
  (t.world.step distance own name l).map fun w =>
    { world := w
      paid := t.paid + Passenger.payments (t.world.effects distance l)
      gaveUp := t.gaveUp + (t.world.givesUp distance l).toNat }

/-- The messages of the way in the mailbox of the passenger. -/
def way (t : Trip) : ℕ := (t.world.passenger.elim [] Prod.snd).countP Passenger.Msg.isWay

/-- The tokens of a place: the search and the way of the passenger, or the ride of a driver. -/
def load (own : ℕ → Bool) (t : Trip) : Option String → ℕ
  | none => t.world.search + t.gaveUp + t.world.down.countP (fun l => l.2.isArrived) + t.way + t.paid
  | some d => (t.world.drivers d).departures own

/-- The tokens of the search, which ends when a driver has accepted. -/
def searches (own : ℕ → Bool) (t : Trip) : Option String → ℕ
  | none => t.world.search + t.gaveUp + t.world.accepted
  | some d => (t.world.drivers d).requests own

/-- The invariant of the passenger. -/
structure Rider (distance : Position → Position → ℕ) (own : ℕ → Bool) (t : Trip) (p : Passenger)
    (mailbox : List Passenger.Msg) : Prop where
  plain : ∀ m ∈ mailbox, m.isPlain = true
  connections : ∀ c ∈ p.connections, own c.number = true
  arrived : t.paid ≠ 0 → p.info.position = p.info.destination
  gaveUp : t.gaveUp ≠ 0 → p.Exhausted distance p.driversInfo

/-- The invariant of an undisturbed ride. -/
structure Sound (distance : Position → Position → ℕ) (own : ℕ → Bool) (t : Trip) : Prop where
  dead : ∀ k, t.world.dead k = false
  rider : ∀ p mailbox, t.world.passenger = some (p, mailbox) → t.Rider distance own p mailbox
  up : ∀ l ∈ t.world.up, own l.1 = true ∧ l.2.isRequest = true
  down : ∀ l ∈ t.world.down, l.2.isResponse = false
  drivers : ∀ d, (t.world.drivers d).Calm own
  fresh : ∀ d, t.world.starts d = 0 → t.world.drivers d = .init
  token : ExactlyOne (t.load own)
  search : ExactlyOne (t.searches own)
  arrivals : t.world.arrivals = t.way + t.paid

variable {distance : Position → Position → ℕ} {own : ℕ → Bool} {name : String} {t t' : Trip}
  {w : World} {l : World.Label} {p q : Passenger} {m : Passenger.Msg}
  {rest new mailbox : List Passenger.Msg} {effects : List Passenger.Effect}
  {o : Passenger.Oracle} {d : String}

theorem way_of_actor (hactor : t.world.passenger = some (p, mailbox)) :
    t.way = mailbox.countP Passenger.Msg.isWay := by
  rw [way, hactor]
  rfl

/-! ### Steps of the passenger -/

/-- A step of the passenger, or of what is on its way to it. -/
theorem Sound.passenger (hs : t.Sound distance own) (hdead : t'.world.dead = t.world.dead)
    (hdrivers : t'.world.drivers = t.world.drivers) (hstarts : t'.world.starts = t.world.starts)
    (haccepted : t'.world.accepted = t.world.accepted)
    (hrider : ∀ p mailbox, t'.world.passenger = some (p, mailbox) → t'.Rider distance own p mailbox)
    (hup : ∀ l ∈ t'.world.up, own l.1 = true ∧ l.2.isRequest = true)
    (hdown : ∀ l ∈ t'.world.down, l.2.isResponse = false)
    (hsearch : t'.world.search + t'.gaveUp = t.world.search + t.gaveUp)
    (hway : t'.world.down.countP (fun l => l.2.isArrived) + (t'.way + t'.paid) =
      t.world.down.countP (fun l => l.2.isArrived) + (t.way + t.paid))
    (harrivals : t'.world.arrivals + (t.way + t.paid) = t.world.arrivals + (t'.way + t'.paid)) :
    t'.Sound distance own where
  dead := hdead ▸ hs.dead
  rider := hrider
  up := hup
  down := hdown
  drivers := hdrivers ▸ hs.drivers
  fresh := by
    rw [hdrivers, hstarts]
    exact hs.fresh
  token := hs.token.congr fun place => by
    cases place with
    | none =>
        simp only [load]
        omega
    | some d => exact congrArg (fun f => Driver.Process.departures own (f d)) hdrivers
  search := hs.search.congr fun place => by
    cases place with
    | none =>
        simp only [searches, haccepted]
        omega
    | some d => exact congrArg (fun f => Driver.Process.requests own (f d)) hdrivers
  arrivals := by
    have := hs.arrivals
    omega

/-- The passenger takes part in the ride that the token stands for: it has its leader. -/
theorem linked (hs : t.Sound distance own) (hworld : t.world.Sound own)
    (hactor : t.world.passenger = some (p, m :: rest)) (hlink : t.world.linkOk p o = true)
    (hm : ∀ k, m ≠ .setReceiver k) : (p.serverReceiver.isSome && o.connected) = true := by
  have hreceiver := (hworld.inStep p _ hactor).linked.receiver hm
  simp only [World.linkOk, hreceiver, Option.all_some, hs.dead, Bool.or_false,
    Bool.and_eq_true] at hlink
  rw [hreceiver, hlink.1]
  rfl

/-- What `new_connection` opens is a connection of this passenger. -/
theorem own_of_recv {w' : World} (hactor : w.passenger = some (p, m :: rest))
    (h : w.recv distance own o d = some w') {n : ℕ} (hn : o.driver = some n) : own n = true := by
  unfold World.recv at h
  rw [hactor] at h
  simp only at h
  split at h
  · next hok =>
      simp only [World.reaches, hn, Option.all_some, Bool.and_eq_true] at hok
      exact hok.2.1.1
  · cases h

/-- What the passenger has been through stays as it is while it holds no token. -/
theorem rider_handled (hs : t.Sound distance own)
    (hactor : t.world.passenger = some (p, m :: rest))
    (hown : ∀ n, o.driver = some n → own n = true)
    (hhands : p.HandsOn distance o m q effects)
    (hpaid : t'.paid = t.paid + Passenger.payments effects)
    (hgaveUp : t'.gaveUp = t.gaveUp + (p.givesUp distance m).toNat) :
    t'.Rider distance own q (rest ++ Passenger.selfMessages effects) := by
  have hrider := hs.rider p _ hactor
  have hone : t.load own none ≤ 1 := hs.token.atMost.le_one none
  have hway := way_of_actor hactor
  have hsearch := World.search_of_actor hactor
  rw [countP_cons_toNat] at hway hsearch
  simp only [load] at hone
  constructor
  case plain =>
    exact List.forall_mem_append.2
      ⟨fun x hx => hrider.plain x (List.mem_cons_of_mem m hx), hhands.plain⟩
  case connections =>
    intro c hc
    rcases hhands.connections c hc with hold | hnew
    · exact hrider.connections c hold
    · exact hown _ hnew
  case arrived =>
    intro hne
    by_cases hnow : Passenger.payments effects = 0
    · -- the payment was made before, and nothing of the way is left
      have hbefore : t.paid ≠ 0 := by omega
      have hm : m.isWay = false := Bool.toNat_eq_zero.1 (by omega)
      rw [hhands.position hm, hhands.destination]
      exact hrider.arrived hbefore
    · exact hhands.arrived hnow
  case gaveUp =>
    intro hne
    cases hnow : p.givesUp distance m with
    | true => exact hhands.gaveUp hnow
    | false =>
        have hbefore : t.gaveUp ≠ 0 := by
          rw [hgaveUp, hnow] at hne
          exact hne
        have hway : m.isWay = false := Bool.toNat_eq_zero.1 (by omega)
        have htoken : m.isToken = false := Bool.toNat_eq_zero.1 (by omega)
        intro e he
        rw [hhands.list htoken] at he
        have hfar := hrider.gaveUp hbefore e he
        rwa [Passenger.away, hhands.position hway]

/-- The search goes on, or ends here. -/
theorem search_handled (hdead : ∀ k, w.dead k = false) (hactor : w.passenger = some (p, m :: rest))
    (hhands : p.HandsOn distance o m q effects) :
    (w.handled o d q rest effects).search + (p.givesUp distance m).toNat = w.search := by
  have hsearch := hhands.search
  have hactor' : (w.handled o d q rest effects).passenger
      = some (q, rest ++ Passenger.selfMessages effects) := rfl
  have hlines : ((Passenger.driverLines effects).map fun l => (l.1.number, l.2)).countP
      (fun l => l.2.isRequest)
      = (Passenger.driverLines effects).countP fun l => l.2.isRequest := by
    rw [List.countP_map]
    rfl
  rw [World.search_of_actor hactor, World.search_of_actor hactor', countP_cons_toNat]
  simp only [World.handled, hdead, Bool.false_eq_true, if_false, List.length_append,
    List.length_replicate, List.countP_append, hlines]
  omega

theorem sound_handled (hs : t.Sound distance own) (hworld : t.world.Sound own)
    (hactor : t.world.passenger = some (p, m :: rest)) (hlink : t.world.linkOk p o = true)
    (hown : ∀ n, o.driver = some n → own n = true)
    (hh : p.handle distance o m = some (q, effects))
    (hw : t'.world = t.world.handled o d q rest effects)
    (hpaid : t'.paid = t.paid + Passenger.payments effects)
    (hgaveUp : t'.gaveUp = t.gaveUp + (p.givesUp distance m).toNat) : t'.Sound distance own := by
  have hrider := hs.rider p _ hactor
  have hhands := Passenger.handle_handsOn hh (hrider.plain m List.mem_cons_self)
    (linked hs hworld hactor hlink)
  have hactor' : t'.world.passenger = some (q, rest ++ Passenger.selfMessages effects) := by
    rw [hw]
    rfl
  have hway : t'.way + t'.paid = t.way + t.paid := by
    have hpasses := Passenger.handle_way hh
    rw [way_of_actor hactor, way_of_actor hactor', List.countP_append, countP_cons_toNat, hpaid]
    omega
  have hsearch := @search_handled distance _ _ _ _ _ _ _ d hs.dead hactor hhands
  refine hs.passenger (by rw [hw]; rfl) (by rw [hw]; rfl) (by rw [hw]; rfl) (by rw [hw]; rfl)
    (fun p' mailbox hp' => ?_) ?_ (by rw [hw]; exact hs.down) ?_ (by rw [hw, hway]; rfl)
    (by rw [hw, hway]; rfl)
  · obtain ⟨rfl, rfl⟩ := Prod.mk.inj (Option.some.inj (hactor'.symm.trans hp'))
    exact rider_handled hs hactor hown hhands hpaid hgaveUp
  · rw [hw]
    refine List.forall_mem_append.2 ⟨hs.up, fun l hl => ?_⟩
    obtain ⟨x, hx, rfl⟩ := List.mem_map.1 hl
    obtain ⟨hrequest, hmem⟩ := hhands.requests x hx
    exact ⟨hrider.connections _ hmem, hrequest⟩
  · rw [hw]
    omega

/-- Messages of others arrive at the passenger. -/
theorem sound_enqueue {w₀ w' : World} (hs : t.Sound distance own) (h : w₀.enqueue new = some w')
    (hactor : w₀.passenger = t.world.passenger) (hdead : w₀.dead = t.world.dead)
    (hdrivers : w₀.drivers = t.world.drivers) (hstarts : w₀.starts = t.world.starts)
    (haccepted : w₀.accepted = t.world.accepted) (hup : w₀.up = t.world.up)
    (hplain : ∀ m ∈ new, m.isPlain = true) (hdown : ∀ l ∈ w₀.down, l ∈ t.world.down)
    (hsearch : w₀.search + new.countP Passenger.Msg.isToken = t.world.search)
    (hway : w₀.down.countP (fun l => l.2.isArrived) + new.countP Passenger.Msg.isWay =
      t.world.down.countP (fun l => l.2.isArrived))
    (harrivals : w₀.arrivals = t.world.arrivals + new.countP Passenger.Msg.isWay) :
    Sound distance own { t with world := w' } := by
  have henqueue := World.search_enqueue h
  obtain ⟨⟨p, mailbox⟩, hsome, rfl⟩ := Option.map_eq_some_iff.1 h
  have hold : t.world.passenger = some (p, mailbox) := hactor.symm.trans hsome
  have hrider := hs.rider p mailbox hold
  have hgrows : Trip.way { t with
      world := { w₀ with passenger := some (p, mailbox ++ new) } } =
      t.way + new.countP Passenger.Msg.isWay := by
    rw [way_of_actor hold]
    exact List.countP_append
  refine hs.passenger hdead hdrivers hstarts haccepted (fun p' mailbox' hp' => ?_)
    (fun l hl => hs.up l (hup ▸ hl)) (fun l hl => hs.down l (hdown l hl)) ?_ ?_ ?_
  · obtain ⟨rfl, rfl⟩ := Prod.mk.inj (Option.some.inj hp')
    exact ⟨List.forall_mem_append.2 ⟨hrider.plain, hplain⟩, hrider.connections, hrider.arrived,
      hrider.gaveUp⟩
  · simp only [henqueue, hsearch]
  · simp only [hgrows]
    omega
  · simp only [hgrows]
    omega

/-! ### Steps of a driver -/

/-- A step of one driver, with what it does to the lines on their way. -/
theorem Sound.driver (hs : t.Sound distance own) (hpaid : t'.paid = t.paid)
    (hgaveUp : t'.gaveUp = t.gaveUp) (hdead : t'.world.dead = t.world.dead)
    (hpassenger : t'.world.passenger = t.world.passenger)
    (harrivals : t'.world.arrivals = t.world.arrivals)
    (hothers : ∀ x, x ≠ d → t'.world.drivers x = t.world.drivers x)
    (hcalm : (t'.world.drivers d).Calm own)
    (hfresh : ∀ x, t'.world.starts x = 0 → t'.world.drivers x = .init)
    (hup : ∀ l ∈ t'.world.up, own l.1 = true ∧ l.2.isRequest = true)
    (hdown : ∀ l ∈ t'.world.down, l.2.isResponse = false)
    (htoken : t'.world.search + t'.world.down.countP (fun l => l.2.isArrived) +
        (t'.world.drivers d).departures own =
      t.world.search + t.world.down.countP (fun l => l.2.isArrived) +
        (t.world.drivers d).departures own)
    (hsearch : t'.world.search + t'.world.accepted + (t'.world.drivers d).requests own =
      t.world.search + t.world.accepted + (t.world.drivers d).requests own) :
    t'.Sound distance own := by
  have hway : t'.way = t.way := by rw [way, way, hpassenger]
  constructor
  case dead => exact hdead ▸ hs.dead
  case rider =>
    intro p mailbox hactor
    have hrider := hs.rider p mailbox (hpassenger ▸ hactor)
    exact ⟨hrider.plain, hrider.connections, hpaid ▸ hrider.arrived, hgaveUp ▸ hrider.gaveUp⟩
  case up => exact hup
  case down => exact hdown
  case drivers =>
    intro x
    by_cases hx : x = d
    · exact hx ▸ hcalm
    · exact hothers x hx ▸ hs.drivers x
  case fresh => exact hfresh
  case token =>
    refine hs.token.move (Option.some_ne_none d).symm ?_ fun place hnone hd => ?_
    · simp only [load, hway, hpaid, hgaveUp]
      omega
    · cases place with
      | none => exact absurd rfl hnone
      | some x =>
          have hx : x ≠ d := fun hx => hd (congrArg some hx)
          exact congrArg (Driver.Process.departures own) (hothers x hx)
  case search =>
    refine hs.search.move (Option.some_ne_none d).symm ?_ fun place hnone hd => ?_
    · simp only [searches, hgaveUp]
      omega
    · cases place with
      | none => exact absurd rfl hnone
      | some x =>
          have hx : x ≠ d := fun hx => hd (congrArg some hx)
          exact congrArg (Driver.Process.requests own) (hothers x hx)
  case arrivals => rw [harrivals, hs.arrivals, hway, hpaid]

/-- A running driver is not one that was never started. -/
theorem fresh_setDriver (hs : t.Sound distance own) {s : Driver.Process}
    (hruns : (t.world.drivers d).actor.isSome = true) (x : String) (hx : t.world.starts x = 0) :
    (t.world.setDriver d s).drivers x = .init := by
  have hxd : x ≠ d := by
    rintro rfl
    rw [hs.fresh x hx] at hruns
    cases hruns
  rw [World.setDriver_other t.world s hxd]
  exact hs.fresh x hx

theorem sound_toDriver {i n : ℕ} {line : Passenger.DriverLine} {s : Driver.Process}
    (hs : t.Sound distance own) (hline : t.world.up[i]? = some (n, line))
    (h : (t.world.drivers d).enqueue (line.toMsg n) = some s) : Sound distance own
      { t with world := { t.world.setDriver d s with up := t.world.up.eraseIdx i } } := by
  obtain ⟨hown, hrequest⟩ := hs.up _ (List.mem_of_getElem? hline)
  have hmsg : (line.toMsg n).isPlain own = true ∧ (line.toMsg n).mayArrive = true ∧
      (line.toMsg n).isRequestOf own = true := by
    cases line with
    | requestRide => exact ⟨rfl, rfl, hown⟩
    | _ => cases hrequest
  have hcount : t.world.up.countP (fun l => l.2.isRequest)
      = (t.world.up.eraseIdx i).countP (fun l => l.2.isRequest) + line.isRequest.toNat :=
    World.countP_eraseIdx _ hline
  have hdepartures : s.departures own = _ :=
    Driver.Process.departures_enqueue (Driver.isRecovery_of_isPlain hmsg.1) h
  have hrequests : s.requests own = _ := Driver.Process.requests_enqueue h
  have hsame := World.setDriver_same t.world d s
  have hgone : World.search { t.world.setDriver d s with up := t.world.up.eraseIdx i } + 1
      = t.world.search := by
    simp only [World.search, World.setDriver, hcount, hrequest, Bool.toNat_true]
    omega
  rw [hmsg.2.2, Bool.toNat_true] at hdepartures hrequests
  refine hs.driver rfl rfl rfl rfl rfl (d := d) (fun x hx => World.setDriver_other _ s hx) ?_
    (fresh_setDriver hs (World.enqueueDriver_isSome h)) ?_ hs.down ?_ ?_
  · exact hsame.symm ▸ (hs.drivers d).enqueue hmsg.1 hmsg.2.1 h
  · exact fun l hl => hs.up l (List.mem_of_mem_eraseIdx hl)
  · show World.search { t.world.setDriver d s with up := t.world.up.eraseIdx i } +
        t.world.down.countP _ + ((t.world.setDriver d s).drivers d).departures own = _
    rw [hsame, hdepartures]
    omega
  · show World.search { t.world.setDriver d s with up := t.world.up.eraseIdx i } +
        t.world.accepted + ((t.world.setDriver d s).drivers d).requests own = _
    rw [hsame, hrequests]
    omega

theorem sound_foreign {x : Driver.Msg} {s : Driver.Process} (hs : t.Sound distance own)
    (hforeign : x.isForeign own = true) (hx : x.isPlain own = true)
    (h : (t.world.drivers d).enqueue x = some s) :
    Sound distance own { t with world := t.world.setDriver d s } := by
  have hmsg : x.mayArrive = true ∧ x.isRequestOf own = false := by
    cases x with
    | requestRide r => exact ⟨rfl, (Bool.not_eq_true' _).mp hforeign⟩
    | newConnection | passengerRecover | reconnectPassenger => exact ⟨rfl, rfl⟩
    | _ => cases hforeign
  have hdepartures : s.departures own = _ :=
    Driver.Process.departures_enqueue (Driver.isRecovery_of_isPlain hx) h
  have hrequests : s.requests own = _ := Driver.Process.requests_enqueue h
  have hsame := World.setDriver_same t.world d s
  rw [hmsg.2, Bool.toNat_false, Nat.add_zero] at hdepartures hrequests
  refine hs.driver rfl rfl rfl rfl rfl (d := d) (fun x hx => World.setDriver_other _ s hx) ?_
    (fresh_setDriver hs (World.enqueueDriver_isSome h)) hs.up hs.down ?_ ?_
  · exact hsame.symm ▸ (hs.drivers d).enqueue hx hmsg.1 h
  · rw [hsame, hdepartures]
    rfl
  · rw [hsame, hrequests]
    rfl

theorem sound_drives {o : Driver.Oracle} {s : Driver.Process} {effects : List Driver.Effect}
    {lines : List (ℕ × Driver.PassengerLine)} (hs : t.Sound distance own)
    (hok : (t.world.drivers d).misled own = false)
    (hrecv : (t.world.drivers d).recv o = some (s, effects)) (hruns : s.actor.isSome = true)
    (hlines : lines = (Driver.passengerLines effects).filter fun l => own l.1) :
    Sound distance own { t with
      world := { t.world.setDriver d s with
        down := t.world.down ++ lines
        accepted := t.world.accepted + lines.countP fun l => l.2.isOk } } := by
  have hanswers := (hs.drivers d).recv hok hrecv hruns
  have hrequests := hanswers.requests
  have hdepartures := hanswers.departures
  have hsame := World.setDriver_same t.world d s
  unfold Driver.acceptances Driver.refusals at hrequests
  unfold Driver.refusals Driver.arrivals at hdepartures
  rw [← hlines] at hrequests hdepartures
  refine hs.driver rfl rfl rfl rfl rfl (d := d) (fun x hx => World.setDriver_other _ s hx) ?_
    (fresh_setDriver hs (World.recvDriver_isSome hrecv)) hs.up ?_ ?_ ?_
  · exact hsame.symm ▸ hanswers.calm
  · exact List.forall_mem_append.2 ⟨hs.down, hlines ▸ hanswers.told⟩
  · show _ + _ + ((t.world.setDriver d s).drivers d).departures own = _
    rw [hsame]
    simp only [World.search, World.setDriver, List.countP_append]
    omega
  · show _ + _ + ((t.world.setDriver d s).drivers d).requests own = _
    rw [hsame]
    simp only [World.search, World.setDriver, List.countP_append]
    omega

theorem sound_startDriver {at_ : Driver.Launch} {s : Driver.Process} (hs : t.Sound distance own)
    (hfirst : t.world.starts d = 0)
    (h : (t.world.drivers d).step d (World.startLabel (t.world.drivers d) at_) = some s) :
    Sound distance own { t with
      world := { t.world.setDriver d s with
        starts := Function.update t.world.starts d (t.world.starts d + 1) } } := by
  have hinit := hs.fresh d hfirst
  have hsame := World.setDriver_same t.world d s
  rw [hinit] at h
  obtain ⟨hcalm, hrequests, hdepartures⟩ := @Driver.Process.calm_launch own _ _ _ h
  refine hs.driver rfl rfl rfl rfl rfl (d := d) (fun x hx => World.setDriver_other _ s hx) ?_
    ?_ hs.up hs.down ?_ ?_
  · exact hsame.symm ▸ hcalm
  · intro x hx
    have hxd : x ≠ d := by
      rintro rfl
      simp at hx
    simp only [Function.update_of_ne hxd] at hx
    exact (World.setDriver_other _ s hxd).trans (hs.fresh x hx)
  · show _ + _ + ((t.world.setDriver d s).drivers d).departures own = _
    rw [hsame, hdepartures, hinit]
    rfl
  · show _ + _ + ((t.world.setDriver d s).drivers d).requests own = _
    rw [hsame, hrequests, hinit]
    rfl

/-! ### Runs -/

theorem effects_recv (hactor : w.passenger = some (p, m :: rest))
    (hh : p.handle distance o m = some (q, effects)) :
    w.effects distance (.recv o d) = effects := by
  simp [World.effects, hactor, hh]

theorem givesUp_recv (hactor : w.passenger = some (p, m :: rest)) :
    w.givesUp distance (.recv o d) = p.givesUp distance m := by
  simp [World.givesUp, hactor]

theorem sound_notice {w' : World} (hs : t.Sound distance own) (hm : m.isNotice = true)
    (hplain : m.isPlain = true) (h : t.world.enqueue [m] = some w') :
    Sound distance own { t with world := w' } := by
  have hquiet : m.isToken = false ∧ m.isWay = false := by
    cases m with
    | completeLogin => exact ⟨rfl, rfl⟩
    | reconnectDriver => cases hplain
    | _ => cases hm
  have htoken : [m].countP Passenger.Msg.isToken = 0 := by simp [hquiet.1]
  have hway : [m].countP Passenger.Msg.isWay = 0 := by simp [hquiet.2]
  exact sound_enqueue hs h rfl rfl rfl rfl rfl rfl (List.forall_mem_singleton.2 hplain)
    (fun _ hl => hl) (by rw [htoken]; rfl) (by rw [hway]; rfl) (by rw [hway]; rfl)

theorem sound_answer {i : ℕ} {driversInfo : List Passenger.DriverInfo} {w' : World}
    (hs : t.Sound distance own) (hi : i < t.world.asks.length)
    (h : { t.world with asks := t.world.asks.eraseIdx i }.enqueue [.drivers driversInfo]
      = some w') : Sound distance own { t with world := w' } :=
  sound_enqueue hs h rfl rfl rfl rfl rfl rfl (List.forall_mem_singleton.2 rfl) (fun _ hl => hl)
    (World.search_answer hi) rfl rfl

theorem sound_gateway {isAuthorized : Bool} {w' : World} (hs : t.Sound distance own)
    (hauths : 0 < t.world.auths)
    (h : { t.world with auths := t.world.auths - 1 }.enqueue
      (Passenger.paymentAuthorizationStatus isAuthorized) = some w') :
    Sound distance own { t with world := w' } := by
  have hplain : ∀ m ∈ Passenger.paymentAuthorizationStatus isAuthorized, m.isPlain = true := by
    cases isAuthorized <;> simp [Passenger.paymentAuthorizationStatus, Passenger.Msg.isPlain]
  have hway : (Passenger.paymentAuthorizationStatus isAuthorized).countP Passenger.Msg.isWay = 0 := by
    cases isAuthorized <;> rfl
  exact sound_enqueue hs h rfl rfl rfl rfl rfl rfl hplain (fun _ hl => hl)
    (by rw [World.token_answer]; exact World.search_gateway hauths) (by rw [hway]; rfl)
    (by rw [hway]; rfl)

theorem sound_toPassenger {i n : ℕ} {line : Driver.PassengerLine} (hs : t.Sound distance own)
    (hline : t.world.down[i]? = some (n, line))
    (hactor : t.world.passenger = some (p, mailbox)) : Sound distance own { t with
      world := { t.world with
        passenger := some (p, mailbox ++ [line.toMsg])
        down := t.world.down.eraseIdx i
        arrivals := if line.isArrived then t.world.arrivals + 1 else t.world.arrivals } } := by
  have hresponse : line.isResponse = false := hs.down _ (List.mem_of_getElem? hline)
  have hno : t.world.down.countP (fun l => l.2.isNo)
      = (t.world.down.eraseIdx i).countP (fun l => l.2.isNo) + line.isNo.toNat :=
    World.countP_eraseIdx _ hline
  have hcome : t.world.down.countP (fun l => l.2.isArrived)
      = (t.world.down.eraseIdx i).countP (fun l => l.2.isArrived) + line.isArrived.toNat :=
    World.countP_eraseIdx _ hline
  have hmsg : line.toMsg.isPlain = true ∧ line.toMsg.isToken = line.isNo ∧
      line.toMsg.isWay = line.isArrived := by
    cases line with
    | recoverResponse => cases hresponse
    | _ => exact ⟨rfl, rfl, rfl⟩
  have htoken : [line.toMsg].countP Passenger.Msg.isToken = line.isNo.toNat := by
    rw [countP_cons_toNat, hmsg.2.1]
    exact Nat.zero_add _
  have hway : [line.toMsg].countP Passenger.Msg.isWay = line.isArrived.toNat := by
    rw [countP_cons_toNat, hmsg.2.2]
    exact Nat.zero_add _
  have harrives : World.enqueue
      { t.world with
        down := t.world.down.eraseIdx i
        arrivals := if line.isArrived then t.world.arrivals + 1 else t.world.arrivals }
      [line.toMsg] = some { t.world with
        passenger := some (p, mailbox ++ [line.toMsg])
        down := t.world.down.eraseIdx i
        arrivals := if line.isArrived then t.world.arrivals + 1 else t.world.arrivals } :=
    Option.map_eq_some_iff.2 ⟨(p, mailbox), hactor, rfl⟩
  refine sound_enqueue hs harrives rfl rfl rfl rfl rfl rfl (List.forall_mem_singleton.2 hmsg.1)
    (fun l hl => List.mem_of_mem_eraseIdx hl) ?_ ?_ ?_
  · rw [htoken]
    simp only [World.search, hno]
    omega
  · rw [hway]
    exact hcome.symm
  · rw [hway]
    show (if line.isArrived = true then t.world.arrivals + 1 else t.world.arrivals) = _
    cases line.isArrived <;> rfl

/-- **An undisturbed step keeps the token.** -/
theorem sound_step {w' : World} (hs : t.Sound distance own) (hworld : t.world.Sound own)
    (hok : t.world.undisturbed own l = true) (h : t.world.step distance own name l = some w')
    (hhealthy : w'.Healthy) : Sound distance own
      { world := w'
        paid := t.paid + Passenger.payments (t.world.effects distance l)
        gaveUp := t.gaveUp + (t.world.givesUp distance l).toNat } := by
  cases World.step_cases h with
  | handles hactor hlink hh =>
      refine sound_handled hs hworld hactor hlink (fun n hn => own_of_recv hactor h hn) hh rfl ?_ ?_
      · rw [effects_recv hactor hh]
      · rw [givesUp_recv hactor]
  | panics => exact absurd hhealthy World.not_healthy_panicked
  | notice hm hnext => exact sound_notice hs hm hok hnext
  | answer hi hnext => exact sound_answer hs hi hnext
  | gateway hauths hnext => exact sound_gateway hs hauths hnext
  | toDriver hline hnext => exact sound_toDriver hs hline hnext
  | toPassenger hline hactor => exact sound_toPassenger hs hline hactor
  | @drives d _ s _ _ hrecv hlines =>
      have hruns : s.actor.isSome = true := by
        have hstarted : t.world.starts d ≠ 0 := fun hzero => by
          have hactor := World.recvDriver_isSome hrecv
          rw [hs.fresh d hzero] at hactor
          cases hactor
        have hdriver := hhealthy.drivers d hstarted
        rwa [show _ = s from World.setDriver_same t.world d s] at hdriver
      exact sound_drives hs ((Bool.not_eq_true' _).mp hok) hrecv hruns hlines
  | foreign hm hnext => exact sound_foreign hs hm hok hnext
  | startDriver hnext => exact sound_startDriver hs (of_decide_eq_true hok) hnext
  | linkDies | crashPassenger | restartPassenger | crashDriver => cases hok

theorem sound_init (name : String) (position destination : Position) (k : ℕ) :
    (init name position destination k).Sound distance own where
  dead := fun _ => rfl
  rider := fun p mailbox hactor => by
    obtain ⟨rfl, rfl⟩ := Prod.mk.inj (Option.some.inj hactor)
    exact ⟨by simp [World.launched, Passenger.Msg.isPlain], by simp [Passenger.start],
      fun hne => absurd rfl hne, fun hne => absurd rfl hne⟩
  up := fun l hl => by cases hl
  down := fun l hl => by cases hl
  drivers := fun _ => Driver.Process.calm_init
  fresh := fun _ _ => rfl
  token := .of_single (p := none) rfl fun place hne => by
    cases place with
    | none => exact absurd rfl hne
    | some d => rfl
  search := .of_single (p := none) rfl fun place hne => by
    cases place with
    | none => exact absurd rfl hne
    | some d => rfl
  arrivals := rfl

variable {ls : List World.Label} {position destination : Position} {k : ℕ}

theorem step_eq (h : t.step distance own name l = some t') : ∃ w',
    t.world.step distance own name l = some w' ∧ t' =
      { world := w'
        paid := t.paid + Passenger.payments (t.world.effects distance l)
        gaveUp := t.gaveUp + (t.world.givesUp distance l).toNat } := by
  obtain ⟨w', hw', rfl⟩ := Option.map_eq_some_iff.1 h
  exact ⟨w', hw', rfl⟩

/-- A run that has only started drivers that still run has kept the token. -/
theorem sound_run (h : Run (step distance own name) (fun t l => t.world.undisturbed own l = true)
      (init name position destination k) ls t) (hhealthy : t.world.Healthy) :
    t.Sound distance own := by
  have hkeeps : t.world.Sound own ∧ (t.world.Healthy → t.Sound distance own) :=
    h.invariant (P := fun t => t.world.Sound own ∧ (t.world.Healthy → t.Sound distance own))
      (fun s l s' hinv hok hst => by
        obtain ⟨w', hw', rfl⟩ := step_eq hst
        refine ⟨World.sound_step hinv.1 hw', fun hhealthy => ?_⟩
        exact sound_step (hinv.2 (World.healthy_of_step hok hw' hhealthy)) hinv.1 hok hw' hhealthy)
      ⟨World.sound_init name position destination k, fun _ => sound_init name position destination k⟩
  exact hkeeps.2 hhealthy

/-- No driver holds a token of a world at rest. -/
theorem Sound.driver_at_rest (hs : t.Sound distance own) (hrest : t.world.AtRest) (d : String) :
    (t.world.drivers d).departures own = 0 ∧ (t.world.drivers d).requests own = 0 := by
  by_cases hstarted : t.world.starts d = 0
  · rw [hs.fresh d hstarted]
    exact ⟨rfl, rfl⟩
  · obtain ⟨a, ha⟩ := hrest.drivers d hstarted
    have hfree := (hs.drivers d).free_of_rest ha
    constructor
    · rw [Driver.Process.departures_running ha (by simp), Driver.approaching, hfree]
      rfl
    · rw [Driver.Process.requests, Driver.Process.mailbox, ha]
      rfl

/-- What an undisturbed ride has come to when it is at rest. -/
theorem Sound.ends (hs : t.Sound distance own) (hrest : t.world.AtRest) :
    (∀ d a mailbox, (t.world.drivers d).actor = some (a, mailbox) → a.isAvailable = true) ∧
      ∃ p, t.world.passenger = some (p, []) ∧
        (t.paid = 1 ∧ t.world.accepted = 1 ∧ t.world.arrivals = 1 ∧
            p.info.position = p.info.destination ∨
          t.paid = 0 ∧ t.world.accepted = 0 ∧ t.world.arrivals = 0 ∧
            p.Exhausted distance p.driversInfo) := by
  obtain ⟨p, hp⟩ := hrest.passenger
  refine ⟨fun d a mailbox ha => ?_, p, hp, ?_⟩
  · have hstarted : t.world.starts d ≠ 0 := fun hzero => by
      rw [hs.fresh d hzero] at ha
      cases ha
    obtain ⟨a', ha'⟩ := hrest.drivers d hstarted
    obtain ⟨rfl, rfl⟩ := Prod.mk.inj (Option.some.inj (ha.symm.trans ha'))
    exact (hs.drivers d).free_of_rest ha'
  · have hsearch : t.world.search = 0 := by
      simp [World.search, hp, hrest.asks, hrest.auths, hrest.up, hrest.down]
    have hway : t.way = 0 := by
      rw [way_of_actor hp]
      rfl
    have hload : t.load own none = 1 := hs.token.eq_one fun place hne => by
      cases place with
      | none => exact absurd rfl hne
      | some d => exact (hs.driver_at_rest hrest d).1
    have haccepted : t.searches own none = 1 := hs.search.eq_one fun place hne => by
      cases place with
      | none => exact absurd rfl hne
      | some d => exact (hs.driver_at_rest hrest d).2
    have harrivals := hs.arrivals
    have hrider := hs.rider p [] hp
    simp only [load, hsearch, hrest.down, List.countP_nil, hway] at hload
    simp only [searches, hsearch] at haccepted
    rcases Nat.eq_zero_or_pos t.gaveUp with hzero | hpos
    · exact .inl ⟨by omega, by omega, by omega, hrider.arrived (by omega)⟩
    · exact .inr ⟨by omega, by omega, by omega, hrider.gaveUp (by omega)⟩

end Trip

end ConcuRide
