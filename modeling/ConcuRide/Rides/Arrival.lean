import ConcuRide.Lib.Budget
import ConcuRide.Rides.Grid

set_option autoImplicit false

/-! # An undisturbed ride comes to its end

What is left to do in an undisturbed ride on a grid is a sum over what everybody has in its mailbox
and what is on its way. Every step makes it less, except for what comes from outside, so that a run
is no longer than what it began with and what came from outside; and whoever is not at rest can go
on. -/

namespace ConcuRide

open Lib

variable {g : Grid}

/-! ## Runs on the grid -/

namespace World

/-- Connection `n` leads to somebody, if it is one of this passenger. -/
def Known (own : ℕ → Bool) (w : World) (n : ℕ) : Prop := own n = true → (w.routes n).isSome = true

/-- **An undisturbed step on the grid**: nobody crashes and is started again, no connection is lost,
    a driver is started on a square of the colour, and others ask for rides between places. -/
def allowed (g : Grid) (w : World) : Label → Bool
  | .crashPassenger | .restartPassenger _ _ _ | .crashDriver _ | .linkDies _ => false
  | .notice m => m.isPlain
  | .startDriver d at_ => decide (w.starts d = 0) && g.holds at_.position
  | .foreign _ m => m.fits g
  | _ => true

/-- Everybody is on the grid and runs, and every line on its way can arrive. -/
structure OnGrid (g : Grid) (own : ℕ → Bool) (w : World) : Prop where
  passenger : ∃ p mailbox, w.passenger = some (p, mailbox) ∧
    p.OnGrid g (w.Known own) w.auths mailbox ∧
      (w.arrivals = 0 → g.isPlace p.info.position = true)
  drivers : ∀ d, w.starts d ≠ 0 → ∃ a mailbox, (w.drivers d).actor = some (a, mailbox) ∧
    a.OnGrid g (w.Known own) mailbox
  routes : ∀ n r, w.routes n = some r → w.starts r.driver ≠ 0 ∧
    r.start = w.starts r.driver ∧ r.session = w.session
  up : ∀ l ∈ w.up, (w.routes l.1).isSome = true ∧ ∃ id origin destination,
    l.2 = .requestRide id origin destination ∧
      g.isPlace origin = true ∧ g.isPlace destination = true
  down : ∀ l ∈ w.down, (w.routes l.1).isSome = true

variable {own : ℕ → Bool} {distance : Position → Position → ℕ} {name : String} {w w' : World}
  {l : Label} {p : Passenger} {mailbox new : List Passenger.Msg} {d : String}

theorem OnGrid.healthy (h : w.OnGrid g own) : w.Healthy where
  passenger := by
    obtain ⟨p, mailbox, hp, -⟩ := h.passenger
    rw [hp]
    rfl
  drivers := fun d hd => by
    obtain ⟨a, mailbox, ha, -⟩ := h.drivers d hd
    rw [ha]
    rfl

theorem OnGrid.of_actor (h : w.OnGrid g own) (hp : w.passenger = some (p, mailbox)) :
    p.OnGrid g (w.Known own) w.auths mailbox ∧
      (w.arrivals = 0 → g.isPlace p.info.position = true) := by
  obtain ⟨p', mailbox', hp', hin⟩ := h.passenger
  obtain ⟨rfl, rfl⟩ := Prod.mk.inj (Option.some.inj (hp.symm.trans hp'))
  exact hin

/-- No driver takes another passenger for its own. -/
theorem OnGrid.undisturbed (h : w.OnGrid g own) (hfresh : ∀ d, w.starts d = 0 → w.drivers d = .init)
    (hok : w.allowed g l = true) : w.undisturbed own l = true := by
  cases l with
  | drives d o =>
      rw [World.undisturbed, Bool.not_eq_true', Driver.Process.misled]
      by_cases hd : w.starts d = 0
      · rw [hfresh d hd]
        rfl
      · obtain ⟨a, box, ha, hin⟩ := h.drivers d hd
        rw [ha]
        cases box with
        | nil => rfl
        | cons m rest =>
            have hm := (hin.mailbox m List.mem_cons_self).1
            cases m with
            | passengerRecover => cases hm
            | _ => rfl
  | startDriver => exact (Bool.and_eq_true _ _ ▸ hok).1
  | foreign d m =>
      cases m with
      | passengerRecover | reconnectPassenger | recovery => cases hok
      | _ => rfl
  | notice => exact hok
  | crashPassenger | restartPassenger | crashDriver | linkDies => cases hok
  | _ => rfl

/-! ### Everybody stays on the grid -/

variable {q : Passenger} {m : Passenger.Msg} {rest : List Passenger.Msg}
  {effects : List Passenger.Effect} {o : Passenger.Oracle} {t : Trip}

/-- A driver that runs has been started. -/
theorem starts_of_runs (hfresh : ∀ d, w.starts d = 0 → w.drivers d = .init)
    (hruns : (w.drivers d).actor.isSome = true) : w.starts d ≠ 0 := fun hzero => by
  rw [hfresh d hzero] at hruns
  cases hruns

/-- A connection that is opened leads to a driver that runs. -/
theorem opens_of_recv (hactor : w.passenger = some (p, m :: rest))
    (h : w.recv distance own o d = some w') {n : ℕ} (hn : o.driver = some n) :
    w.routes n = none ∧ (w.drivers d).actor.isSome = true := by
  unfold World.recv at h
  rw [hactor] at h
  simp only at h
  split at h
  · next hok =>
      simp only [World.reaches, hn, Option.all_some, Bool.and_eq_true, Option.any_eq_true,
        Option.isNone_iff_eq_none] at hok
      obtain ⟨-, ⟨-, hnone⟩, a, ha, -⟩ := hok
      exact ⟨hnone, by rw [ha]; rfl⟩
  · cases h

/-- The routes after a handler of the passenger: those before, and the one it has opened. -/
theorem routes_handled {n : ℕ} {r : Route} (hnew : ∀ n, o.driver = some n → w.routes n = none) :
    (w.handled o d q rest effects).routes n = some r ↔
      w.routes n = some r ∨ o.driver = some n ∧ r = ⟨d, w.starts d, w.session⟩ := by
  simp only [handled]
  cases ho : o.driver with
  | none => simp
  | some k =>
      by_cases hk : n = k
      · subst hk
        simp [hnew n ho, eq_comm]
      · simp [Function.update_of_ne hk, Ne.symm hk]

theorem onGrid_handled (h : t.world.OnGrid g own) (hs : t.Sound distance own)
    (hworld : t.world.Sound own) (hactor : t.world.passenger = some (p, m :: rest))
    (hlink : t.world.linkOk p o = true) (hh : p.handle distance o m = some (q, effects))
    (hrecv : t.world.recv distance own o d = some w')
    (hw : w' = t.world.handled o d q rest effects) : w'.OnGrid g own := by
  obtain ⟨hin, horigin⟩ := h.of_actor hactor
  have hm := (hs.rider p _ hactor).plain m List.mem_cons_self
  have hhands := Passenger.handle_handsOn hh hm (Trip.linked hs hworld hactor hlink)
  have hopens := fun n hn => @opens_of_recv _ _ _ _ _ _ _ _ _ hactor hrecv n hn
  have hroutes := fun n r => @routes_handled t.world d q rest effects o n r
    fun n hn => (hopens n hn).1
  have hold : ∀ n, (t.world.routes n).isSome = true → (w'.routes n).isSome = true := by
    intro n hn
    obtain ⟨r, hr⟩ := Option.isSome_iff_exists.1 hn
    rw [hw, (hroutes n r).2 (.inl hr)]
    rfl
  have hmono : ∀ n, t.world.Known own n → w'.Known own n := fun n hn hown => hold n (hn hown)
  constructor
  case passenger =>
    refine ⟨q, _, by rw [hw]; rfl, ?_, fun hzero => ?_⟩
    · rw [show w'.auths = t.world.auths + Passenger.authorizations effects by rw [hw]; rfl]
      refine hin.handled hhands hm hh hmono fun n hn _ => ?_
      rw [hw, (hroutes n _).2 (.inr ⟨hn, rfl⟩)]
      rfl
    · -- the passenger has not left yet
      have hzero' : t.world.arrivals = 0 := by
        rw [hw] at hzero
        exact hzero
      have hway : m.isWay = false := by
        have hcount := Trip.way_of_actor hactor
        have harrivals := hs.arrivals
        rw [countP_cons_toNat] at hcount
        exact Bool.toNat_eq_zero.1 (by omega)
      rw [hhands.position hway]
      exact horigin hzero'
  case drivers =>
    intro x hx
    obtain ⟨a, box, ha, hin⟩ := h.drivers x (by rw [hw] at hx; exact hx)
    exact ⟨a, box, by rw [hw]; exact ha, hin.mono hmono⟩
  case routes =>
    intro n r hr
    rw [hw] at hr ⊢
    rcases (hroutes n r).1 hr with hr | ⟨hn, rfl⟩
    · exact h.routes n r hr
    · exact ⟨starts_of_runs hs.fresh (hopens n hn).2, rfl, rfl⟩
  case up =>
    intro l hl
    rw [hw] at hl
    rcases List.mem_append.1 hl with hl | hl
    · exact ⟨hold _ (h.up l hl).1, (h.up l hl).2⟩
    · obtain ⟨x, hx, rfl⟩ := List.mem_map.1 hl
      obtain ⟨rfl, hconn, hline⟩ := Passenger.request_of_handle hm hh x hx
      refine ⟨hold _ (hin.connections _ hconn ((hs.rider p _ hactor).connections _ hconn)),
        _, _, _, hline, horigin ?_, hin.destination⟩
      -- the token is with the search, and the way has not begun
      have hone : t.load own none ≤ 1 := hs.token.atMost.le_one none
      have hsearch := World.search_of_actor hactor
      have harrivals := hs.arrivals
      rw [List.countP_cons_of_pos rfl] at hsearch
      simp only [Trip.load] at hone
      omega
  case down =>
    intro l hl
    rw [hw] at hl
    exact hold _ (h.down l hl)

/-- Messages arrive at the passenger. -/
theorem onGrid_enqueue {w₀ : World} (h : w.OnGrid g own) (hnext : w₀.enqueue new = some w')
    (hpassenger : w₀.passenger = w.passenger) (hdrivers : w₀.drivers = w.drivers)
    (hstarts : w₀.starts = w.starts) (hroutes : w₀.routes = w.routes)
    (hsession : w₀.session = w.session) (hup : w₀.up = w.up)
    (hdown : ∀ l ∈ w₀.down, l ∈ w.down) (harrivals : w.arrivals ≤ w₀.arrivals)
    (hdialled : w₀.auths ≠ 0 ∨ .requestDrive ∈ new → w.auths ≠ 0) : w'.OnGrid g own := by
  obtain ⟨⟨p, mailbox⟩, hp, rfl⟩ := Option.map_eq_some_iff.1 hnext
  obtain ⟨hin, horigin⟩ := h.of_actor (hpassenger ▸ hp)
  have hknown : World.Known own { w₀ with passenger := some (p, mailbox ++ new) } =
      w.Known own := by
    funext n
    simp only [Known, hroutes]
  constructor
  case passenger =>
    refine ⟨p, mailbox ++ new, rfl, ?_, fun hzero => horigin ?_⟩
    · rw [hknown]
      exact hin.append hdialled
    · have hzero : w₀.arrivals = 0 := hzero
      omega
  case drivers =>
    rw [hknown]
    intro x hx
    rw [show World.starts _ = w.starts from hstarts] at hx
    rw [show World.drivers _ = w.drivers from hdrivers]
    exact h.drivers x hx
  case routes =>
    intro n r hr
    have hr : w₀.routes n = some r := hr
    have := h.routes n r (hroutes ▸ hr)
    simpa only [hstarts, hsession] using this
  case up =>
    intro l hl
    have hl : l ∈ w₀.up := hl
    have := h.up l (hup ▸ hl)
    simpa only [hroutes] using this
  case down =>
    intro l hl
    have := h.down l (hdown l hl)
    simpa only [hroutes] using this

/-- A step of one driver. -/
theorem OnGrid.driver (h : w.OnGrid g own) (hpassenger : w'.passenger = w.passenger)
    (hauths : w'.auths = w.auths) (harrivals : w'.arrivals = w.arrivals)
    (hroutes : w'.routes = w.routes) (hsession : w'.session = w.session)
    (hothers : ∀ x, x ≠ d → w'.drivers x = w.drivers x ∧ w'.starts x = w.starts x)
    (hstarts : w.starts d ≠ 0 → w'.starts d = w.starts d)
    (hself : ∃ a box, (w'.drivers d).actor = some (a, box) ∧ a.OnGrid g (w.Known own) box)
    (hup : ∀ l ∈ w'.up, l ∈ w.up) (hdown : ∀ l ∈ w'.down, (w.routes l.1).isSome = true) :
    w'.OnGrid g own := by
  have hknown : w'.Known own = w.Known own := by
    funext n
    simp only [Known, hroutes]
  constructor
  case passenger =>
    rw [hknown, hpassenger, hauths, harrivals]
    exact h.passenger
  case drivers =>
    intro x hx
    rw [hknown]
    by_cases hxd : x = d
    · exact hxd ▸ hself
    · rw [(hothers x hxd).2] at hx
      rw [(hothers x hxd).1]
      exact h.drivers x hx
  case routes =>
    intro n r hr
    rw [hroutes] at hr
    obtain ⟨hruns, hstart, hsame⟩ := h.routes n r hr
    have hkept : w'.starts r.driver = w.starts r.driver := by
      by_cases hrd : r.driver = d
      · rw [hrd] at hruns ⊢
        exact hstarts hruns
      · exact (hothers _ hrd).2
    rw [hkept, hsession]
    exact ⟨hruns, hstart, hsame⟩
  case up =>
    intro l hl
    rw [hroutes]
    exact h.up l (hup l hl)
  case down =>
    intro l hl
    rw [hroutes]
    exact hdown l hl

/-- A message arrives at a driver. -/
theorem onGrid_enqueueDriver {s : Driver.Process} {x : Driver.Msg}
    {up : List (ℕ × Passenger.DriverLine)} (h : w.OnGrid g own)
    (hfresh : ∀ d, w.starts d = 0 → w.drivers d = .init)
    (hx : x.fits g = true) (hknown : ∀ r, x = .requestRide r → w.Known own r.addr)
    (hup : ∀ l ∈ up, l ∈ w.up) (hnext : (w.drivers d).enqueue x = some s) :
    World.OnGrid g own { w.setDriver d s with up := up } := by
  have hstarted := starts_of_runs hfresh (enqueueDriver_isSome hnext)
  obtain ⟨⟨a, box⟩, ha, rfl⟩ := Option.map_eq_some_iff.1 hnext
  obtain ⟨a', box', ha', hin⟩ := h.drivers d hstarted
  obtain ⟨rfl, rfl⟩ := Prod.mk.inj (Option.some.inj (ha.symm.trans ha'))
  refine h.driver (d := d) rfl rfl rfl rfl rfl (fun y hy => ⟨setDriver_other w _ hy, rfl⟩)
    (fun _ => rfl) ⟨a, box ++ [x], ?_, hin.append hx hknown⟩ hup h.down
  exact congrArg Driver.Process.actor (setDriver_same w d _)

/-- A driver handles a message. -/
theorem onGrid_drives {o : Driver.Oracle} {s : Driver.Process} {effects : List Driver.Effect}
    {accepted : ℕ} (h : w.OnGrid g own) (hfresh : ∀ d, w.starts d = 0 → w.drivers d = .init)
    (hrecv : (w.drivers d).recv o = some (s, effects)) :
    World.OnGrid g own { w.setDriver d s with
      down := w.down ++ (Driver.passengerLines effects).filter fun l => own l.1
      accepted := accepted } := by
  obtain ⟨a, box, ha, hin⟩ := h.drivers d (starts_of_runs hfresh (recvDriver_isSome hrecv))
  rcases Driver.Process.recv_cases hrecv with ⟨d', m, rest, hactor, hpanics, -⟩ |
    ⟨d', m, rest, t, hactor, hh, rfl⟩
  · obtain ⟨rfl, rfl⟩ := Prod.mk.inj (Option.some.inj (ha.symm.trans hactor))
    have hsome := hin.handle_isSome o
    rw [hpanics] at hsome
    cases hsome
  · obtain ⟨rfl, rfl⟩ := Prod.mk.inj (Option.some.inj (ha.symm.trans hactor))
    obtain ⟨ht, hlines⟩ := hin.handled hh
    refine h.driver (d := d) rfl rfl rfl rfl rfl (fun y hy => ⟨setDriver_other w _ hy, rfl⟩)
      (fun _ => rfl) ⟨t, _, congrArg Driver.Process.actor (setDriver_same w d _), ht⟩
      (fun _ hl => hl) (List.forall_mem_append.2 ⟨h.down, fun l hl => ?_⟩)
    obtain ⟨hl, hown⟩ := List.mem_filter.1 hl
    exact hlines l hl hown

/-- A driver is started. -/
theorem onGrid_startDriver {at_ : Driver.Launch} {s : Driver.Process} (h : w.OnGrid g own)
    (hfresh : ∀ d, w.starts d = 0 → w.drivers d = .init) (hfirst : w.starts d = 0)
    (hposition : g.holds at_.position = true)
    (hnext : (w.drivers d).step d (startLabel (w.drivers d) at_) = some s) :
    World.OnGrid g own { w.setDriver d s with
      starts := Function.update w.starts d (w.starts d + 1) } := by
  rw [hfresh d hfirst] at hnext
  obtain rfl := Option.some.inj hnext
  refine h.driver (d := d) rfl rfl rfl rfl rfl
    (fun y hy => ⟨setDriver_other w _ hy, Function.update_of_ne hy ..⟩)
    (fun hne => absurd hfirst hne) ⟨_, _, congrArg Driver.Process.actor (setDriver_same w d _), ?_⟩
    (fun _ hl => hl) h.down
  exact ⟨hposition, by simp [Driver.start], by simp [Driver.start], by simp [Driver.start],
    by simp [Driver.Msg.fits]⟩

/-- **Nobody leaves the grid** in a step that is allowed there. -/
theorem onGrid_step (h : t.world.OnGrid g own) (hs : t.Sound distance own)
    (hworld : t.world.Sound own) (hok : t.world.allowed g l = true)
    (hstep : t.world.step distance own name l = some w') : w'.OnGrid g own := by
  cases step_cases hstep with
  | handles hactor hlink hh => exact onGrid_handled h hs hworld hactor hlink hh hstep rfl
  | @panics o _ p m _ hactor hh =>
      have hsome : (p.handle distance o m).isSome = true := (h.of_actor hactor).1.handle_isSome o
      rw [hh] at hsome
      cases hsome
  | @notice m _ hm hnext =>
      refine onGrid_enqueue h hnext rfl rfl rfl rfl rfl rfl (fun _ hl => hl) (Nat.le_refl _) ?_
      refine fun hdialled => hdialled.resolve_right fun hmem => ?_
      obtain rfl := List.mem_singleton.1 hmem
      cases hm
  | answer hi hnext =>
      exact onGrid_enqueue h hnext rfl rfl rfl rfl rfl rfl (fun _ hl => hl) (Nat.le_refl _)
        (by simp)
  | gateway hauths hnext =>
      exact onGrid_enqueue h hnext rfl rfl rfl rfl rfl rfl (fun _ hl => hl) (Nat.le_refl _)
        fun _ => hauths.ne'
  | toDriver hline hnext =>
      obtain ⟨hroute, id, origin, destination, hrequest, horigin, hdestination⟩ :=
        h.up _ (List.mem_of_getElem? hline)
      obtain rfl := hrequest
      refine onGrid_enqueueDriver h hs.fresh ?_ (fun r heq _ => ?_)
        (fun l hl => List.mem_of_mem_eraseIdx hl) hnext
      · simp [Passenger.DriverLine.toMsg, Driver.Msg.fits, horigin, hdestination]
      · obtain rfl := Driver.Msg.requestRide.inj heq
        exact hroute
  | @toPassenger i n line p mailbox hline hactor =>
      have hresponse : line.isResponse = false := hs.down _ (List.mem_of_getElem? hline)
      have harrives : World.enqueue
          { t.world with
            down := t.world.down.eraseIdx i
            arrivals := if line.isArrived then t.world.arrivals + 1 else t.world.arrivals }
          [line.toMsg] = some { t.world with
            passenger := some (p, mailbox ++ [line.toMsg])
            down := t.world.down.eraseIdx i
            arrivals := if line.isArrived then t.world.arrivals + 1 else t.world.arrivals } :=
        Option.map_eq_some_iff.2 ⟨(p, mailbox), hactor, rfl⟩
      refine onGrid_enqueue h harrives rfl rfl rfl rfl rfl rfl
        (fun l hl => List.mem_of_mem_eraseIdx hl) ?_ ?_
      · dsimp only
        split <;> omega
      · refine fun hdialled => hdialled.resolve_right fun hmem => ?_
        cases line <;> simp [Driver.PassengerLine.toMsg] at hmem
  | drives hrecv hlines => exact hlines ▸ onGrid_drives h hs.fresh hrecv
  | @foreign d m s hm hnext =>
      refine onGrid_enqueueDriver h hs.fresh hok (fun r heq hown => ?_) (fun _ hl => hl) hnext
      rw [heq, Driver.Msg.isForeign, hown] at hm
      cases hm
  | startDriver hnext =>
      rw [allowed, Bool.and_eq_true, decide_eq_true_eq] at hok
      exact onGrid_startDriver h hs.fresh hok.1 hok.2 hnext
  | linkDies | crashPassenger | restartPassenger | crashDriver => cases hok

theorem onGrid_init {position destination : Position} {k : ℕ}
    (hposition : g.isPlace position = true) (hdestination : g.isPlace destination = true) :
    (init name position destination k).OnGrid g own where
  passenger := ⟨_, _, rfl, ⟨Grid.holds_of_isPlace hposition, hdestination,
    by simp [Passenger.start], by simp [init, launched]⟩, fun _ => hposition⟩
  drivers := fun d hd => absurd rfl hd
  routes := fun n r hr => by cases hr
  up := fun l hl => by cases hl
  down := fun l hl => by cases hl

/-! ### Every step is paid for -/

variable {S : Finset String} {n n' : ℕ}

/-- What a driver has left to do. -/
def chores (g : Grid) (own : ℕ → Bool) (n : ℕ) (s : Driver.Process) : ℕ :=
  s.actor.elim 0 fun a => (a.2.map (g.driverWork own n a.1)).sum

/-- What others have left to do for a passenger with `n` more drivers to ask: the leader, the
    gateway, and the drivers of `S` with the lines to them and back. -/
def errands (g : Grid) (own : ℕ → Bool) (S : Finset String) (n : ℕ) (w : World) : ℕ :=
  w.asks.length * g.askWork + w.auths * g.authorizationWork n + w.up.length * g.requestWork n +
    (w.down.map fun l => g.lineWork n l.2).sum + S.sum fun d => chores g own n (w.drivers d)

/-- What is left to do. -/
def work (g : Grid) (own : ℕ → Bool) (S : Finset String) (w : World) : ℕ :=
  w.passenger.elim 0 fun a =>
    (a.2.map (g.passengerWork a.1)).sum + w.errands g own S a.1.driversInfo.length

/-- What a step from outside adds to it. -/
def price (g : Grid) : Label → ℕ
  | .answer _ driversInfo => 8 * driversInfo.length
  | .notice _ => 2
  | .startDriver _ _ => 4
  | .foreign _ (.requestRide _) => g.ride + 1
  | .foreign _ _ => 2
  | _ => 0

/-- The driver that a step starts. -/
def startedBy : Label → Option String
  | .startDriver d _ => some d
  | _ => none

theorem work_of_actor (hp : w.passenger = some (p, mailbox)) : w.work g own S =
    (mailbox.map (g.passengerWork p)).sum + w.errands g own S p.driversInfo.length := by
  rw [work, hp]
  rfl

/-- A driver that no request of the passenger waits for does not ask how many there are. -/
theorem chores_same {s : Driver.Process} (h : s.requests own = 0) :
    chores g own n' s = chores g own n s := by
  unfold chores
  cases ha : s.actor with
  | none => rfl
  | some a =>
      refine congrArg List.sum (List.map_congr_left fun m hm => ?_)
      rw [Driver.Process.requests, Driver.Process.mailbox, ha, List.countP_eq_zero] at h
      cases m with
      | requestRide r =>
          have hother : own r.addr = false := by simpa [Driver.Msg.isRequestOf] using h _ hm
          simp [Grid.driverWork, hother]
      | _ => rfl

/-- Only the tokens of the search ask how many drivers there are. -/
theorem errands_same (hauths : w.auths = 0) (hup : w.up = [])
    (hdown : w.down.countP (fun l => l.2.isNo) = 0)
    (hdrivers : ∀ d, (w.drivers d).requests own = 0) :
    w.errands g own S n' = w.errands g own S n := by
  have hlines : (w.down.map fun l => g.lineWork n' l.2) = w.down.map fun l => g.lineWork n l.2 := by
    refine List.map_congr_left fun l hl => ?_
    have hno := List.countP_eq_zero.1 hdown l hl
    cases hline : l.2 with
    | no => simp [hline, Driver.PassengerLine.isNo] at hno
    | _ => rfl
  have hsum : (S.sum fun d => chores g own n' (w.drivers d)) =
      S.sum fun d => chores g own n (w.drivers d) :=
    Finset.sum_congr rfl fun d _ => chores_same (hdrivers d)
  rw [errands, errands, hlines, hsum, hauths, hup]
  simp

/-- The messages that the passenger handles later stay as they are. -/
theorem passengerWork_same (hhands : p.HandsOn distance o m q effects)
    (htoken : m.isToken = true → rest.countP Passenger.Msg.isToken = 0)
    (hway : m.isWay = true → rest.countP Passenger.Msg.isWay = 0) :
    (rest.map (g.passengerWork q)).sum = (rest.map (g.passengerWork p)).sum := by
  refine congrArg List.sum (List.map_congr_left fun x hx => ?_)
  have hlist : x.isToken = true → q.driversInfo = p.driversInfo := fun hxtoken => by
    refine hhands.list ?_
    cases hm : m.isToken with
    | false => rfl
    | true => exact absurd hxtoken (List.countP_eq_zero.1 (htoken hm) x hx)
  cases x with
  | requestDrive | keepLooking => simp only [Grid.passengerWork, hlist rfl]
  | traveling =>
      have hmway : m.isWay = false := by
        cases hm : m.isWay with
        | false => rfl
        | true => exact absurd rfl (List.countP_eq_zero.1 (hway hm) _ hx)
      simp only [Grid.passengerWork, hhands.position hmway, hhands.destination]
  | _ => rfl

theorem work_handled (h : t.world.OnGrid g own) (hs : t.Sound distance own)
    (hworld : t.world.Sound own) (hactor : t.world.passenger = some (p, m :: rest))
    (hlink : t.world.linkOk p o = true) (hh : p.handle distance o m = some (q, effects)) :
    (t.world.handled o d q rest effects).work g own S < t.world.work g own S := by
  obtain ⟨hin, -⟩ := h.of_actor hactor
  have hm := (hs.rider p _ hactor).plain m List.mem_cons_self
  have hup := Trip.linked hs hworld hactor hlink
  have hhands := Passenger.handle_handsOn hh hm hup
  have hself := hin.work_lt hm hup hh
  have hone : t.load own none ≤ 1 := hs.token.atMost.le_one none
  have hsearch := World.search_of_actor hactor
  have hway := Trip.way_of_actor hactor
  rw [countP_cons_toNat] at hsearch hway
  simp only [Trip.load] at hone
  have hrest : (rest.map (g.passengerWork q)).sum = (rest.map (g.passengerWork p)).sum := by
    refine passengerWork_same hhands (fun htoken => ?_) fun hmway => ?_
    · rw [htoken, Bool.toNat_true] at hsearch
      omega
    · rw [hmway, Bool.toNat_true] at hway
      omega
  have herrands : t.world.errands g own S q.driversInfo.length =
      t.world.errands g own S p.driversInfo.length := by
    cases htoken : m.isToken with
    | false => rw [hhands.list htoken]
    | true =>
        rw [htoken, Bool.toNat_true] at hsearch
        refine errands_same (by omega) ?_ (by omega) fun d => ?_
        · have hnone : t.world.up.countP (fun l => l.2.isRequest) = 0 := by omega
          rw [List.countP_eq_zero] at hnone
          exact List.eq_nil_iff_forall_not_mem.2 fun l hl => hnone l hl (hs.up l hl).2
        · refine hs.search.atMost.others (p := none) ?_ (Option.some_ne_none d)
          simp only [Trip.searches]
          omega
  have hlines : (t.world.handled o d q rest effects).errands g own S q.driversInfo.length =
      t.world.errands g own S q.driversInfo.length + Passenger.asks effects * g.askWork +
        Passenger.authorizations effects * g.authorizationWork q.driversInfo.length +
        (Passenger.driverLines effects).length * g.requestWork q.driversInfo.length := by
    simp only [errands, handled, hs.dead, Bool.false_eq_true, if_false, List.length_append,
      List.length_replicate, List.length_map, Nat.add_mul]
    omega
  rw [work_of_actor hactor, work_of_actor (w := t.world.handled o d q rest effects) rfl, hlines,
    List.map_append, List.sum_append, List.map_cons, List.sum_cons]
  omega

/-- Messages arrive at the passenger. -/
theorem work_enqueue {w₀ : World} (hnext : w₀.enqueue new = some w')
    (hactor : w₀.passenger = some (p, mailbox)) : w'.work g own S =
      (mailbox.map (g.passengerWork p)).sum + (new.map (g.passengerWork p)).sum +
        w₀.errands g own S p.driversInfo.length := by
  obtain ⟨⟨p', mailbox'⟩, hp', rfl⟩ := Option.map_eq_some_iff.1 hnext
  obtain ⟨rfl, rfl⟩ := Prod.mk.inj (Option.some.inj (hactor.symm.trans hp'))
  rw [work_of_actor (w := { w₀ with passenger := some (p, mailbox ++ new) }) rfl, List.map_append,
    List.sum_append]
  rfl

/-- One driver has something else to do. -/
theorem sum_chores {s : Driver.Process} (hd : d ∈ S) :
    (S.sum fun x => chores g own n ((w.setDriver d s).drivers x)) + chores g own n (w.drivers d) =
      (S.sum fun x => chores g own n (w.drivers x)) + chores g own n s := by
  have hsum := sum_add_of_eq_others (f := fun x => chores g own n (w.drivers x))
    (g := fun x => chores g own n ((w.setDriver d s).drivers x)) hd
    fun x _ hx => by rw [setDriver_other w s hx]
  rwa [setDriver_same] at hsum

theorem chores_enqueue {s s' : Driver.Process} {x : Driver.Msg} (h : s.enqueue x = some s') :
    ∃ a, chores g own n s' = chores g own n s + g.driverWork own n a x := by
  obtain ⟨⟨a, box⟩, ha, rfl⟩ := Option.map_eq_some_iff.1 h
  refine ⟨a, ?_⟩
  simp [chores, ha]

/-- A driver that handles a message has less to do, with the lines it sends. -/
theorem chores_recv {s : Driver.Process} {o : Driver.Oracle} {effects : List Driver.Effect}
    (h : w.OnGrid g own) (hd : w.starts d ≠ 0) (hcalm : (w.drivers d).Calm own)
    (hrecv : (w.drivers d).recv o = some (s, effects)) :
    chores g own n s + Driver.told g own n effects < chores g own n (w.drivers d) := by
  obtain ⟨a, box, ha, hin⟩ := h.drivers d hd
  rcases Driver.Process.recv_cases hrecv with ⟨d', m, rest, hactor, hpanics, -⟩ |
    ⟨d', m, rest, t, hactor, hh, rfl⟩
  · obtain ⟨rfl, rfl⟩ := Prod.mk.inj (Option.some.inj (ha.symm.trans hactor))
    have hsome := hin.handle_isSome o
    rw [hpanics] at hsome
    cases hsome
  · obtain ⟨rfl, rfl⟩ := Prod.mk.inj (Option.some.inj (ha.symm.trans hactor))
    have hread : ∀ x ∈ m :: rest, x.isRecovery = false := fun x hx =>
      Driver.isRecovery_of_isPlain (hcalm.plain x (by rw [Driver.Process.mailbox, ha]; exact hx))
    have htoken := ((hcalm.sound.actor a _ ha).of_read hread).2
    have hpays := @Driver.OnGrid.pays g _ own _ _ _ _ _ _ n hin htoken hh
    simpa [chores, ha] using hpays

/-- A step of one driver, which takes lines from the passenger and sends others to it. -/
theorem work_driver {s : Driver.Process} (hactor : w.passenger = some (p, mailbox)) (hd : d ∈ S)
    (hpassenger : w'.passenger = w.passenger) (hasks : w'.asks = w.asks)
    (hauths : w'.auths = w.auths) (hdrivers : w'.drivers = (w.setDriver d s).drivers) :
    w'.work g own S + chores g own p.driversInfo.length (w.drivers d) +
        (w.up.length * g.requestWork p.driversInfo.length +
          (w.down.map fun l => g.lineWork p.driversInfo.length l.2).sum) =
      w.work g own S + chores g own p.driversInfo.length s +
        (w'.up.length * g.requestWork p.driversInfo.length +
          (w'.down.map fun l => g.lineWork p.driversInfo.length l.2).sum) := by
  have hsum := @sum_chores g own w d S p.driversInfo.length s hd
  rw [work_of_actor (hpassenger.trans hactor), work_of_actor hactor]
  simp only [errands, hasks, hauths, hdrivers]
  omega

/-- The passenger has less to do with a line than was left while the line was on its way. -/
theorem passengerWork_toMsg {line : Driver.PassengerLine} (h : line.isResponse = false) :
    g.passengerWork p line.toMsg + 1 ≤ g.lineWork p.driversInfo.length line := by
  cases line with
  | recoverResponse => cases h
  | _ => simp [Driver.PassengerLine.toMsg, Grid.passengerWork, Grid.lineWork]

/-- What others ask of a driver is paid for when they ask. -/
theorem driverWork_foreign {a : Driver} {m : Driver.Msg} (hm : m.isForeign own = true)
    (hfits : m.fits g = true) : g.driverWork own n a m + 1 ≤ price g (.foreign d m) := by
  cases m with
  | requestRide r =>
      have hother : own r.addr = false := by simpa [Driver.Msg.isForeign] using hm
      simp [Grid.driverWork, price, hother]
  | _ => first | exact Nat.le_refl 2 | cases hm

/-- **Every step is paid for**: what is left to do becomes less, except for what comes from
    outside. -/
theorem work_step (h : t.world.OnGrid g own) (hs : t.Sound distance own)
    (hworld : t.world.Sound own) (hok : t.world.allowed g l = true)
    (hstarted : ∀ d, t.world.starts d ≠ 0 → d ∈ S) (hnew : ∀ d at_, l = .startDriver d at_ → d ∈ S)
    (hstep : t.world.step distance own name l = some w') :
    w'.work g own S + 1 ≤ t.world.work g own S + price g l := by
  obtain ⟨p, mailbox, hp, hin, -⟩ := h.passenger
  have hwork := @work_of_actor g own t.world p mailbox S hp
  cases step_cases hstep with
  | handles hactor hlink hh => exact work_handled h hs hworld hactor hlink hh
  | @panics o _ p m _ hactor hh =>
      have hsome : (p.handle distance o m).isSome = true := (h.of_actor hactor).1.handle_isSome o
      rw [hh] at hsome
      cases hsome
  | @notice m _ hm hnext =>
      have hone : g.passengerWork p m = 1 := by
        cases m <;> first | rfl | cases hm
      have hprice : price g (.notice m) = 2 := rfl
      rw [work_enqueue hnext hp, hwork, List.map_singleton, List.sum_singleton, hone, hprice]
      omega
  | @answer i driversInfo _ hi hnext =>
      have hlength := List.length_eraseIdx_add_one hi
      have hprice : price g (.answer i driversInfo) = 8 * driversInfo.length := rfl
      rw [work_enqueue hnext hp, hwork, List.map_singleton, List.sum_singleton, hprice]
      simp only [errands, ← hlength, Nat.succ_mul, Grid.passengerWork, Grid.askWork]
      omega
  | @gateway isAuthorized _ hauths hnext =>
      obtain ⟨k, hk⟩ := Nat.exists_eq_succ_of_ne_zero hauths.ne'
      have hgateway : ((Passenger.paymentAuthorizationStatus isAuthorized).map
          (g.passengerWork p)).sum + 1 ≤ g.authorizationWork p.driversInfo.length := by
        cases isAuthorized <;>
          simp [Passenger.paymentAuthorizationStatus, Grid.passengerWork, Grid.authorizationWork]
        all_goals omega
      have hprice : price g (.gateway isAuthorized) = 0 := rfl
      rw [work_enqueue hnext hp, hwork, hprice]
      simp only [errands, hk, Nat.succ_sub_one, Nat.succ_mul]
      omega
  | @toDriver i n line d s hline hnext =>
      obtain ⟨hown, -⟩ := hs.up _ (List.mem_of_getElem? hline)
      obtain ⟨-, id, origin, destination, rfl, -⟩ := h.up _ (List.mem_of_getElem? hline)
      obtain ⟨a, hchores⟩ := @chores_enqueue g own p.driversInfo.length _ _ _ hnext
      have hd := hstarted d (starts_of_runs hs.fresh (enqueueDriver_isSome hnext))
      have hdriver := @work_driver g own t.world
        { t.world.setDriver d s with up := t.world.up.eraseIdx i } p mailbox d S s hp hd rfl rfl rfl
        rfl
      have hlength := List.length_eraseIdx_add_one (List.getElem?_eq_some_iff.1 hline).1
      have hprice : price g (.toDriver i) = 0 := rfl
      simp only [Passenger.DriverLine.toMsg, Grid.driverWork, hown, if_true] at hchores
      simp only [← hlength, Nat.succ_mul, Grid.requestWork] at hdriver
      rw [hprice]
      simp only [setDriver] at hdriver ⊢
      omega
  | @toPassenger i n line p' mailbox' hline hactor =>
      obtain ⟨rfl, rfl⟩ := Prod.mk.inj (Option.some.inj (hp.symm.trans hactor))
      have hless : g.passengerWork p line.toMsg + 1 ≤ g.lineWork p.driversInfo.length line :=
        passengerWork_toMsg (hs.down _ (List.mem_of_getElem? hline))
      have hdown := sum_map_eraseIdx (fun l => g.lineWork p.driversInfo.length l.2) hline
      have hprice : price g (.toPassenger i) = 0 := rfl
      rw [work_of_actor (p := p) rfl, hwork, List.map_append, List.sum_append, List.map_singleton,
        List.sum_singleton, hprice]
      simp only [errands] at hdown ⊢
      omega
  | @drives d o s effects lines hrecv hlines =>
      have hfirst := starts_of_runs hs.fresh (recvDriver_isSome hrecv)
      have hless := @chores_recv g own t.world d p.driversInfo.length _ _ _ h hfirst (hs.drivers d)
        hrecv
      have hdriver := @work_driver g own t.world { t.world.setDriver d s with
          down := t.world.down ++ lines
          accepted := t.world.accepted + lines.countP fun l => l.2.isOk }
        p mailbox d S s hp (hstarted d hfirst) rfl rfl rfl rfl
      have hprice : price g (.drives d o) = 0 := rfl
      rw [Driver.told, ← hlines] at hless
      simp only [setDriver, List.map_append, List.sum_append] at hdriver
      rw [hprice]
      simp only [setDriver]
      omega
  | @foreign d m s hm hnext =>
      obtain ⟨a, hchores⟩ := @chores_enqueue g own p.driversInfo.length _ _ _ hnext
      have hd := hstarted d (starts_of_runs hs.fresh (enqueueDriver_isSome hnext))
      have hdriver := @work_driver g own t.world (t.world.setDriver d s) p mailbox d S s hp hd rfl
        rfl rfl rfl
      have hless : g.driverWork own p.driversInfo.length a m + 1 ≤ price g (.foreign d m) :=
        driverWork_foreign hm hok
      simp only [setDriver] at hdriver ⊢
      omega
  | @startDriver d at_ s hnext =>
      rw [allowed, Bool.and_eq_true, decide_eq_true_eq] at hok
      have hinit := hs.fresh d hok.1
      rw [hinit] at hnext
      have hlaunched : chores g own p.driversInfo.length s = 3 := by
        obtain rfl := Option.some.inj hnext
        rfl
      have hdriver := @work_driver g own t.world { t.world.setDriver d s with
          starts := Function.update t.world.starts d (t.world.starts d + 1) }
        p mailbox d S s hp (hnew d at_ rfl) rfl rfl rfl rfl
      have hprice : price g (.startDriver d at_) = 4 := rfl
      rw [hprice]
      simp only [setDriver] at hdriver ⊢
      omega
  | linkDies | crashPassenger | restartPassenger | crashDriver => cases hok

theorem work_init {position destination : Position} {k : ℕ} :
    (init name position destination k).work g own S = 3 * g.size + 21 := by
  have hdrivers :
      (S.sum fun d => chores g own 0 ((init name position destination k).drivers d)) = 0 :=
    Finset.sum_eq_zero fun d _ => rfl
  have hlist : (Passenger.start name position destination false k).driversInfo.length = 0 := rfl
  rw [work_of_actor (p := Passenger.start name position destination false k) rfl, hlist, errands,
    hdrivers]
  simp [launched, init, Grid.passengerWork, Grid.ride]
  omega

/-! ### Somebody can go on -/

/-- The passenger can handle its next message. -/
theorem recv_enabled (hactor : w.passenger = some (p, m :: rest)) :
    (w.recv distance own .up "").isSome = true := by
  have hok : (w.linkOk p .up && w.reaches distance own p m .up "") = true := rfl
  simp only [World.recv, hactor, if_pos hok]
  cases p.handle distance .up m <;> rfl

/-- A driver can handle its next message. -/
theorem drives_enabled {x : Driver.Msg} {xs : List Driver.Msg} {a : Driver}
    (ha : (w.drivers d).actor = some (a, x :: xs)) :
    (w.drives own d Driver.Process.up).isSome = true := by
  unfold drives Driver.Process.recv
  rw [ha]
  cases hh : a.handle Driver.Process.up x <;> simp [hh]

/-- The first line to a driver can arrive. -/
theorem toDriver_enabled {line : ℕ × Passenger.DriverLine} {lines : List (ℕ × Passenger.DriverLine)}
    (h : w.OnGrid g own) (hup : w.up = line :: lines) : (w.toDriver 0).isSome = true := by
  obtain ⟨r, hr⟩ := Option.isSome_iff_exists.1 (h.up line (hup ▸ List.mem_cons_self)).1
  obtain ⟨hstarted, hstart, -⟩ := h.routes _ r hr
  obtain ⟨a, box, ha, -⟩ := h.drivers _ hstarted
  simp [toDriver, hup, hr, hstart, Driver.Process.enqueue, ha]

/-- The first line to the passenger can arrive. -/
theorem toPassenger_enabled {line : ℕ × Driver.PassengerLine}
    {lines : List (ℕ × Driver.PassengerLine)} (h : w.OnGrid g own)
    (hdown : w.down = line :: lines) : (w.toPassenger 0).isSome = true := by
  obtain ⟨r, hr⟩ := Option.isSome_iff_exists.1 (h.down line (hdown ▸ List.mem_cons_self))
  obtain ⟨-, -, hsession⟩ := h.routes _ r hr
  obtain ⟨a, ha⟩ := Option.isSome_iff_exists.1 h.healthy.passenger
  simp [toPassenger, hdown, hr, hsession, enqueue, ha]

/-- **Whoever is not at rest can go on**, and nothing has to come from outside for it. -/
theorem OnGrid.goes_on (h : w.OnGrid g own) (hbusy : ¬ w.AtRest) : ∃ l, price g l = 0 ∧
    w.allowed g l = true ∧ (w.step distance own name l).isSome = true := by
  by_contra! hstuck
  obtain ⟨p, mailbox, hp, -⟩ := h.passenger
  refine hbusy ⟨⟨p, ?_⟩, fun d hd => ?_, ?_, ?_, ?_, ?_⟩
  · cases mailbox with
    | nil => exact hp
    | cons m rest => exact absurd (recv_enabled hp) (hstuck (.recv .up "") rfl rfl)
  · obtain ⟨a, box, ha, -⟩ := h.drivers d hd
    cases box with
    | nil => exact ⟨a, ha⟩
    | cons x xs =>
        exact absurd (drives_enabled ha) (hstuck (.drives d Driver.Process.up) rfl rfl)
  · cases hasks : w.asks with
    | nil => rfl
    | cons k asks =>
        refine absurd ?_ (hstuck (.answer 0 []) rfl rfl)
        simp [World.step, hasks, enqueue, hp]
  · by_contra hauths
    refine absurd ?_ (hstuck (.gateway true) rfl rfl)
    simp [World.step, Nat.pos_of_ne_zero hauths, enqueue, hp]
  · cases hup : w.up with
    | nil => rfl
    | cons line lines => exact absurd (toDriver_enabled h hup) (hstuck (.toDriver 0) rfl rfl)
  · cases hdown : w.down with
    | nil => rfl
    | cons line lines =>
        exact absurd (toPassenger_enabled h hdown) (hstuck (.toPassenger 0) rfl rfl)

end World

namespace Trip

open World

variable {own : ℕ → Bool} {distance : Position → Position → ℕ} {name : String} {t t' : Trip}
  {l : World.Label} {ls : List World.Label} {position destination : Position} {k : ℕ}
  {S : Finset String} {d : String}

/-- The invariant of an undisturbed ride on the grid. -/
structure Undisturbed (g : Grid) (distance : Position → Position → ℕ) (own : ℕ → Bool) (t : Trip) :
    Prop where
  world : t.world.Sound own
  trip : t.Sound distance own
  grid : t.world.OnGrid g own

theorem undisturbed_step (h : t.Undisturbed g distance own) (hok : t.world.allowed g l = true)
    (hstep : t.step distance own name l = some t') : t'.Undisturbed g distance own := by
  obtain ⟨w', hw', rfl⟩ := step_eq hstep
  have hgrid := onGrid_step h.grid h.trip h.world hok hw'
  exact ⟨World.sound_step h.world hw', Trip.sound_step h.trip h.world
    (h.grid.undisturbed h.trip.fresh hok) hw' hgrid.healthy, hgrid⟩

theorem undisturbed_run (hposition : g.isPlace position = true)
    (hdestination : g.isPlace destination = true)
    (h : Run (step distance own name) (fun t l => t.world.allowed g l = true)
      (init name position destination k) ls t) : t.Undisturbed g distance own :=
  h.invariant (fun _ _ _ hs hok hst => undisturbed_step hs hok hst)
    ⟨World.sound_init name position destination k, Trip.sound_init name position destination k,
      onGrid_init hposition hdestination⟩

/-- The steps of a run are paid for with the work at its beginning and with what reaches it from
    outside. -/
theorem work_of_run (hposition : g.isPlace position = true)
    (hdestination : g.isPlace destination = true)
    (h : Run (step distance own name) (fun t l => t.world.allowed g l = true)
      (init name position destination k) ls t) (hS : ∀ d at_, .startDriver d at_ ∈ ls → d ∈ S) :
    t.world.work g own S + ls.length ≤ 3 * g.size + 21 + (ls.map (price g)).sum := by
  rw [← @work_init g own name S position destination k]
  refine h.mem_labels.length_le
    (I := fun t : Trip => t.Undisturbed g distance own ∧ ∀ d, t.world.starts d ≠ 0 → d ∈ S)
    (f := fun t => t.world.work g own S)
    (fun s l s' hinv hok hst => ⟨undisturbed_step hinv.1 hok.1 hst, fun d hd => ?_⟩)
    (fun s l s' hinv hok hst => ?_)
    ⟨⟨World.sound_init name position destination k, Trip.sound_init name position destination k,
      onGrid_init hposition hdestination⟩, fun d hd => absurd rfl hd⟩
  · obtain ⟨w', hw', rfl⟩ := step_eq hst
    rcases World.starts_of_step hw' hd with hold | ⟨at_, rfl⟩
    · exact hinv.2 d hold
    · exact hS d at_ hok.2
  · obtain ⟨w', hw', rfl⟩ := step_eq hst
    exact work_step hinv.1.grid hinv.1.trip hinv.1.world hok.1 hinv.2
      (fun d at_ heq => hS d at_ (heq ▸ hok.2)) hw'

/-- **An undisturbed ride** at rest has come to one of two ends: every driver is free, and either
    one driver has accepted the passenger and arrived, and the passenger has reached its destination
    and has paid once, or no driver has accepted it, and the drivers it knows of are all out of
    `MAX_RANGE`. On a grid it comes to rest: a run is no longer than what comes from outside pays
    for, and as long as it is not at rest somebody can go on without anything from outside. -/
theorem undisturbed_ride
    (h : Run (step distance own name) (fun t l => t.world.undisturbed own l = true)
      (init name position destination k) ls t) :
    (t.world.AtRest →
      (∀ d a mailbox, (t.world.drivers d).actor = some (a, mailbox) → a.isAvailable = true) ∧
        ∃ p, t.world.passenger = some (p, []) ∧
          (t.paid = 1 ∧ t.world.accepted = 1 ∧ t.world.arrivals = 1 ∧
              p.info.position = p.info.destination ∨
            t.paid = 0 ∧ t.world.accepted = 0 ∧ t.world.arrivals = 0 ∧
              p.Exhausted distance p.driversInfo)) ∧
      ∀ g : Grid, g.isPlace position = true → g.isPlace destination = true →
        Run (step distance own name) (fun t l => t.world.allowed g l = true)
          (init name position destination k) ls t →
        ls.length ≤ 3 * g.size + 21 + (ls.map (price g)).sum ∧
          (t.world.AtRest ∨ ∃ l t', price g l = 0 ∧ t.world.allowed g l = true ∧
            t.step distance own name l = some t') := by
  refine ⟨fun hrest => (sound_run h hrest.healthy).ends hrest,
    fun g hposition hdestination hrun => ⟨?_, or_iff_not_imp_left.2 fun hbusy => ?_⟩⟩
  · have hpaid := work_of_run (S := (ls.filterMap startedBy).toFinset) hposition hdestination hrun
      fun d at_ hmem => List.mem_toFinset.2 (List.mem_filterMap.2 ⟨_, hmem, rfl⟩)
    omega
  · have hinv := undisturbed_run hposition hdestination hrun
    obtain ⟨l, hprice, hok, hsome⟩ := @OnGrid.goes_on g own distance name _ hinv.grid hbusy
    obtain ⟨w', hw'⟩ := Option.isSome_iff_exists.1 hsome
    exact ⟨l, _, hprice, hok, Option.map_eq_some_iff.2 ⟨w', hw', rfl⟩⟩

/-- Only a driver of the labels has been started. -/
theorem starts_of_run {ok : Trip → World.Label → Prop}
    (h : Run (step distance own name) ok (init name position destination k) ls t)
    (hd : t.world.starts d ≠ 0) : ∃ at_, .startDriver d at_ ∈ ls := by
  refine h.invariant_labels (P := fun ls t => t.world.starts d ≠ 0 → ∃ at_, .startDriver d at_ ∈ ls)
    (fun ls s l s' ih _ hst hd => ?_) (fun hd => absurd rfl hd) hd
  obtain ⟨w', hw', rfl⟩ := step_eq hst
  rcases World.starts_of_step hw' hd with hold | ⟨at_, rfl⟩
  · obtain ⟨at_, hmem⟩ := ih hold
    exact ⟨at_, List.mem_append_left _ hmem⟩
  · exact ⟨at_, List.mem_append_right _ List.mem_cons_self⟩

/-- Driver "mario" takes passenger "peach" to its destination. -/
def wholeRide : List World.Label :=
  [.startDriver "mario" ⟨(1, 1), "127.0.0.1:40000", ⟨⟨1, 1⟩, 0⟩⟩, .drives "mario" Driver.Process.up,
    .drives "mario" Driver.Process.up, .recv .up "", .recv .up "", .notice (.completeLogin 1),
    .recv .up "", .recv .up "", .answer 0 [⟨"127.0.0.1:40000", (1, 1)⟩],
    .recv { connected := true, driver := some 1, server := none } "mario", .gateway true,
    .recv .up "", .recv .up "", .toDriver 0, .drives "mario" Driver.Process.up,
    .drives "mario" Driver.Process.up, .drives "mario" Driver.Process.up, .toPassenger 0,
    .toPassenger 0, .recv .up "", .recv .up "", .recv .up "", .drives "mario" Driver.Process.up,
    .drives "mario" Driver.Process.up]

/-- Nothing waits in a mailbox and nothing is on its way. -/
def silent (t : Trip) : Bool :=
  t.world.passenger.any (fun a => a.2.isEmpty) && t.world.asks.isEmpty &&
    decide (t.world.auths = 0) && t.world.up.isEmpty && t.world.down.isEmpty &&
    (t.world.drivers "mario").actor.any fun a => a.2.isEmpty

theorem undisturbed_ride_wholeRide : ∃ t : Trip, t.paid = 1 ∧ (t.world.AtRest ∧
    (∀ d a mailbox, (t.world.drivers d).actor = some (a, mailbox) → a.isAvailable = true) ∧
      ∃ p, t.world.passenger = some (p, []) ∧
        (t.paid = 1 ∧ t.world.accepted = 1 ∧ t.world.arrivals = 1 ∧
            p.info.position = p.info.destination ∨
          t.paid = 0 ∧ t.world.accepted = 0 ∧ t.world.arrivals = 0 ∧
            p.Exhausted (fun _ _ => 1) p.driversInfo)) ∧
    wholeRide.length ≤ 3 * 3 + 21 + (wholeRide.map (price ⟨3, 0⟩)).sum := by
  obtain ⟨t, hrun, hend⟩ := exists_run_of_exec
    (fun (t : Trip) l => t.world.undisturbed (fun _ => true) l && t.world.allowed ⟨3, 0⟩ l)
    (init "peach" (2, 2) (3, 3) 0) wholeRide (fun t => decide (t.paid = 1) && t.silent)
    (show (exec (step (fun _ _ => 1) (fun _ => true) "peach") _ _ _).any _ = true by
      decide +kernel)
  simp only [Bool.and_eq_true] at hrun
  simp only [silent, Bool.and_eq_true, Option.any_eq_true, List.isEmpty_iff, decide_eq_true_eq]
    at hend
  obtain ⟨hpaid, ⟨⟨⟨⟨⟨p, hp, hnil⟩, hasks⟩, hauths⟩, hup⟩, hdown⟩, a, ha, hbox⟩ := hend
  have hrest : t.world.AtRest := by
    refine ⟨⟨p.1, hp.trans ?_⟩, fun d hd => ?_, hasks, hauths, hup, hdown⟩
    · rw [← hnil]
    · obtain ⟨at_, hmem⟩ := starts_of_run hrun hd
      simp only [wholeRide, List.mem_cons, World.Label.startDriver.injEq, reduceCtorEq,
        or_false, List.not_mem_nil] at hmem
      rw [hmem.1]
      exact ⟨a.1, ha.trans (by rw [← hbox])⟩
  obtain ⟨hends, hgrid⟩ := undisturbed_ride (hrun.mono fun _ _ hok => hok.1)
  exact ⟨t, hpaid, ⟨hrest, hends hrest⟩,
    (hgrid ⟨3, 0⟩ (by decide) (by decide) (hrun.mono fun _ _ hok => hok.2)).1⟩

end Trip

end ConcuRide
