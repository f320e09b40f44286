import ConcuRide.Rides.Report

set_option autoImplicit false

/-! # The position of a driver on its way to a passenger

A driver on its way to a passenger moves by one in each coordinate. A passenger that hears of a
driver which has recovered sends it its own position, and the driver takes that for its own whether
it has picked the passenger up or not: only this message can make a driver jump. -/

namespace ConcuRide

open Lib

/-- Neither coordinate differs by more than one. -/
def Near (p q : Position) : Prop := p.1.dist q.1 ≤ 1 ∧ p.2.dist q.2 ≤ 1

instance (p q : Position) : Decidable (Near p q) := inferInstanceAs (Decidable (_ ∧ _))

theorem Near.refl (p : Position) : Near p p := by
  simp [Near]

theorem moveCoordinate_dist {x t y : ℕ} (h : moveCoordinate x t = some y) : x.dist y ≤ 1 := by
  unfold moveCoordinate at h
  unfold Nat.dist
  split at h
  · obtain rfl := Option.some.inj h
    omega
  · split at h
    · exact absurd h (by simp)
    · obtain rfl := Option.some.inj h
      omega

/-- A move is a step of one. -/
theorem movePosition_near {target p q : Position} (h : movePosition target p = some q) :
    Near p q := by
  simp only [movePosition, Option.bind_eq_bind, Option.bind_eq_some_iff] at h
  obtain ⟨x, hx, y, hy, h⟩ := h
  obtain rfl := Option.some.inj h
  exact ⟨moveCoordinate_dist hx, moveCoordinate_dist hy⟩

namespace Driver

/-- The driver is on its way to a passenger. -/
def onItsWay (d : Driver) : Bool := !d.isAvailable && !d.passengerPickedUp

/-- What handling `m` may do to the position: `Recovery` restores the one that was saved, and with
    any other message a driver on its way to a passenger does not jump. -/
def Steady (d : Driver) (m : Msg) (t : Driver) : Prop :=
  match m with
  | .recovery status _ => status.get "position" = jsonOfPosition t.position
  | _ => d.onItsWay = true → Near d.position t.position

/-- The position of a passenger that reconnects. -/
def Msg.synced : Msg → Option Position
  | .reconnectPassenger _ position => some position
  | _ => none

/-- A passenger that synchronises its position with a driver on its way to it is where the driver
    is, or a step from there. -/
def SyncsNearby (d : Driver) (m : Msg) : Prop :=
  ∀ position, m.synced = some position → d.onItsWay = true → Near d.position position

variable {ride : Option RequestRide} {o : Oracle} {d t : Driver} {m : Msg} {effects : List Effect}
  {rest : List Msg}

theorem onItsWay_iff : d.onItsWay = true ↔ d.isAvailable = false ∧ d.passengerPickedUp = false := by
  simp [onItsWay]

theorem syncsNearby_of_none (h : m.synced = none) : d.SyncsNearby m := by
  intro position hposition
  rw [h] at hposition
  cases hposition

/-- A driver that handles a message of the rest of the ride has picked the passenger up. -/
theorem Underway.not_onItsWay (h : Underway ride d (m :: rest)) (hm : m.isRide = true)
    (hpick : m.isPickUp = false) : d.onItsWay = false := by
  have hset : ∀ link, m ≠ .setReceiver link := by
    rintro link rfl
    cases hm
  have hrec : m.isRecovery = false := by
    cases m with
    | recovery => cases hm
    | _ => rfl
  obtain ⟨-, htoken⟩ := h.of_head hset hrec
  obtain ⟨-, -, htoken⟩ := htoken.spent hm
  rw [hpick] at htoken
  simp [onItsWay, ← htoken]

/-- The state a driver reads back is one that it has saved. -/
theorem Underway.reads_saved {status : Json} {socket : String}
    (h : Underway ride d (.recovery status socket :: rest)) : SavedOn ride status := by
  cases h.head with
  | riding _ _ hm => cases hm
  | reads _ _ _ hsaved => exact hsaved

/-- `Recovery` restores the position that was saved. -/
theorem restore_steady {status : Json} {socket : String} (hsaved : SavedOn ride status)
    (h : d.restore status = some t) : d.Steady (.recovery status socket) t := by
  obtain ⟨saved, rfl, -⟩ := hsaved
  rw [restore_status] at h
  obtain rfl := Option.some.inj h
  simp [Steady, status_get, List.lookup_cons]

/-- **Only a synchronisation makes a driver jump**: handling a message is steady exactly when it
    does not put a driver on its way to a passenger somewhere else. -/
theorem steady_iff (hunder : Underway ride d (m :: rest))
    (hh : d.handle o m = some (t, effects)) : d.Steady m t ↔ d.SyncsNearby m := by
  cases handle_outcome hh with
  | recoversFree status socket ht | recoversBusy status socket ht =>
      exact iff_of_true (restore_steady hunder.reads_saved ht) (syncsNearby_of_none rfl)
  | reconnectPassenger addr position =>
      constructor
      · rintro hsteady _ ⟨⟩
        exact hsteady
      · intro hsyncs
        exact hsyncs position rfl
  | approaches _ _ _ _ hmove | picksUp _ _ hmove =>
      have hnear := movePosition_near (movePosition_of_moveTo hmove)
      exact iff_of_true (fun _ => hnear) (syncsNearby_of_none rfl)
  | noDestination | rides | arrives | endRide =>
      refine iff_of_true (fun hway => ?_) (syncsNearby_of_none rfl)
      exact absurd (hunder.not_onItsWay rfl rfl ▸ hway) Bool.false_ne_true
  | accepts r hfree =>
      refine iff_of_true (fun hway => ?_) (syncsNearby_of_none rfl)
      exact absurd (hfree.symm.trans (onItsWay_iff.1 hway).1) (by simp)
  | setReceiver | register | newConnection | refuses | startRide | noPassenger | responds | denies
  | noServer | newServer => exact iff_of_true (fun _ => .refl _) (syncsNearby_of_none rfl)

namespace Process

variable {name : String} {s s' : Process} {l : Label} {ls : List Label}

/-- The message handled in a step is handled steadily. -/
def Steady (s : Process) : Label → Prop
  | .recv o => ∀ d m rest t effects, s.actor = some (d, m :: rest) →
    d.handle o m = some (t, effects) → d.Steady m t
  | _ => True

/-- The message handled in a step is no synchronisation with a passenger somewhere else. -/
def SyncsNearby (s : Process) : Label → Prop
  | .recv _ => ∀ d m rest, s.actor = some (d, m :: rest) → d.SyncsNearby m
  | _ => True

theorem steady_iff_syncsNearby (hs : s.Sound) : s.Steady l ↔ s.SyncsNearby l := by
  cases l with
  | recv o =>
      constructor
      · intro h d m rest hactor
        have hunder := hs.actor d _ hactor
        cases m with
        | reconnectPassenger addr position =>
            exact (@steady_iff _ o _ _ _ _ _ hunder rfl).1 (h d _ rest _ _ hactor rfl)
        | _ => exact syncsNearby_of_none rfl
      · intro h d m rest t effects hactor hh
        exact (steady_iff (hs.actor d _ hactor) hh).2 (h d m rest hactor)
  | _ => exact Iff.rfl

/-- **When a driver does not jump**, in any run with crashes, recoveries and passengers that
    reconnect: every message is handled steadily exactly if every passenger that synchronises its
    position with a driver on its way to it is at most a step away. -/
theorem run_steady_iff :
    Run (step name) Steady init ls s ↔ Run (step name) SyncsNearby init ls s :=
  Run.congr_of_invariant (fun _ _ _ hs hst => sound_step hs hst)
    (fun _ _ _ hs _ => steady_iff_syncsNearby hs) sound_init

/-- Driver "mario" sets out from (0, 0) to a passenger at (5, 5), and crashes. The passenger learns
    that the driver is back, and connects to it. -/
def syncOnTheWay : List Label :=
  [.launch ⟨(0, 0), "127.0.0.1:40000", ⟨⟨1, 1⟩, 0⟩⟩, .recv up, .recv up,
    .arrives (.requestRide ⟨7, (5, 5), (9, 9), 1⟩), .recv up, .recv up, .recv up, .crash,
    .recover 0 ⟨(0, 0), "127.0.0.1:40001", ⟨⟨1, 1⟩, 1⟩⟩, .recv up, .recv up,
    .arrives (.newConnection 2), .arrives (.reconnectPassenger 2 (5, 5)), .recv up, .recv up,
    .recv up]

/-- It is at (1, 1) when it handles the position of the passenger. -/
theorem not_run_steady : ¬ ∀ (name : String) (ls : List Label) (s : Process) (l : Label),
    Run (step name) (fun _ _ => True) init ls s → s.Steady l := by
  intro h
  obtain ⟨s, hrun, hs⟩ := exists_run_of_exec (fun _ _ => true) init syncOnTheWay
    (fun (s : Process) => s.actor.any fun (p : Driver × List Msg) =>
      p.1.onItsWay && decide (p.1.position = (1, 1)) &&
        decide (p.2.head?.bind Msg.synced = some (5, 5)))
    (show (exec (step "mario") _ _ _).any _ = true by decide +kernel)
  obtain ⟨⟨d, mailbox⟩, hactor, hd⟩ := Option.any_eq_true _ _ |>.1 hs
  simp only [Bool.and_eq_true, decide_eq_true_eq] at hd
  obtain ⟨⟨hway, hposition⟩, hhead⟩ := hd
  obtain ⟨m, hm, hsynced⟩ := Option.bind_eq_some_iff.1 hhead
  obtain ⟨rest, rfl⟩ := List.head?_eq_some_iff.1 hm
  have hsteady := h "mario" syncOnTheWay s (.recv up) (hrun.mono fun _ _ _ => trivial)
  cases m with
  | reconnectPassenger addr position =>
      obtain rfl := Option.some.inj hsynced
      have hnear := hsteady d _ rest _ _ hactor rfl hway
      simp only [hposition] at hnear
      exact absurd hnear (by decide)
  | _ => cases hsynced

end Process

end Driver

end ConcuRide
