import ConcuRide.Passenger.Outcome
import ConcuRide.Passenger.Process

set_option autoImplicit false

/-! # One payment per ride

A ride is paid when the passenger arrives, or learns after a restart that it has arrived. Both go
back to a report of the driver, so a ride is paid at most once as long as no report is handled while
the passenger is traveling or after it has paid. -/

namespace ConcuRide.Passenger

open Lib

def Msg.isTraveling : Msg → Bool
  | .traveling => true
  | _ => false

/-- A driver's report that the ride goes on or has ended. -/
def Msg.isReport : Msg → Bool
  | .driverArrived => true
  | .recoverResponse m => m.pickedUp || m.endRide
  | _ => false

/-- How often the messages ask to travel on. -/
def travelings (messages : List Msg) : ℕ := messages.countP Msg.isTraveling

/-! ## What a handler can do -/

section Handle

variable {distance : Position → Position → ℕ} {o : Oracle} {p t : Passenger} {m : Msg}
  {effects : List Effect}

/-- How often a handler asks to travel on or to pay. -/
def advances (effects : List Effect) : ℕ := travelings (selfMessages effects) + payments effects

theorem advances_sendToServer (p : Passenger) (connected : Bool) (line : ServerLine) :
    advances (p.sendToServer connected line) = 0 := by
  unfold sendToServer
  split <;> rfl

/-- **A handler travels on or pays once** at a step of the journey or a driver's report, and never
    otherwise. -/
theorem handle_advances (h : p.handle distance o m = some (t, effects)) :
    advances effects = if m.isTraveling || m.isReport then 1 else 0 := by
  cases handle_outcome h with
  | getDrivers | login => exact advances_sendToServer ..
  | rideEnded msg hend =>
      simp only [Msg.isTraveling, Msg.isReport, hend, Bool.or_true, if_true]
      rfl
  | rideGoesOn msg hend hup =>
      simp only [Msg.isTraveling, Msg.isReport, hup, Bool.true_or, Bool.or_true, if_true]
      rfl
  | rideWaits msg hend hup =>
      simp only [Msg.isTraveling, Msg.isReport, hend, hup, Bool.or_false, Bool.false_eq_true,
        if_false]
      rfl
  | _ => rfl

end Handle

/-! ## The state of a ride -/

namespace Process

variable {s t : Process} {l : Label} {distance : Position → Position → ℕ} {name : String}

/-- How often the ride accepted last was paid. -/
def paymentsOfRide (s : Process) : ℕ :=
  if .accepted ∈ s.log then (since .accepted s.log).count .confirmed else 0

/-- **Reports come once**: a driver's report is handled only while the passenger is not traveling,
    and has not paid for the ride yet. -/
def reportsOnce (s : Process) : Label → Bool
  | .recv _ =>
    match s.mailbox with
    | m :: rest => !m.isReport || decide (s.paymentsOfRide + travelings rest = 0)
    | [] => true
  | _ => true

/-- Nothing else is to come once a ride is paid, and at most one step of the journey before. -/
def PaysOnce (s : Process) : Prop := s.paymentsOfRide + travelings s.mailbox ≤ 1

/-- A payment counts for the ride accepted last, and a new ride has not been paid. -/
theorem paymentsOfRide_le {t : Process} {m : Msg} {effects : List Effect}
    (hlog : t.log = events m effects ++ s.log) :
    t.paymentsOfRide ≤ payments effects + s.paymentsOfRide := by
  have hnew : Event.accepted ∉ List.replicate (payments effects) Event.confirmed := by
    intro h
    simp at h
  have hcount : (List.replicate (payments effects) Event.confirmed).count .confirmed
      = payments effects := List.count_replicate_self
  by_cases hride : ∃ driverSocket, m = .rideAccepted driverSocket
  · obtain ⟨driverSocket, rfl⟩ := hride
    have hsince : since .accepted t.log = List.replicate (payments effects) .confirmed := by
      rw [hlog, events, List.append_assoc, since_append hnew, List.singleton_append,
        since_cons_self, List.append_nil]
    unfold paymentsOfRide
    rw [hsince, hcount]
    split <;> omega
  · have hlog' : t.log = List.replicate (payments effects) .confirmed ++ s.log := by
      rw [hlog, events, List.append_nil]
      exact fun driverSocket heq => hride ⟨driverSocket, heq⟩
    have hmem : .accepted ∈ t.log ↔ .accepted ∈ s.log := by
      rw [hlog', List.mem_append]
      exact or_iff_right hnew
    unfold paymentsOfRide
    by_cases hacc : .accepted ∈ s.log
    · rw [if_pos hacc, if_pos (hmem.2 hacc), hlog', since_append hnew, List.count_append, hcount]
    · rw [if_neg hacc, if_neg fun h => hacc (hmem.1 h)]
      omega

theorem enqueue_eq {messages : List Msg} (h : s.enqueue messages = some t) :
    t.mailbox = s.mailbox ++ messages ∧ t.log = s.log := by
  obtain ⟨⟨p, old⟩, hactor, rfl⟩ := Option.map_eq_some_iff.1 h
  simp [mailbox, hactor]

/-- A step of the actor: it handles the first message of its mailbox, or ends. -/
theorem recv_cases {o : Oracle} (h : s.recv distance o = some t) :
    (∃ files, t = { s with actor := none, files := files }) ∨
      ∃ p m rest p' effects, s.actor = some (p, m :: rest) ∧
      p.handle distance o m = some (p', effects) ∧ t.mailbox = rest ++ selfMessages effects ∧
      t.log = events m effects ++ s.log := by
  unfold recv at h
  split at h
  · simp at h
  · simp at h
  · next p m rest hactor =>
      split at h
      · exact .inl ⟨_, (Option.some.inj h).symm⟩
      · next p' effects hh =>
          obtain rfl := Option.some.inj h
          exact .inr ⟨p, m, rest, p', effects, hactor, hh, rfl, rfl⟩

theorem paysOnce_start (position destination : Position) (serverSender : ℕ) :
    (start name position destination serverSender).PaysOnce := by
  simp [PaysOnce, paymentsOfRide, start, mailbox, travelings, Msg.isTraveling]

/-- What arrives from outside asks nobody to travel on. -/
theorem paysOnce_enqueue {messages : List Msg} (hp : s.PaysOnce)
    (hquiet : travelings messages = 0) (h : s.enqueue messages = some t) : t.PaysOnce := by
  obtain ⟨hbox, hlog⟩ := enqueue_eq h
  have htravel : travelings t.mailbox = travelings s.mailbox := by
    rw [hbox, travelings, List.countP_append]
    exact Nat.add_eq_left.2 hquiet
  unfold PaysOnce paymentsOfRide at hp ⊢
  rw [htravel, hlog]
  exact hp

theorem paysOnce_recv {o : Oracle} (hp : s.PaysOnce) (hok : s.reportsOnce (.recv o) = true)
    (h : s.recv distance o = some t) : t.PaysOnce := by
  rcases recv_cases h with ⟨files, rfl⟩ | ⟨p, m, rest, p', effects, hactor, hh, hbox', hlog⟩
  · have : s.paymentsOfRide ≤ 1 := Nat.le_trans (Nat.le_add_right _ _) hp
    simpa [PaysOnce, paymentsOfRide, mailbox, travelings] using this
  · have hbox : s.mailbox = m :: rest := by rw [mailbox, hactor]; rfl
    have hpaid := paymentsOfRide_le hlog
    have hadv := handle_advances hh
    have hbefore : travelings s.mailbox = travelings rest + if m.isTraveling then 1 else 0 := by
      rw [hbox, travelings, List.countP_cons]; rfl
    have hafter : travelings t.mailbox = travelings rest + travelings (selfMessages effects) := by
      rw [hbox', travelings, List.countP_append]; rfl
    simp only [reportsOnce, hbox, Bool.or_eq_true, Bool.not_eq_true', decide_eq_true_eq] at hok
    unfold PaysOnce advances at *
    cases htrav : m.isTraveling with
    | true =>
        simp only [htrav, Bool.true_or, if_true] at hadv hbefore
        omega
    | false =>
        cases hrep : m.isReport with
        | true =>
            simp only [htrav, hrep, Bool.or_true, if_true] at hadv
            have := hok.resolve_left (by simp [hrep])
            omega
        | false =>
            simp only [htrav, hrep, Bool.or_false, Bool.false_eq_true, if_false] at hadv hbefore
            omega

theorem paysOnce_step (hp : s.PaysOnce) (hok : s.reportsOnce l = true)
    (hstep : step distance name s l = some t) : t.PaysOnce := by
  have hpaid : s.paymentsOfRide ≤ 1 := Nat.le_trans (Nat.le_add_right _ _) hp
  cases l with
  | recv o => exact paysOnce_recv hp hok hstep
  | line m =>
      simp only [step] at hstep
      split at hstep
      · next hline =>
          refine paysOnce_enqueue hp ?_ hstep
          cases m <;> first | rfl | simp [Msg.isLine] at hline
      · simp at hstep
  | gateway isAuthorized =>
      refine paysOnce_enqueue hp ?_ hstep
      cases isAuthorized <;> rfl
  | crash =>
      simp only [step] at hstep
      split at hstep
      · obtain rfl := Option.some.inj hstep
        simpa [PaysOnce, paymentsOfRide, mailbox, travelings] using hpaid
      · simp at hstep
  | restart position destination serverSender =>
      simp only [step] at hstep
      split at hstep
      · obtain rfl := Option.some.inj hstep
        have hquiet : travelings (s.restart name position destination serverSender).mailbox = 0 := by
          simp only [mailbox, restart, Option.elim]
          split <;> rfl
        unfold PaysOnce
        rw [hquiet]
        exact hpaid
      · simp at hstep

/-- **A ride is paid at most once** in every run, through any crashes and recoveries, in which no
    report of a driver is handled while the passenger is traveling or after it has paid. -/
theorem one_payment_per_ride {position destination : Position} {serverSender : ℕ}
    {ls : List Label}
    (h : Run (step distance name) (fun s l => s.reportsOnce l = true)
      (start name position destination serverSender) ls s) : s.paymentsOfRide ≤ 1 := by
  have hpays : s.PaysOnce :=
    h.invariant (fun _ _ _ hp hok hst => paysOnce_step hp hok hst) (paysOnce_start ..)
  exact Nat.le_trans (Nat.le_add_right _ _) hpays

/-- The distance of `passenger/src/functions.rs`, which is exact for small coordinates. -/
def euclidean (a b : Position) : ℕ :=
  let dx := a.1 - b.1 + (b.1 - a.1)
  let dy := a.2 - b.2 + (b.2 - a.2)
  Nat.sqrt (dx * dx + dy * dy)

/-- A ride from (0, 0) to (2, 2) that is accepted and paid, a crash, and a restart that finds the
    driver again. -/
def paidRide : List Label :=
  [.recv .up, .recv .up, .recv .up, .line (.completeLogin 2), .recv .up,
    .line (.drivers [⟨"127.0.0.1:4000", (1, 1)⟩]),
    .recv { connected := true, driver := some 1, server := none },
    .gateway true, .recv .up, .recv .up,
    .line (.rideAccepted "127.0.0.1:4000"), .recv .up, .line .driverArrived, .recv .up,
    .recv .up, .recv .up, .crash, .restart (0, 0) (2, 2) 1, .recv .up,
    .recv { connected := true, driver := some 2, server := none }, .recv .up]

theorem one_payment_per_ride_paidRide : ∃ s : Process, s.paymentsOfRide ≤ 1 ∧
    s.paymentsOfRide = 1 := by
  obtain ⟨s, hrun, hpaid⟩ := exists_run_of_exec reportsOnce
    (start "ana" (0, 0) (2, 2) 0) paidRide (fun s => decide (s.paymentsOfRide = 1))
    (show (exec (step euclidean "ana") _ _ _).any _ = true by decide +kernel)
  exact ⟨s, one_payment_per_ride hrun, of_decide_eq_true hpaid⟩

/-- The driver answers that the ride has ended, and the passenger pays again. -/
theorem not_one_payment_per_ride : ¬ ∀ (distance : Position → Position → ℕ) (name : String)
    (position destination : Position) (serverSender : ℕ) (ls : List Label) (s : Process),
    Run (step distance name) (fun _ _ => True) (start name position destination serverSender) ls s →
    s.paymentsOfRide ≤ 1 := by
  intro h
  obtain ⟨s, hrun, hpaid⟩ := exists_run_of_exec (fun _ _ => true)
    (start "ana" (0, 0) (2, 2) 0)
    (paidRide ++ [.line (.recoverResponse ⟨false, (2, 2), true⟩), .recv .up])
    (fun s => decide (s.paymentsOfRide = 2))
    (show (exec (step euclidean "ana") _ _ _).any _ = true by decide +kernel)
  have := h euclidean "ana" _ _ _ _ s (hrun.mono fun _ _ _ => trivial)
  have := of_decide_eq_true hpaid
  omega

end Process

end ConcuRide.Passenger
