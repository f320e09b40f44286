import Mathlib.Data.Nat.Dist
import ConcuRide.Driver.Cases
import ConcuRide.Lib.March
import ConcuRide.Lib.Pursuit
import ConcuRide.Passenger.Process

set_option autoImplicit false

/-! # The way of a ride

`move_to` moves both coordinates in every step, one that is already at its target included: each
coordinate is a pursuit of its own. A ride therefore arrives when the two distances have the same
parity, and goes below zero when a target on an axis is reached too early. Coordinates grow only
below their target, so an increment never overflows. -/

namespace ConcuRide

open Lib

/-- `move_to`, as a function of the position alone. -/
def movePosition (destination position : Position) : Option Position := do
  let x ← moveCoordinate position.1 destination.1
  let y ← moveCoordinate position.2 destination.2
  return (x, y)

theorem moveCoordinate_le {x t y : ℕ} (h : moveCoordinate x t = some y) : y ≤ max x t := by
  unfold moveCoordinate at h
  split at h
  · obtain rfl := Option.some.inj h
    omega
  · split at h
    · exact absurd h (by simp)
    · obtain rfl := Option.some.inj h
      omega

theorem moveCoordinate_eq_some {x t y : ℕ} :
    moveCoordinate x t = some y ↔ (y : ℤ) = pursue t x := by
  unfold moveCoordinate pursue
  by_cases hlt : x < t
  · have hlt' : (x : ℤ) < t := by omega
    rw [if_pos hlt, if_pos hlt', Option.some.injEq]
    omega
  · have hge : ¬(x : ℤ) < t := by omega
    rw [if_neg hlt, if_neg hge]
    by_cases h0 : x = 0
    · rw [if_pos h0]
      simp only [reduceCtorEq, false_iff]
      omega
    · rw [if_neg h0, Option.some.injEq]
      omega

/-! ## When a walk arrives -/

/-- A position on the plane of the two pursuits. -/
def onPlane (position : Position) : ℤ × ℤ := (position.1, position.2)

theorem mem_range_onPlane (q : ℤ × ℤ) : q ∈ Set.range onPlane ↔ 0 ≤ q.1 ∧ 0 ≤ q.2 := by
  constructor
  · rintro ⟨p, rfl⟩
    exact ⟨Int.natCast_nonneg _, Int.natCast_nonneg _⟩
  · rintro ⟨h1, h2⟩
    exact ⟨(q.1.toNat, q.2.toNat), Prod.ext (Int.toNat_of_nonneg h1) (Int.toNat_of_nonneg h2)⟩

/-- `move_to` is one step of two pursuits. -/
theorem movePosition_simulates (target : Position) :
    Simulates (movePosition target) onPlane (Prod.map (pursue target.1) (pursue target.2)) where
  injective p q h := by
    obtain ⟨h1, h2⟩ := Prod.mk.inj h
    exact Prod.ext (Int.ofNat_inj.1 h1) (Int.ofNat_inj.1 h2)
  some_iff p q := by
    obtain ⟨x, y⟩ := q
    simp only [movePosition, Option.bind_eq_bind, Option.bind_eq_some_iff, moveCoordinate_eq_some,
      onPlane, Prod.map_apply, Prod.mk.injEq, Option.pure_def, Option.some.injEq]
    constructor
    · rintro ⟨_, hx, _, hy, rfl, rfl⟩
      exact ⟨hx, hy⟩
    · rintro ⟨hx, hy⟩
      exact ⟨x, hx, y, hy, rfl, rfl⟩

variable {start target : Position} {n : ℕ}

/-- The first `n` moves are in view as long as no coordinate is below zero. -/
theorem range_iff (start target : Position) (n : ℕ) :
    (∀ k ≤ n, (Prod.map (pursue target.1) (pursue target.2))^[k] (onPlane start) ∈
        Set.range onPlane) ↔
      (target.1 = 0 → n ≤ start.1) ∧ (target.2 = 0 → n ≤ start.2) := by
  have h1 := pursue_iterate_nonneg (n := n) (Int.natCast_nonneg start.1)
    (Int.natCast_nonneg target.1)
  have h2 := pursue_iterate_nonneg (n := n) (Int.natCast_nonneg start.2)
    (Int.natCast_nonneg target.2)
  rw [Int.natCast_eq_zero, Int.ofNat_le] at h1 h2
  rw [← h1, ← h2]
  simp only [Prod.map_iterate, mem_range_onPlane, onPlane, Prod.map_apply]
  exact ⟨fun h => ⟨fun k hk => (h k hk).1, fun k hk => (h k hk).2⟩,
    fun h k hk => ⟨h.1 k hk, h.2 k hk⟩⟩

theorem moves_eq_none_iff :
    moves (movePosition target) n start = none ↔
      ¬((target.1 = 0 → n ≤ start.1) ∧ (target.2 = 0 → n ≤ start.2)) := by
  rw [(movePosition_simulates target).moves_eq_none_iff, range_iff]

/-- The walk is at its target. -/
theorem moves_eq_target_iff :
    moves (movePosition target) n start = some target ↔
      ((target.1 = 0 → n ≤ start.1) ∧ (target.2 = 0 → n ≤ start.2)) ∧
        (start.1.dist target.1 ≤ n ∧ (n - start.1.dist target.1) % 2 = 0) ∧
        start.2.dist target.2 ≤ n ∧ (n - start.2.dist target.2) % 2 = 0 := by
  have hdist : ∀ a b : ℕ, ((b : ℤ) - a).natAbs = a.dist b := by
    intro a b
    unfold Nat.dist
    omega
  have h1 := pursue_iterate_eq_target target.1 start.1 n
  have h2 := pursue_iterate_eq_target target.2 start.2 n
  rw [hdist] at h1 h2
  rw [(movePosition_simulates target).moves_eq_some_iff, range_iff, ← h1, ← h2]
  simp only [Prod.map_iterate, onPlane, Prod.map_apply, Prod.mk.injEq]
  exact and_congr_right fun _ => and_congr eq_comm eq_comm

/-- The distances to the target on the two axes are both even or both odd. -/
def SameParity (start target : Position) : Prop :=
  start.1.dist target.1 % 2 = start.2.dist target.2 % 2

instance (start target : Position) : Decidable (SameParity start target) :=
  inferInstanceAs (Decidable (_ = _))

/-- A coordinate whose target is 0 gets there with the last move of the walk, and not before. -/
def StaysAbove (start target : Position) : Prop :=
  (target.1 = 0 →
    0 < start.1 ∧ start.2.dist target.2 ≤ start.1 ∧ SameParity start target) ∧
  (target.2 = 0 →
    0 < start.2 ∧ start.1.dist target.1 ≤ start.2 ∧ SameParity start target)

instance (start target : Position) : Decidable (StaysAbove start target) :=
  inferInstanceAs (Decidable (_ ∧ _))

theorem arrives_iff_sameParity :
    Arrives (movePosition target) target start ↔
      SameParity start target ∧ StaysAbove start target := by
  -- a coordinate whose target is 0 is its own distance, and nothing else matters of the others
  have hfirst : target.1 = 0 → start.1 = start.1.dist target.1 := fun h => by
    rw [h, Nat.dist_zero_right]
  have hsecond : target.2 = 0 → start.2 = start.2.dist target.2 := fun h => by
    rw [h, Nat.dist_zero_right]
  simp only [Lib.arrives_iff, moves_eq_target_iff, StaysAbove, SameParity]
  generalize start.1.dist target.1 = a at hfirst ⊢
  generalize start.2.dist target.2 = b at hsecond ⊢
  constructor
  · rintro ⟨n, hn, ⟨habove₁, habove₂⟩, ⟨ha, heven₁⟩, hb, heven₂⟩
    have hparity : a % 2 = b % 2 := by omega
    refine ⟨hparity, fun h₁ => ?_, fun h₂ => ?_⟩
    · have := habove₁ h₁
      exact ⟨by omega, by omega, hparity⟩
    · have := habove₂ h₂
      exact ⟨by omega, by omega, hparity⟩
  · rintro ⟨hparity, habove₁, habove₂⟩
    by_cases hzero : a = 0 ∧ b = 0
    · -- a walk that starts at its target takes two moves
      refine ⟨2, by omega, ⟨fun h₁ => ?_, fun h₂ => ?_⟩, by omega, by omega⟩
      · have := hfirst h₁
        have := (habove₁ h₁).1
        omega
      · have := hsecond h₂
        have := (habove₂ h₂).1
        omega
    · refine ⟨max a b, by omega, ⟨fun h₁ => ?_, fun h₂ => ?_⟩, by omega, by omega⟩
      · rw [hfirst h₁]
        exact max_le (Nat.le_refl a) (hfirst h₁ ▸ (habove₁ h₁).2.1)
      · rw [hsecond h₂]
        exact max_le (hsecond h₂ ▸ (habove₂ h₂).2.1) (Nat.le_refl b)

/-- **When a walk goes below zero.** -/
theorem falls_iff : Falls (movePosition target) target start ↔ ¬StaysAbove start target := by
  constructor
  · intro hfalls habove
    by_cases hpar : SameParity start target
    · exact (arrives_iff_sameParity.2 ⟨hpar, habove⟩).not_falls hfalls
    · -- then no target is on an axis
      obtain ⟨n, hnone, -⟩ := hfalls
      rw [moves_eq_none_iff] at hnone
      exact hnone ⟨fun h => absurd (habove.1 h).2.2 hpar, fun h => absurd (habove.2 h).2.2 hpar⟩
  · intro habove
    by_contra hfalls
    have harrives : ∀ n, moves (movePosition target) n start = none →
        Arrives (movePosition target) target start := by
      intro n hnone
      by_contra hno
      exact hfalls ⟨n, hnone, fun k _ hpos hk => hno (Lib.arrives_iff.2 ⟨k, hpos, hk⟩)⟩
    by_cases h1 : target.1 = 0
    · refine habove (arrives_iff_sameParity.1 (harrives (start.1 + 1) ?_)).2
      rw [moves_eq_none_iff]
      exact fun h => absurd (h.1 h1) (by omega)
    · by_cases h2 : target.2 = 0
      · refine habove (arrives_iff_sameParity.1 (harrives (start.2 + 1) ?_)).2
        rw [moves_eq_none_iff]
        exact fun h => absurd (h.2 h2) (by omega)
      · exact habove ⟨fun h => absurd h h1, fun h => absurd h h2⟩

theorem arrives_iff_of_not_falls (h : ¬Falls (movePosition target) target start) :
    Arrives (movePosition target) target start ↔ SameParity start target := by
  rw [falls_iff, not_not] at h
  rw [arrives_iff_sameParity]
  exact and_iff_left h

/-! ## The legs of a ride -/

/-- What a handler of the driver does when nothing but what the driver sends itself matters. -/
def Driver.answer (o : Driver.Oracle) (d : Driver) (m : Driver.Msg) :
    Option (Driver × List Driver.Msg) :=
  (d.handle o m).map fun r => (r.1, Driver.selfMessages r.2)

/-- The same for the passenger. -/
def Passenger.answer (distance : Position → Position → ℕ) (o : Passenger.Oracle) (p : Passenger)
    (m : Passenger.Msg) : Option (Passenger × List Passenger.Msg) :=
  (p.handle distance o m).map fun r => (r.1, Passenger.selfMessages r.2)

/-- A driver at another position. -/
def Driver.at_ (d : Driver) (position : Position) : Driver := { d with position := position }

/-- A passenger at another position. -/
def Passenger.at_ (p : Passenger) (position : Position) : Passenger :=
  { p with info := { p.info with position := position } }

theorem Driver.moveTo_eq_map (d : Driver) (target : Position) :
    d.moveTo target = (movePosition target d.position).map d.at_ := by
  unfold Driver.moveTo movePosition
  cases moveCoordinate d.position.1 target.1 with
  | none => rfl
  | some x => cases moveCoordinate d.position.2 target.2 <;> rfl

theorem Driver.movePosition_of_moveTo {d : Driver} {target position : Position}
    (h : d.moveTo target = some { d with position := position }) :
    movePosition target d.position = some position := by
  rw [Driver.moveTo_eq_map, Option.map_eq_some_iff] at h
  obtain ⟨q, hq, heq⟩ := h
  obtain rfl : q = position := congrArg Driver.position heq
  exact hq

theorem Passenger.moveTo_eq_map (p : Passenger) (target : Position) :
    p.moveTo target = (movePosition target p.info.position).map p.at_ := by
  unfold Passenger.moveTo movePosition
  cases moveCoordinate p.info.position.1 target.1 with
  | none => rfl
  | some x => cases moveCoordinate p.info.position.2 target.2 <;> rfl

/-- `PickUpPassenger` is a march to the passenger. -/
theorem Driver.pickUp_marches (o : Driver.Oracle) (d : Driver) (target : Position)
    (h : d.passengerPosition = some target) :
    Marches (Driver.answer o) (movePosition target) target d.at_ .pickUpPassenger
      { d.at_ target with passengerPickedUp := true } [.rideToDestination] := by
  refine .of_eq fun p => ?_
  have hpos : (d.at_ p).passengerPosition = some target := h
  have hat : (d.at_ p).position = p := rfl
  simp only [Driver.answer, Driver.handle, Driver.pickUpPassenger, hpos, Driver.moveTo_eq_map, hat]
  cases movePosition target p with
  | none => rfl
  | some q =>
      by_cases hq : q = target
      · subst hq
        simp only [Option.map_some, Option.bind_eq_bind, Option.bind_some, Driver.at_, ne_eq,
          not_true_eq_false, if_false, if_true, Option.pure_def, Driver.selfMessages_append]
        cases d.currentPassengerConnection <;> rfl
      · simp only [Option.map_some, Option.bind_eq_bind, Option.bind_some, Driver.at_, ne_eq, hq,
          not_false_eq_true, if_true, if_false, Option.pure_def]
        rfl

/-- `RideToDestination` is a march to the destination. -/
theorem Driver.ride_marches (o : Driver.Oracle) (d : Driver) (target : Position)
    (h : d.destination = some target) :
    Marches (Driver.answer o) (movePosition target) target d.at_ .rideToDestination
      (d.at_ target) [.endRide target] := by
  refine .of_eq fun p => ?_
  have hdst : (d.at_ p).destination = some target := h
  have hat : (d.at_ p).position = p := rfl
  simp only [Driver.answer, Driver.handle, Driver.rideToDestination, hdst, Driver.moveTo_eq_map,
    hat]
  cases movePosition target p with
  | none => rfl
  | some q =>
      by_cases hq : q = target
      · subst hq
        simp only [Option.map_some, Option.bind_eq_bind, Option.bind_some, Driver.at_, ne_eq,
          not_true_eq_false, if_false, if_true, Option.pure_def]
        rfl
      · simp only [Option.map_some, Option.bind_eq_bind, Option.bind_some, Driver.at_, ne_eq, hq,
          not_false_eq_true, if_true, if_false, Option.pure_def]
        rfl

/-- `Traveling` is a march to the destination. -/
theorem Passenger.traveling_marches (distance : Position → Position → ℕ) (o : Passenger.Oracle)
    (p : Passenger) (target : Position) (h : p.info.destination = target) :
    Marches (Passenger.answer distance o) (movePosition target) target p.at_ .traveling
      (p.at_ target) [] := by
  subst h
  refine .of_eq fun q => ?_
  have hdst : (p.at_ q).info.destination = p.info.destination := rfl
  have hat : (p.at_ q).info.position = q := rfl
  simp only [Passenger.answer, Passenger.handle, Passenger.traveling, hdst,
    Passenger.moveTo_eq_map, hat]
  cases movePosition p.info.destination q with
  | none => rfl
  | some r =>
      by_cases hr : r = p.info.destination
      · subst hr
        simp only [Option.map_some, Option.bind_eq_bind, Option.bind_some, Passenger.at_, ne_eq,
          not_true_eq_false, if_false, if_true, Option.pure_def]
        rfl
      · simp only [Option.map_some, Option.bind_eq_bind, Option.bind_some, Passenger.at_, ne_eq, hr,
          not_false_eq_true, if_true, if_false, Option.pure_def]
        rfl

/-- **When a ride arrives**: a walk that never goes below zero reaches its target, and its chain of
    messages stops, if and only if the two distances have the same parity; for the driver on its way
    to the passenger, the driver on its way to the destination, and the passenger. -/
theorem ride_arrives_iff (start target : Position)
    (habove : ¬Falls (movePosition target) target start) :
    (∀ (o : Driver.Oracle) (d : Driver), d.position = start → d.passengerPosition = some target →
      ((∃ n t, serve (Driver.answer o) n d [.pickUpPassenger] = some (t, [.rideToDestination]) ∧
        t.position = target) ↔ SameParity start target)) ∧
    (∀ (o : Driver.Oracle) (d : Driver), d.position = start → d.destination = some target →
      ((∃ n t, serve (Driver.answer o) n d [.rideToDestination] = some (t, [.endRide target]) ∧
        t.position = target) ↔ SameParity start target)) ∧
    ∀ (distance : Position → Position → ℕ) (o : Passenger.Oracle) (p : Passenger),
      p.info.position = start → p.info.destination = target →
      ((∃ n t, serve (Passenger.answer distance o) n p [.traveling] = some (t, []) ∧
        t.info.position = target) ↔ SameParity start target) := by
  rw [← arrives_iff_of_not_falls habove]
  refine ⟨?_, ?_, ?_⟩
  · rintro o d rfl hpos
    exact (Driver.pickUp_marches o d target hpos).serve_last_iff habove (by simp) rfl
  · rintro o d rfl hdst
    exact (Driver.ride_marches o d target hdst).serve_last_iff habove (by simp) rfl
  · rintro distance o p rfl hdst
    exact (Passenger.traveling_marches distance o p target hdst).serve_last_iff habove (by simp) rfl

/-- A driver at (1, 1) picks up a passenger at (4, 6): the distances are 3 and 5. -/
theorem ride_arrives_iff_pickUp :
    ∃ n t, serve (Driver.answer ⟨true, none⟩) n
      { Driver.start "d" "s" (1, 1) ⟨⟨1, 0⟩, 0⟩ with passengerPosition := some (4, 6) }
      [.pickUpPassenger] = some (t, [.rideToDestination]) ∧ t.position = (4, 6) :=
  ((ride_arrives_iff (1, 1) (4, 6) (by rw [falls_iff]; decide)).1 ⟨true, none⟩ _ rfl rfl).2
    (by decide)

/-- The way from (1, 1) to (2, 3) never goes below zero, and no walk along it arrives. -/
theorem ride_never_arrives :
    ¬Falls (movePosition (2, 3)) (2, 3) (1, 1) ∧
    (∀ o : Driver.Oracle, ¬∃ n t, serve (Driver.answer o) n
      { Driver.start "d" "s" (1, 1) ⟨⟨1, 0⟩, 0⟩ with passengerPosition := some (2, 3) }
      [.pickUpPassenger] = some (t, [.rideToDestination]) ∧ t.position = (2, 3)) ∧
    (∀ o : Driver.Oracle, ¬∃ n t, serve (Driver.answer o) n
      { Driver.start "d" "s" (1, 1) ⟨⟨1, 0⟩, 0⟩ with destination := some (2, 3) }
      [.rideToDestination] = some (t, [.endRide (2, 3)]) ∧ t.position = (2, 3)) ∧
    ∀ (distance : Position → Position → ℕ) (o : Passenger.Oracle),
      ¬∃ n t, serve (Passenger.answer distance o) n
        (Passenger.start "p" (1, 1) (2, 3) false 0) [.traveling] = some (t, []) ∧
        t.info.position = (2, 3) := by
  have habove : ¬Falls (movePosition (2, 3)) (2, 3) (1, 1) := by
    rw [falls_iff]
    decide
  have harrives : ¬Arrives (movePosition (2, 3)) (2, 3) (1, 1) := by
    rw [arrives_iff_of_not_falls habove]
    decide
  refine ⟨habove, fun o h => ?_, fun o h => ?_, fun distance o h => ?_⟩
  · have hmarch := Driver.pickUp_marches o
      { Driver.start "d" "s" (1, 1) ⟨⟨1, 0⟩, 0⟩ with passengerPosition := some (2, 3) } (2, 3) rfl
    exact harrives ((hmarch.serve_last_iff (R := fun t => t.position = (2, 3)) habove (by simp) rfl).1 h)
  · have hmarch := Driver.ride_marches o
      { Driver.start "d" "s" (1, 1) ⟨⟨1, 0⟩, 0⟩ with destination := some (2, 3) } (2, 3) rfl
    exact harrives ((hmarch.serve_last_iff (R := fun t => t.position = (2, 3)) habove (by simp) rfl).1 h)
  · have hmarch := Passenger.traveling_marches distance o
      (Passenger.start "p" (1, 1) (2, 3) false 0) (2, 3) rfl
    exact harrives ((hmarch.serve_last_iff (R := fun t => t.info.position = (2, 3)) habove
      (by simp) rfl).1 h)

/-! ## Below zero -/

/-- The end of a ride never fails. -/
theorem Driver.endRide_ne_none (o : Driver.Oracle) (d : Driver) (dst : Position) (n : ℕ) :
    serve (Driver.answer o) n d [.endRide dst] ≠ none := by
  refine serve_ne_none (fun m => m = .endRide dst ∨ ∃ line, m = .reconnect line) ?_
    (fun m hm => .inl (List.mem_singleton.1 hm)) n
  rintro d _ (rfl | ⟨line, rfl⟩)
  · refine ⟨_, rfl, fun m hm => ?_⟩
    simp only [Driver.endRide, Driver.selfMessages_append, Driver.selfMessages_sendToServer,
      List.mem_append] at hm
    rcases hm with hm | hm
    · exact .inr ⟨_, Driver.mem_resend hm⟩
    · simp [Driver.selfMessages, Driver.saveState] at hm
  · refine ⟨_, rfl, fun m hm => ?_⟩
    cases hserver : o.server <;>
      simp [Driver.reconnect, hserver, Driver.selfMessages] at hm

/-- **When a ride goes below zero**: a driver that picks up its passenger and takes it to the
    destination never subtracts from a coordinate that is 0 if and only if the way to the passenger
    stays above zero and, when the driver gets there, the way to the destination does; and a
    passenger on its way never does if and only if its way stays above zero. -/
theorem ride_stays_above_iff (o : Driver.Oracle) (d : Driver) (origin destination : Position)
    (horigin : d.passengerPosition = some origin) (hdst : d.destination = some destination)
    (distance : Position → Position → ℕ) (oₚ : Passenger.Oracle) (p : Passenger) :
    ((∀ n, serve (Driver.answer o) n d [.pickUpPassenger] ≠ none) ↔
      StaysAbove d.position origin ∧
        (SameParity d.position origin → StaysAbove origin destination)) ∧
    ((∀ n, serve (Passenger.answer distance oₚ) n p [.traveling] ≠ none) ↔
      StaysAbove p.info.position p.info.destination) := by
  constructor
  · have hmarch := Driver.pickUp_marches o d origin horigin
    -- the second leg starts where the first one has ended
    have hride : (∀ n, serve (Driver.answer o) n
        { d.at_ origin with passengerPickedUp := true } [.rideToDestination] ≠ none) ↔
          StaysAbove origin destination := by
      have hmarch' := Driver.ride_marches o
        { d.at_ origin with passengerPickedUp := true } destination hdst
      have hend := fun n => Driver.endRide_ne_none o
        (({ d.at_ origin with passengerPickedUp := true } : Driver).at_ destination) destination n
      refine (hmarch'.serve_never_none_iff (p := origin)).trans ?_
      rw [falls_iff, not_not]
      exact and_iff_left fun _ => hend
    refine (hmarch.serve_never_none_iff (p := d.position)).trans ?_
    rw [hride, falls_iff, not_not]
    refine and_congr_right fun habove => ?_
    rw [arrives_iff_sameParity, and_iff_left habove]
  · have hmarch := Passenger.traveling_marches distance oₚ p _ rfl
    refine (hmarch.serve_never_none_iff (p := p.info.position)).trans ?_
    rw [falls_iff, not_not]
    refine and_iff_left fun _ n => serve_ne_none (fun _ => False) ?_ (by simp) n
    exact fun s m hm => hm.elim

/-- A ride from (1, 1) over (3, 3) to (5, 5). -/
theorem ride_stays_above_iff_diagonal :
    (∀ n, serve (Driver.answer ⟨true, none⟩) n
      { Driver.start "d" "s" (1, 1) ⟨⟨1, 0⟩, 0⟩ with
        passengerPosition := some (3, 3), destination := some (5, 5) }
      [.pickUpPassenger] ≠ none) ∧
    ∀ n, serve (Passenger.answer (fun _ _ => 0) .up) n
      (Passenger.start "p" (3, 3) (5, 5) false 0) [.traveling] ≠ none := by
  have h := ride_stays_above_iff ⟨true, none⟩
    { Driver.start "d" "s" (1, 1) ⟨⟨1, 0⟩, 0⟩ with
      passengerPosition := some (3, 3), destination := some (5, 5) } (3, 3) (5, 5) rfl rfl
    (fun _ _ => 0) .up (Passenger.start "p" (3, 3) (5, 5) false 0)
  exact ⟨h.1.2 (by decide), h.2.2 (by decide)⟩

/-- A driver at (0, 0) that is to pick up a passenger at (0, 2) subtracts from 0 in its first step,
    and so does a passenger that is to go from there to (0, 2). -/
theorem ride_falls :
    (∃ n, serve (Driver.answer ⟨true, none⟩) n
      { Driver.start "d" "s" (0, 0) ⟨⟨1, 0⟩, 0⟩ with
        passengerPosition := some (0, 2), destination := some (5, 5) }
      [.pickUpPassenger] = none) ∧
    ∃ n, serve (Passenger.answer (fun _ _ => 0) .up) n
      (Passenger.start "p" (0, 0) (0, 2) false 0) [.traveling] = none :=
  ⟨⟨1, rfl⟩, ⟨1, rfl⟩⟩

end ConcuRide
