import ConcuRide.Passenger.Search

set_option autoImplicit false

/-! # Selecting a driver

`select_driver` looks for a driver nearer than a range, and widens the range by 10 when there is
none, until the range has passed `MAX_RANGE`. A wider range is tried only when every driver was out
of the smaller one, so the driver found is less than 10 farther than any other. -/

namespace ConcuRide.Passenger

open Lib

/-- `l'` is `l` with one occurrence of `d` taken out, and the others in their order. -/
def TakenOut {α : Type*} (d : α) (l l' : List α) : Prop :=
  ∃ before after, l = before ++ d :: after ∧ l' = before ++ after

theorem takenOut_eraseIdx {α : Type*} {l : List α} {i : ℕ} {d : α} (h : l[i]? = some d) :
    TakenOut d l (l.eraseIdx i) := by
  obtain ⟨hi, rfl⟩ := List.getElem?_eq_some_iff.mp h
  refine ⟨l.take i, l.drop (i + 1), ?_, List.eraseIdx_eq_take_drop_succ l i⟩
  rw [← List.drop_eq_getElem_cons hi, List.take_append_drop]

theorem TakenOut.perm {α : Type*} {d : α} {l l' : List α} (h : TakenOut d l l') :
    (d :: l').Perm l := by
  obtain ⟨before, after, rfl, rfl⟩ := h
  exact List.perm_middle.symm

/-- How far the passenger is from a driver. -/
def away (distance : Position → Position → ℕ) (p : Passenger) (driver : DriverInfo) : ℕ :=
  distance p.info.position driver.position

variable {distance : Position → Position → ℕ} {p q : Passenger} {d : DriverInfo} {range : ℕ}

/-- **A driver that is found** is within the first range or less than 10 farther than any other. -/
theorem away_of_selectDriver (h : p.selectDriver distance range = (q, some d)) :
    away distance p d < range ∨
      ∀ e ∈ p.driversInfo, away distance p d < away distance p e + 10 := by
  induction range using selectDriver.induct distance p with
  | case1 range i hi =>
      rw [selectDriver, hi] at h
      have hd : p.driversInfo[i]? = some d := (Prod.mk.inj h).2
      obtain ⟨hlen, hwithin, -⟩ := List.findIdx?_eq_some_iff_getElem.mp hi
      obtain ⟨-, rfl⟩ := List.getElem?_eq_some_iff.mp hd
      exact .inl (of_decide_eq_true hwithin)
  | case2 range hnone hmax =>
      rw [selectDriver, hnone] at h
      simp [hmax] at h
  | case3 range hnone hmax ih =>
      rw [selectDriver, hnone] at h
      simp only [if_neg hmax] at h
      -- every driver is out of the range that failed
      have hout : ∀ e ∈ p.driversInfo, range ≤ away distance p e := by
        intro e he
        exact not_lt.mp (of_decide_eq_false (List.findIdx?_eq_none_iff.mp hnone e he))
      refine .inr fun e he => ?_
      obtain hwithin | hnear := ih h
      · have := hout e he
        omega
      · exact hnear e he

theorem takenOut_of_selectDriver (h : p.selectDriver distance range = (q, some d)) :
    ∃ others, TakenOut d p.driversInfo others ∧ q = { p with driversInfo := others } := by
  induction range using selectDriver.induct distance p with
  | case1 range i hi =>
      rw [selectDriver, hi] at h
      obtain ⟨hq, hd⟩ := Prod.mk.inj h
      exact ⟨_, takenOut_eraseIdx hd, hq.symm⟩
  | case2 range hnone hmax =>
      rw [selectDriver, hnone] at h
      simp [hmax] at h
  | case3 range hnone hmax ih =>
      rw [selectDriver, hnone] at h
      simp only [if_neg hmax] at h
      exact ih h

/-- **When no driver is found** the state is as it was, and every driver is out of every range. -/
theorem nobody_of_selectDriver (h : p.selectDriver distance range = (q, none)) :
    q = p ∧ ∀ e ∈ p.driversInfo, MAX_RANGE < away distance p e := by
  induction range using selectDriver.induct distance p with
  | case1 range i hi =>
      rw [selectDriver, hi] at h
      obtain ⟨hlen, -⟩ := List.findIdx?_eq_some_iff_getElem.mp hi
      have hd : p.driversInfo[i]? = none := (Prod.mk.inj h).2
      rw [List.getElem?_eq_some_iff.mpr ⟨hlen, rfl⟩] at hd
      exact absurd hd (Option.some_ne_none _)
  | case2 range hnone hmax =>
      rw [selectDriver, hnone] at h
      simp only [if_pos hmax] at h
      refine ⟨(Prod.mk.inj h).1.symm, fun e he => ?_⟩
      have hout : range ≤ away distance p e :=
        not_lt.mp (of_decide_eq_false (List.findIdx?_eq_none_iff.mp hnone e he))
      exact lt_of_lt_of_le hmax hout
  | case3 range hnone hmax ih =>
      rw [selectDriver, hnone] at h
      simp only [if_neg hmax] at h
      exact ih h

/-- What `select_driver` leaves and returns, for the drivers it had to choose from. -/
def NearOptimal (distance : Position → Position → ℕ) (p : Passenger) :
    Passenger × Option DriverInfo → Prop
  | (q, some d) =>
    (∃ others, TakenOut d p.driversInfo others ∧ q = { p with driversInfo := others }) ∧
      ∀ e ∈ p.driversInfo, away distance p d < away distance p e + 10
  | (q, none) => q = p ∧ ∀ e ∈ p.driversInfo, MAX_RANGE < away distance p e

/-- **`select_driver` is near-optimal and loses nothing.** Started at range 5 it takes the driver it
    returns out of the list, and that driver is less than 10 farther than any other; or it returns
    none and keeps the list, and every driver is out of `MAX_RANGE`. -/
theorem selectDriver_nearOptimal (distance : Position → Position → ℕ) (p : Passenger) :
    NearOptimal distance p (p.selectDriver distance 5) := by
  generalize hr : p.selectDriver distance 5 = r
  obtain ⟨q, driver⟩ := r
  cases driver with
  | none => exact nobody_of_selectDriver hr
  | some d =>
      refine ⟨takenOut_of_selectDriver hr, fun e he => ?_⟩
      obtain hwithin | hnear := away_of_selectDriver hr
      · omega
      · exact hnear e he

end ConcuRide.Passenger
