import Mathlib.Data.List.AList

set_option autoImplicit false

/-! # Maps and positions shared by the processes

With the search for the leader that a client or a replica runs over TCP. The size of the ring of
servers, `MAX_SERVERS`, is a parameter `N` throughout. A Rust `HashMap` is Mathlib's `AList` (unordered use only: where a map
is iterated over, the order is the list's, and no result below depends on it). -/

namespace ConcuRide

/-- `std::collections::HashMap`. -/
abbrev HashMap (K V : Type) := AList (fun _ : K => V)

/-- The values of a map, in iteration order. -/
def HashMap.values {K V : Type} (m : HashMap K V) : List V :=
  m.entries.map (fun e => e.2)

/-- A coordinate pair `(u64, u64)`. -/
abbrev Position := ℕ × ℕ

/-- The first server `connect_to_server_leader` reaches: the greatest id in `1..=n` that is
    listening. -/
def connectToServerLeader (listening : ℕ → Bool) : ℕ → Option ℕ
  | 0 => none
  | n + 1 => if listening (n + 1) then some (n + 1) else connectToServerLeader listening n

/-- One coordinate of the `move_to` of passengers and drivers; `none` when the subtraction
    underflows. -/
def moveCoordinate (x destination : ℕ) : Option ℕ :=
  if x < destination then some (x + 1) else if x = 0 then none else some (x - 1)

theorem connectToServerLeader_listening (listening : ℕ → Bool) (n k : ℕ)
    (h : connectToServerLeader listening n = some k) : listening k = true ∧ 1 ≤ k ∧ k ≤ n := by
  induction n with
  | zero => simp [connectToServerLeader] at h
  | succ n ih =>
      simp only [connectToServerLeader] at h
      split at h
      · next hl =>
          obtain rfl := Option.some.inj h
          exact ⟨hl, by omega, le_refl _⟩
      · obtain ⟨hl, h1, h2⟩ := ih h
        exact ⟨hl, h1, by omega⟩

end ConcuRide
