import ConcuRide.Lib.JsonText

set_option autoImplicit false

/-! # Numbers that are read

Whatever text is read, the numbers of the value are of 64 bits: a greater one is read as a `float`,
which is no integer. What a program takes out of a value it has read can therefore be written
again. -/

namespace Lib

namespace Json

/-- All numbers of a value are of 64 bits. -/
inductive Bounded : Json → Prop
  | null : Bounded .null
  | bool (b : Bool) : Bounded (.bool b)
  | num {n : ℕ} (hn : n < 2 ^ 64) : Bounded (.num n)
  | float (text : String) : Bounded (.float text)
  | str (s : String) : Bounded (.str s)
  | arr {elements : List Json} (h : ∀ v ∈ elements, Bounded v) : Bounded (.arr elements)
  | obj {fields : List (String × Json)} (h : ∀ f ∈ fields, Bounded f.2) : Bounded (.obj fields)

variable {v w : Json} {key : String} {cs rest : List Char}

theorem Bounded.field? (h : v.Bounded) (hw : v.field? key = some w) : w.Bounded := by
  cases h with
  | obj h => exact h _ (mem_of_lookup hw)
  | _ => cases hw

theorem bounded_readWord {word : List Char} (hv : v.Bounded)
    (h : readWord word v cs = some (w, rest)) : w.Bounded := by
  rw [readWord, Option.ite_none_right_eq_some, Option.some.injEq, Prod.mk.injEq] at h
  exact h.2.1 ▸ hv

theorem bounded_readNumber (h : readNumber cs = some (v, rest)) : v.Bounded := by
  simp only [readNumber, Option.ite_none_left_eq_some, Option.some.injEq, Prod.mk.injEq] at h
  obtain ⟨-, rfl, -⟩ := h
  split
  · next hn => exact .num hn
  · exact .float _

mutual

theorem bounded_readValue : ∀ (n : ℕ) (cs rest : List Char) (v : Json),
    readValue n cs = some (v, rest) → v.Bounded
  | 0, _, _, _, h => by cases h
  | _ + 1, [], _, _, h => by cases h
  | n + 1, c :: cs, rest, v, h => by
      rw [readValue] at h
      split at h
      · exact bounded_readWord .null h
      split at h
      · exact bounded_readWord (.bool true) h
      split at h
      · exact bounded_readWord (.bool false) h
      split at h
      · obtain ⟨r, -, heq⟩ := Option.map_eq_some_iff.1 h
        cases heq
        exact .str _
      split at h
      · split at h
        · cases h
          exact .arr (by simp)
        · obtain ⟨r, hr, h⟩ := Option.bind_eq_some_iff.1 h
          obtain ⟨r', hr', heq⟩ := Option.map_eq_some_iff.1 h
          cases heq
          exact .arr (List.forall_mem_cons.2
            ⟨bounded_readValue n cs r.2 r.1 hr, bounded_readMoreElements n r.2 r'.2 r'.1 hr'⟩)
      split at h
      · split at h
        · cases h
          exact .obj (by simp)
        · obtain ⟨k, -, h⟩ := Option.bind_eq_some_iff.1 h
          obtain ⟨r, hr, h⟩ := Option.bind_eq_some_iff.1 h
          obtain ⟨r', hr', heq⟩ := Option.map_eq_some_iff.1 h
          cases heq
          exact .obj (List.forall_mem_cons.2
            ⟨bounded_readValue n k.2 r.2 r.1 hr, bounded_readMoreFields n r.2 r'.2 r'.1 hr'⟩)
      · exact bounded_readNumber h

theorem bounded_readMoreElements : ∀ (n : ℕ) (cs rest : List Char) (vs : List Json),
    readMoreElements n cs = some (vs, rest) → ∀ v ∈ vs, v.Bounded
  | 0, _, _, _, h => by cases h
  | _ + 1, [], _, _, h => by cases h
  | n + 1, c :: cs, rest, vs, h => by
      rw [readMoreElements] at h
      split at h
      · cases h
        simp
      split at h
      · obtain ⟨r, hr, h⟩ := Option.bind_eq_some_iff.1 h
        obtain ⟨r', hr', heq⟩ := Option.map_eq_some_iff.1 h
        cases heq
        exact List.forall_mem_cons.2
          ⟨bounded_readValue n cs r.2 r.1 hr, bounded_readMoreElements n r.2 r'.2 r'.1 hr'⟩
      · cases h

theorem bounded_readMoreFields : ∀ (n : ℕ) (cs rest : List Char) (fs : List (String × Json)),
    readMoreFields n cs = some (fs, rest) → ∀ f ∈ fs, f.2.Bounded
  | 0, _, _, _, h => by cases h
  | _ + 1, [], _, _, h => by cases h
  | n + 1, c :: cs, rest, fs, h => by
      rw [readMoreFields] at h
      split at h
      · cases h
        simp
      split at h
      · obtain ⟨k, -, h⟩ := Option.bind_eq_some_iff.1 h
        obtain ⟨r, hr, h⟩ := Option.bind_eq_some_iff.1 h
        obtain ⟨r', hr', heq⟩ := Option.map_eq_some_iff.1 h
        cases heq
        exact List.forall_mem_cons.2
          ⟨bounded_readValue n k.2 r.2 r.1 hr, bounded_readMoreFields n r.2 r'.2 r'.1 hr'⟩
      · cases h

end

end Json

/-- Every value that is read has numbers of 64 bits. -/
def JsonCodec.ReadsBounded (codec : JsonCodec) : Prop :=
  ∀ (s : String) (v : Json), codec.fromStr s = some v → v.Bounded

end Lib
