import Mathlib.Algebra.Group.Nat.Defs
import Mathlib.Data.List.Forall2
import Mathlib.Data.Option.Basic
import ConcuRide.Lib.Json

set_option autoImplicit false

/-! # JSON as text

What a program may rely on when it writes values as text and reads them back (`JsonCodec`): a value
that holds nothing but what programs write is read back as the same value, where the order of the
fields of an object does not count, and its text is a single line. `JsonCodec.compact` is a codec:
the text without spaces. -/

namespace Lib

namespace Json

/-! ## Values that are the same -/

/-- Values a program writes: numbers of 64 bits, and objects without repeated keys. -/
inductive Valid : Json → Prop
  | null : Valid .null
  | bool (b : Bool) : Valid (.bool b)
  | num {n : ℕ} (hn : n < 2 ^ 64) : Valid (.num n)
  | str (s : String) : Valid (.str s)
  | arr {elements : List Json} (h : ∀ v ∈ elements, Valid v) : Valid (.arr elements)
  | obj {fields : List (String × Json)} (hkeys : (fields.map Prod.fst).Nodup)
      (h : ∀ f ∈ fields, Valid f.2) : Valid (.obj fields)

/-- The same value, where the order of the fields of an object does not count. -/
inductive Same : Json → Json → Prop
  | null : Same .null .null
  | bool (b : Bool) : Same (.bool b) (.bool b)
  | num (n : ℕ) : Same (.num n) (.num n)
  | str (s : String) : Same (.str s) (.str s)
  | arr {elements elements' : List Json} (h : List.Forall₂ Same elements elements') :
      Same (.arr elements) (.arr elements')
  | obj {fields fields' : List (String × Json)} (hkeys : (fields.map Prod.fst).Nodup)
      (hkeys' : (fields'.map Prod.fst).Nodup)
      (h : ∀ key, Option.Rel Same (fields.lookup key) (fields'.lookup key)) :
      Same (.obj fields) (.obj fields')

theorem mem_of_lookup {fields : List (String × Json)} {key : String} {v : Json}
    (h : fields.lookup key = some v) : (key, v) ∈ fields := by
  induction fields with
  | nil => simp at h
  | cons f fields ih =>
      rw [List.lookup_cons] at h
      split at h
      · next hkey =>
          obtain rfl := Option.some.inj h
          rw [eq_of_beq hkey]
          exact List.mem_cons_self
      · exact List.mem_cons_of_mem _ (ih h)

theorem Valid.same {v : Json} (h : v.Valid) : Same v v := by
  induction h with
  | null => exact .null
  | bool b => exact .bool b
  | num _ => exact .num _
  | str s => exact .str s
  | arr _ ih => exact .arr (List.forall₂_same.2 ih)
  | @obj fields hkeys _ ih =>
      refine .obj hkeys hkeys fun key => ?_
      cases hlookup : fields.lookup key with
      | none => exact .none
      | some v => exact .some (ih _ (mem_of_lookup hlookup))

end Json

/-- `serde_json::to_string` and `serde_json::from_str`. -/
structure JsonCodec where
  toString : Json → String
  fromStr : String → Option Json
  fromStr_toString : ∀ v, v.Valid → ∃ v', fromStr (toString v) = some v' ∧ v.Same v'
  one_line : ∀ v, v.Valid → ∀ c ∈ (toString v).toList, c ≠ '\n' ∧ c ≠ '\r'

/-! ## The compact text -/

namespace Json

def hexDigit (d : ℕ) : Char := Char.ofNat (if d < 10 then 48 + d else 87 + d)

/-- A character of a string literal. -/
def escape (c : Char) : List Char :=
  if c = '"' then ['\\', '"']
  else if c = '\\' then ['\\', '\\']
  else if c = '\n' then ['\\', 'n']
  else if c = '\r' then ['\\', 'r']
  else if c = '\t' then ['\\', 't']
  else if c.toNat = 8 then ['\\', 'b']
  else if c.toNat = 12 then ['\\', 'f']
  else if c.toNat < 32 then ['\\', 'u', '0', '0', hexDigit (c.toNat / 16), hexDigit (c.toNat % 16)]
  else [c]

def writeString (s : String) : List Char := '"' :: (s.toList.flatMap escape ++ ['"'])

mutual

/-- The text of a value. -/
def write : Json → List Char
  | .null => ['n', 'u', 'l', 'l']
  | .bool true => ['t', 'r', 'u', 'e']
  | .bool false => ['f', 'a', 'l', 's', 'e']
  | .num n => n.repr.toList
  | .float text => text.toList
  | .str s => writeString s
  | .arr elements => '[' :: writeElements elements
  | .obj fields => '{' :: writeFields fields

/-- The elements of an array and the bracket after them, each element behind a comma but the
    first. -/
def writeElements : List Json → List Char
  | [] => [']']
  | v :: rest => write v ++ writeMoreElements rest

def writeMoreElements : List Json → List Char
  | [] => [']']
  | v :: rest => ',' :: (write v ++ writeMoreElements rest)

def writeFields : List (String × Json) → List Char
  | [] => ['}']
  | (key, v) :: rest => writeString key ++ ':' :: (write v ++ writeMoreFields rest)

def writeMoreFields : List (String × Json) → List Char
  | [] => ['}']
  | (key, v) :: rest => ',' :: (writeString key ++ ':' :: (write v ++ writeMoreFields rest))

end

def hexValue (c : Char) : ℕ :=
  if c.toNat < 58 then c.toNat - 48 else c.toNat - 87

/-- The character that stands behind a backslash. -/
def unescape (c : Char) : Option Char :=
  if c = '"' then some '"'
  else if c = '\\' then some '\\'
  else if c = 'n' then some '\n'
  else if c = 'r' then some '\r'
  else if c = 't' then some '\t'
  else if c = 'b' then some (Char.ofNat 8)
  else if c = 'f' then some (Char.ofNat 12)
  else none

/-- The characters up to the end of a string literal, and what comes after it. -/
def readString : List Char → Option (List Char × List Char)
  | [] => none
  | '"' :: rest => some ([], rest)
  | '\\' :: 'u' :: '0' :: '0' :: h :: l :: rest =>
    (readString rest).map fun r => (Char.ofNat (16 * hexValue h + hexValue l) :: r.1, r.2)
  | '\\' :: c :: rest => do
    let c ← unescape c
    let r ← readString rest
    return (c :: r.1, r.2)
  | c :: rest => (readString rest).map fun r => (c :: r.1, r.2)

/-- A number, which is a `float` when 64 bits do not hold it. -/
def readNumber (cs : List Char) : Option (Json × List Char) :=
  let digits := cs.takeWhile Char.isDigit
  let n := Nat.ofDigitChars 10 digits 0
  if digits = [] then none
  else some (if n < 2 ^ 64 then .num n else .float (String.ofList digits), cs.dropWhile Char.isDigit)

/-- A word, and the value it stands for. -/
def readWord (word : List Char) (v : Json) (cs : List Char) : Option (Json × List Char) :=
  if word <+: cs then some (v, cs.drop word.length) else none

/-- The key of a field, with the colon. -/
def readKey : List Char → Option (String × List Char)
  | '"' :: cs =>
    (readString cs).bind fun r =>
      match r.2 with
      | ':' :: rest => some (String.ofList r.1, rest)
      | _ => none
  | _ => none

mutual

/-- The value a text begins with, and what comes after it; `n` bounds the depth and the length. -/
def readValue : ℕ → List Char → Option (Json × List Char)
  | 0, _ => none
  | _ + 1, [] => none
  | n + 1, c :: cs =>
    if c = 'n' then readWord ['u', 'l', 'l'] .null cs
    else if c = 't' then readWord ['r', 'u', 'e'] (.bool true) cs
    else if c = 'f' then readWord ['a', 'l', 's', 'e'] (.bool false) cs
    else if c = '"' then (readString cs).map fun r => (.str (String.ofList r.1), r.2)
    else if c = '[' then
      if cs.head? = some ']' then some (.arr [], cs.tail)
      else
        (readValue n cs).bind fun v =>
          (readMoreElements n v.2).map fun r => (.arr (v.1 :: r.1), r.2)
    else if c = '\x7b' then
      if cs.head? = some '\x7d' then some (.obj [], cs.tail)
      else
        (readKey cs).bind fun key =>
          (readValue n key.2).bind fun v =>
            (readMoreFields n v.2).map fun r => (.obj ((key.1, v.1) :: r.1), r.2)
    else readNumber (c :: cs)

def readMoreElements : ℕ → List Char → Option (List Json × List Char)
  | 0, _ => none
  | _ + 1, [] => none
  | n + 1, c :: cs =>
    if c = ']' then some ([], cs)
    else if c = ',' then
      (readValue n cs).bind fun v =>
        (readMoreElements n v.2).map fun r => (v.1 :: r.1, r.2)
    else none

def readMoreFields : ℕ → List Char → Option (List (String × Json) × List Char)
  | 0, _ => none
  | _ + 1, [] => none
  | n + 1, c :: cs =>
    if c = '\x7d' then some ([], cs)
    else if c = ',' then
      (readKey cs).bind fun key =>
        (readValue n key.2).bind fun v =>
          (readMoreFields n v.2).map fun r => ((key.1, v.1) :: r.1, r.2)
    else none

end

/-- The value that a whole text stands for. -/
def read (text : String) : Option Json :=
  match readValue (text.toList.length + 1) text.toList with
  | some (v, []) => some v
  | _ => none

/-! ### Strings are read back -/

theorem hexValue_hexDigit : ∀ d < 16, hexValue (hexDigit d) = d := by decide

theorem readString_escape (c : Char) (cs : List Char) :
    readString (escape c ++ cs) = (readString cs).map fun r => (c :: r.1, r.2) := by
  unfold escape
  split
  · next h =>
      subst h
      cases hcs : readString cs <;> simp [readString, unescape, hcs]
  split
  · next h =>
      subst h
      cases hcs : readString cs <;> simp [readString, unescape, hcs]
  split
  · next h =>
      subst h
      cases hcs : readString cs <;> simp [readString, unescape, hcs]
  split
  · next h =>
      subst h
      cases hcs : readString cs <;> simp [readString, unescape, hcs]
  split
  · next h =>
      subst h
      cases hcs : readString cs <;> simp [readString, unescape, hcs]
  split
  · next h =>
      obtain rfl : c = Char.ofNat 8 := by rw [← h, Char.ofNat_toNat]
      cases hcs : readString cs <;> simp [readString, unescape, hcs]
  split
  · next h =>
      obtain rfl : c = Char.ofNat 12 := by rw [← h, Char.ofNat_toNat]
      cases hcs : readString cs <;> simp [readString, unescape, hcs]
  split
  · next h =>
      have hc : Char.ofNat (16 * (c.toNat / 16) + c.toNat % 16) = c := by
        rw [Nat.div_add_mod, Char.ofNat_toNat]
      simp [readString, hexValue_hexDigit _ (show c.toNat / 16 < 16 by omega),
        hexValue_hexDigit _ (Nat.mod_lt c.toNat (by decide : 0 < 16)), hc]
  · next h1 h2 _ _ _ _ _ _ =>
      rw [List.singleton_append, readString.eq_def]
      split <;> simp_all

theorem readString_flatMap (cs rest : List Char) :
    readString (cs.flatMap escape ++ '"' :: rest) = some (cs, rest) := by
  induction cs with
  | nil => simp [readString]
  | cons c cs ih => rw [List.flatMap_cons, List.append_assoc, readString_escape, ih, Option.map_some]

theorem readKey_writeString (key : String) (rest : List Char) :
    readKey (writeString key ++ ':' :: rest) = some (key, rest) := by
  rw [writeString, List.cons_append, List.append_assoc, List.singleton_append, readKey,
    readString_flatMap, Option.bind_some]
  simp

/-! ### Numbers are read back -/

/-- What comes after a number does not go on with it. -/
def NoDigit (cs : List Char) : Prop := ∀ c ∈ cs.head?, c.isDigit = false

theorem readNumber_repr {n : ℕ} (hn : n < 2 ^ 64) {rest : List Char} (hrest : NoDigit rest) :
    readNumber (n.repr.toList ++ rest) = some (.num n, rest) := by
  have hdigits : ∀ c ∈ Nat.toDigits 10 n, c.isDigit = true := fun c hc =>
    Nat.isDigit_of_mem_toDigits (by decide) (by decide) hc
  have hstop : rest.takeWhile Char.isDigit = [] ∧ rest.dropWhile Char.isDigit = rest := by
    cases rest with
    | nil => exact ⟨rfl, rfl⟩
    | cons c rest =>
        have hc : c.isDigit = false := hrest c rfl
        simp [hc]
  rw [Nat.repr_eq_ofList_toDigits, String.toList_ofList, readNumber,
    List.takeWhile_append_of_pos hdigits, List.dropWhile_append_of_pos hdigits, hstop.1, hstop.2,
    List.append_nil, if_neg Nat.toDigits_ne_nil, Nat.ofDigitChars_ten_toDigits, if_pos hn]

theorem repr_head (n : ℕ) : ∃ c cs, n.repr.toList = c :: cs ∧ c.isDigit = true := by
  rw [Nat.repr_eq_ofList_toDigits, String.toList_ofList]
  cases hn : Nat.toDigits 10 n with
  | nil => exact absurd hn Nat.toDigits_ne_nil
  | cons c cs =>
      refine ⟨c, cs, rfl, Nat.isDigit_of_mem_toDigits (b := 10) (n := n) (by decide) (by decide) ?_⟩
      rw [hn]
      exact List.mem_cons_self

/-! ### Values are read back -/

theorem write_ne_bracket {v : Json} (hv : v.Valid) (rest : List Char) :
    (write v ++ rest).head? ≠ some ']' := by
  cases hv with
  | bool b => cases b <;> simp [write]
  | @num n _ =>
      obtain ⟨c, cs, hn, hc⟩ := repr_head n
      rw [write, hn]
      rintro h
      obtain rfl := Option.some.inj h
      cases hc
  | _ => simp [write, writeString]

theorem noDigit_moreElements (elements : List Json) (rest : List Char) :
    NoDigit (writeMoreElements elements ++ rest) := by
  cases elements <;> simp [writeMoreElements, NoDigit]

theorem noDigit_moreFields (fields : List (String × Json)) (rest : List Char) :
    NoDigit (writeMoreFields fields ++ rest) := by
  cases fields <;> simp [writeMoreFields, NoDigit]

theorem exists_succ {cs : List Char} {n : ℕ} (hn : cs.length ≤ n) (hcs : cs ≠ []) :
    ∃ m, n = m + 1 := by
  have hpos : 0 < cs.length := List.length_pos_iff.2 hcs
  exact ⟨n - 1, by omega⟩

mutual

theorem readValue_write : ∀ (v : Json) (n : ℕ) (rest : List Char), v.Valid →
    (write v).length ≤ n → NoDigit rest → readValue n (write v ++ rest) = some (v, rest)
  | .null, n, rest, _, hn, _ => by
      obtain ⟨n, rfl⟩ := exists_succ hn (by simp [write])
      simp [write, readValue, readWord]
  | .bool b, n, rest, _, hn, _ => by
      obtain ⟨n, rfl⟩ := exists_succ hn (by cases b <;> simp [write])
      cases b <;> simp [write, readValue, readWord]
  | .num k, n, rest, hv, hn, hrest => by
      obtain ⟨c, cs, hk, hc⟩ := repr_head k
      obtain ⟨n, rfl⟩ := exists_succ hn (by simp [write, hk])
      cases hv with
      | num hk' =>
          have hread := readNumber_repr hk' hrest
          rw [write]
          rw [hk] at hread ⊢
          have hne : ∀ d, d.isDigit = false → c ≠ d := by
            rintro d hd rfl
            rw [hc] at hd
            cases hd
          rw [List.cons_append, readValue, if_neg (hne _ rfl), if_neg (hne _ rfl),
            if_neg (hne _ rfl), if_neg (hne _ rfl), if_neg (hne _ rfl), if_neg (hne _ rfl)]
          exact hread
  | .float _, _, _, hv, _, _ => by cases hv
  | .str s, n, rest, _, hn, _ => by
      obtain ⟨n, rfl⟩ := exists_succ hn (by simp [write, writeString])
      simp [write, writeString, readValue, readString_flatMap]
  | .arr [], n, rest, _, hn, _ => by
      obtain ⟨n, rfl⟩ := exists_succ hn (by simp [write])
      simp [write, writeElements, readValue]
  | .arr (v :: elements), n, rest, hv, hn, _ => by
      obtain ⟨n, rfl⟩ := exists_succ hn (by simp [write])
      rw [write, writeElements, List.length_cons, List.length_append] at hn
      cases hv with
      | arr h =>
          have hv := h v List.mem_cons_self
          have hread := readValue_write v n (writeMoreElements elements ++ rest) hv (by omega)
            (noDigit_moreElements elements rest)
          have hmore := readMoreElements_write elements n rest
            (fun w hw => h w (List.mem_cons_of_mem v hw)) (by omega)
          have hhead := write_ne_bracket hv (writeMoreElements elements ++ rest)
          rw [write, writeElements, List.cons_append, List.append_assoc, readValue]
          simp only [Char.reduceEq, if_false, if_true, hhead, hread, hmore, Option.bind_some,
            Option.map_some]
  | .obj [], n, rest, _, hn, _ => by
      obtain ⟨n, rfl⟩ := exists_succ hn (by simp [write])
      simp [write, writeFields, readValue]
  | .obj ((key, v) :: fields), n, rest, hv, hn, _ => by
      obtain ⟨n, rfl⟩ := exists_succ hn (by simp [write])
      rw [write, writeFields, List.length_cons, List.length_append, List.length_cons,
        List.length_append] at hn
      cases hv with
      | obj _ h =>
          have hread := readValue_write v n (writeMoreFields fields ++ rest)
            (h (key, v) List.mem_cons_self) (by omega) (noDigit_moreFields fields rest)
          have hmore := readMoreFields_write fields n rest
            (fun f hf => h f (List.mem_cons_of_mem _ hf)) (by omega)
          have hkey := readKey_writeString key (write v ++ (writeMoreFields fields ++ rest))
          have hhead : (writeString key ++ ':' :: (write v ++ (writeMoreFields fields ++ rest))).head?
              ≠ some '\x7d' := by simp [writeString]
          rw [write, writeFields, List.cons_append, List.append_assoc, List.cons_append,
            List.append_assoc, readValue]
          simp only [Char.reduceEq, if_false, if_true, hhead, hkey, hread, hmore, Option.bind_some,
            Option.map_some]

theorem readMoreElements_write : ∀ (elements : List Json) (n : ℕ) (rest : List Char),
    (∀ v ∈ elements, v.Valid) → (writeMoreElements elements).length ≤ n →
    readMoreElements n (writeMoreElements elements ++ rest) = some (elements, rest)
  | [], n, rest, _, hn => by
      obtain ⟨n, rfl⟩ := exists_succ hn (by simp [writeMoreElements])
      simp [writeMoreElements, readMoreElements]
  | v :: elements, n, rest, h, hn => by
      obtain ⟨n, rfl⟩ := exists_succ hn (by simp [writeMoreElements])
      rw [writeMoreElements, List.length_cons, List.length_append] at hn
      have hread := readValue_write v n (writeMoreElements elements ++ rest)
        (h v List.mem_cons_self) (by omega) (noDigit_moreElements elements rest)
      have hmore := readMoreElements_write elements n rest
        (fun w hw => h w (List.mem_cons_of_mem v hw)) (by omega)
      rw [writeMoreElements, List.cons_append, List.append_assoc, readMoreElements]
      simp only [Char.reduceEq, if_false, if_true, hread, hmore, Option.bind_some, Option.map_some]

theorem readMoreFields_write : ∀ (fields : List (String × Json)) (n : ℕ) (rest : List Char),
    (∀ f ∈ fields, f.2.Valid) → (writeMoreFields fields).length ≤ n →
    readMoreFields n (writeMoreFields fields ++ rest) = some (fields, rest)
  | [], n, rest, _, hn => by
      obtain ⟨n, rfl⟩ := exists_succ hn (by simp [writeMoreFields])
      simp [writeMoreFields, readMoreFields]
  | (key, v) :: fields, n, rest, h, hn => by
      obtain ⟨n, rfl⟩ := exists_succ hn (by simp [writeMoreFields])
      rw [writeMoreFields, List.length_cons, List.length_append, List.length_cons,
        List.length_append] at hn
      have hread := readValue_write v n (writeMoreFields fields ++ rest)
        (h (key, v) List.mem_cons_self) (by omega) (noDigit_moreFields fields rest)
      have hmore := readMoreFields_write fields n rest
        (fun f hf => h f (List.mem_cons_of_mem _ hf)) (by omega)
      have hkey := readKey_writeString key (write v ++ (writeMoreFields fields ++ rest))
      rw [writeMoreFields, List.cons_append, List.append_assoc, List.cons_append,
        List.append_assoc, readMoreFields]
      simp only [Char.reduceEq, if_false, if_true, hkey, hread, hmore, Option.bind_some,
        Option.map_some]

end

theorem read_write {v : Json} (hv : v.Valid) : read (String.ofList (write v)) = some v := by
  have h := readValue_write v ((write v).length + 1) [] hv (by omega) (by simp [NoDigit])
  rw [List.append_nil] at h
  rw [read, String.toList_ofList, h]

/-! ### Values are written on one line -/

def OneLine (cs : List Char) : Prop := ∀ c ∈ cs, c ≠ '\n' ∧ c ≠ '\r'

theorem OneLine.cons {c : Char} {cs : List Char} (hn : c ≠ '\n') (hr : c ≠ '\r')
    (h : OneLine cs) : OneLine (c :: cs) := by
  intro d hd
  rcases List.mem_cons.1 hd with rfl | hd
  · exact ⟨hn, hr⟩
  · exact h d hd

theorem OneLine.append {cs cs' : List Char} (h : OneLine cs) (h' : OneLine cs') :
    OneLine (cs ++ cs') := fun c hc => (List.mem_append.1 hc).elim (h c) (h' c)

theorem oneLine_hexDigit : ∀ d < 16, hexDigit d ≠ '\n' ∧ hexDigit d ≠ '\r' := by decide

theorem oneLine_escape (c : Char) : OneLine (escape c) := by
  unfold escape
  iterate 7
    split
    · simp [OneLine]
  split
  · next h =>
      have h1 := oneLine_hexDigit (c.toNat / 16) (by omega)
      have h2 := oneLine_hexDigit (c.toNat % 16) (Nat.mod_lt _ (by decide))
      simp [OneLine, h1, h2]
  · next hn hr _ _ _ _ => simp [OneLine, hn, hr]

theorem oneLine_writeString (s : String) : OneLine (writeString s) := by
  refine .cons (by decide) (by decide) (.append ?_ (by simp [OneLine]))
  intro c hc
  obtain ⟨d, -, hd⟩ := List.mem_flatMap.1 hc
  exact oneLine_escape d c hd

theorem oneLine_moreElements {elements : List Json} (h : ∀ v ∈ elements, OneLine (write v)) :
    OneLine (writeMoreElements elements) := by
  induction elements with
  | nil => simp [writeMoreElements, OneLine]
  | cons v elements ih =>
      rw [writeMoreElements]
      exact .cons (by decide) (by decide) (.append (h v List.mem_cons_self)
        (ih fun w hw => h w (List.mem_cons_of_mem v hw)))

theorem oneLine_moreFields {fields : List (String × Json)} (h : ∀ f ∈ fields, OneLine (write f.2)) :
    OneLine (writeMoreFields fields) := by
  induction fields with
  | nil => simp [writeMoreFields, OneLine]
  | cons f fields ih =>
      obtain ⟨key, v⟩ := f
      rw [writeMoreFields]
      exact .cons (by decide) (by decide) (.append (oneLine_writeString key)
        (.cons (by decide) (by decide) (.append (h (key, v) List.mem_cons_self)
          (ih fun g hg => h g (List.mem_cons_of_mem _ hg)))))

theorem oneLine_write {v : Json} (hv : v.Valid) : OneLine (write v) := by
  induction hv with
  | null => simp [write, OneLine]
  | bool b => cases b <;> simp [write, OneLine]
  | @num n _ =>
      intro c hc
      rw [write, Nat.repr_eq_ofList_toDigits, String.toList_ofList] at hc
      have hdigit := Nat.isDigit_of_mem_toDigits (by decide) (by decide) hc
      constructor <;>
        · rintro rfl
          cases hdigit
  | str s => rw [write]; exact oneLine_writeString s
  | @arr elements _ ih =>
      rw [write]
      refine .cons (by decide) (by decide) ?_
      cases elements with
      | nil => simp [writeElements, OneLine]
      | cons v elements =>
          rw [writeElements]
          exact .append (ih v List.mem_cons_self)
            (oneLine_moreElements fun w hw => ih w (List.mem_cons_of_mem v hw))
  | @obj fields _ _ ih =>
      rw [write]
      refine .cons (by decide) (by decide) ?_
      cases fields with
      | nil => simp [writeFields, OneLine]
      | cons f fields =>
          obtain ⟨key, v⟩ := f
          rw [writeFields]
          exact .append (oneLine_writeString key) (.cons (by decide) (by decide)
            (.append (ih (key, v) List.mem_cons_self)
              (oneLine_moreFields fun g hg => ih g (List.mem_cons_of_mem _ hg))))

end Json

/-- The codec of the compact text. -/
def JsonCodec.compact : JsonCodec where
  toString v := String.ofList v.write
  fromStr := Json.read
  fromStr_toString v hv := ⟨v, Json.read_write hv, hv.same⟩
  one_line v hv := by
    rw [String.toList_ofList]
    exact Json.oneLine_write hv

theorem JsonCodec.compact_fromStr_toString (v : Json) (hv : v.Valid) :
    compact.fromStr (compact.toString v) = some v :=
  Json.read_write hv

end Lib
