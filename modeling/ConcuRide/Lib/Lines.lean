import Mathlib.Data.List.Basic

set_option autoImplicit false

/-! # Lines of a byte stream

Texts are written on a stream in UTF-8, each behind the other, and read back as the lines of the
stream, as `BufReader::lines` of `tokio` cuts them: a line ends with a newline (10), and a carriage
return (13) before the newline does not belong to it. -/

namespace Lib

/-- The bytes of a text. -/
def utf8 (s : String) : List UInt8 := s.toList.flatMap String.utf8EncodeChar

/-- The text of bytes; `none` for bytes that are none. -/
def ofUtf8 (bytes : List UInt8) : Option String := String.fromUTF8? bytes.toByteArray

/-- The stream, cut behind every newline. -/
def pieces : List UInt8 → List (List UInt8)
  | [] => []
  | b :: rest =>
    if b = 10 then [b] :: pieces rest
    else
      match pieces rest with
      | [] => [[b]]
      | piece :: more => (b :: piece) :: more

/-- A piece without the newline at its end, and the carriage return before it. -/
def popNewline (piece : List UInt8) : List UInt8 :=
  if piece.getLast? = some 10 then
    if piece.dropLast.getLast? = some 13 then piece.dropLast.dropLast else piece.dropLast
  else piece

/-- The lines of a stream; `none` for a line that is no text. -/
def lines (stream : List UInt8) : List (Option String) :=
  (pieces stream).map fun piece => ofUtf8 (popNewline piece)

/-! ## What is written in lines is read back -/

theorem ofUtf8_utf8 (s : String) : ofUtf8 (utf8 s) = some s := by
  have hbytes : (utf8 s).toByteArray = s.toByteArray := String.utf8Encode_toList
  rw [ofUtf8, hbytes, String.fromUTF8?, dif_pos s.isValidUTF8]
  rfl

/-- A byte below 128 is the character it stands for. -/
theorem mem_utf8EncodeChar {b : UInt8} {c : Char} (h : b ∈ String.utf8EncodeChar c)
    (hb : b.toNat < 128) : c.toNat = b.toNat := by
  have hval : c.toNat = c.val.toNat := rfl
  -- a byte of a longer sequence
  have long : ∀ n : ℕ, 128 ≤ n → n < 256 → b ≠ UInt8.ofNat n := by
    rintro n hn hn' rfl
    rw [UInt8.toNat_ofNat'] at hb
    omega
  simp only [String.utf8EncodeChar] at h
  split at h
  · next hone =>
      obtain rfl := List.mem_singleton.1 h
      rw [UInt8.toNat_ofNat', hval]
      omega
  · exfalso
    split at h
    · simp only [List.mem_cons, List.not_mem_nil, or_false] at h
      rcases h with h | h <;> exact long _ (by omega) (by omega) h
    · split at h
      · simp only [List.mem_cons, List.not_mem_nil, or_false] at h
        rcases h with h | h | h <;> exact long _ (by omega) (by omega) h
      · simp only [List.mem_cons, List.not_mem_nil, or_false] at h
        rcases h with h | h | h | h <;> exact long _ (by omega) (by omega) h

theorem pieces_newline {line : List UInt8} (h : 10 ∉ line) (rest : List UInt8) :
    pieces (line ++ 10 :: rest) = (line ++ [10]) :: pieces rest := by
  induction line with
  | nil => rw [List.nil_append, pieces, if_pos rfl, List.nil_append]
  | cons b line ih =>
      obtain ⟨hb, hline⟩ := not_or.1 (mt List.mem_cons.2 h)
      rw [List.cons_append, pieces, if_neg (Ne.symm hb), ih hline, List.cons_append]

theorem popNewline_newline {line : List UInt8} (h : 13 ∉ line) :
    popNewline (line ++ [10]) = line := by
  have hlast : line.getLast? ≠ some 13 := fun hlast => h (List.mem_of_getLast? hlast)
  rw [popNewline, List.getLast?_append, List.getLast?_singleton, Option.some_or, if_pos rfl,
    List.dropLast_concat, if_neg hlast]

/-- **Texts without line breaks, each followed by a newline, are the lines of the stream.** -/
theorem lines_flatMap (texts : List String)
    (h : ∀ text ∈ texts, ∀ c ∈ text.toList, c ≠ '\n' ∧ c ≠ '\r') :
    lines (texts.flatMap fun text => utf8 (text ++ "\n")) = texts.map some := by
  induction texts with
  | nil => rfl
  | cons text texts ih =>
      -- no byte of the text is a line break
      have hbreak : ∀ b ∈ utf8 text, b ≠ 10 ∧ b ≠ 13 := by
        intro b hb
        obtain ⟨c, hc, hb⟩ := List.mem_flatMap.1 hb
        obtain ⟨hn, hr⟩ := h text List.mem_cons_self c hc
        constructor
        · rintro rfl
          exact hn (Char.ext (UInt32.toNat_inj.1 (mem_utf8EncodeChar hb (by decide))))
        · rintro rfl
          exact hr (Char.ext (UInt32.toNat_inj.1 (mem_utf8EncodeChar hb (by decide))))
      have hline : utf8 (text ++ "\n") = utf8 text ++ [10] := by
        rw [utf8, String.toList_append, List.flatMap_append]
        rfl
      rw [List.flatMap_cons, hline, List.append_assoc, List.singleton_append, lines,
        pieces_newline fun hmem => (hbreak 10 hmem).1 rfl, List.map_cons, List.map_cons,
        popNewline_newline fun hmem => (hbreak 13 hmem).2 rfl, ofUtf8_utf8]
      exact congrArg _ (ih fun t ht => h t (List.mem_cons_of_mem text ht))

end Lib
