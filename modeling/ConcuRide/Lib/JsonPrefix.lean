import ConcuRide.Lib.JsonText

set_option autoImplicit false

/-! # Truncated texts

A text of an object ends with the brace that closes it: no shorter beginning of it is the text of a
value. What a stream breaks off is therefore not taken for a message. -/

namespace Lib

/-- The beginning of the text of an object is not the text of any value, but the whole of it. -/
def JsonCodec.RejectsTruncated (codec : JsonCodec) : Prop :=
  ∀ (fields : List (String × Json)) (s : String), (Json.obj fields).Valid →
    s.toList <+: (codec.toString (.obj fields)).toList → s ≠ codec.toString (.obj fields) →
      codec.fromStr s = none

namespace Json

variable {cs rest : List Char}

/-! ## What a reader has read does not change when more comes behind -/

theorem readString_append {s : List Char} (h : readString cs = some (s, rest)) (more : List Char) :
    readString (cs ++ more) = some (s, rest ++ more) := by
  induction cs using readString.induct generalizing s with
  | case1 => cases h
  | case2 cs =>
      rw [readString] at h
      cases h
      rfl
  | case3 high low cs ih =>
      simp only [readString, Option.map_eq_some_iff] at h
      obtain ⟨r, hr, heq⟩ := h
      cases heq
      simp only [List.cons_append, readString, ih hr, Option.map_some]
  | case4 c cs hno ih =>
      rw [readString] at h
      · simp only [Option.bind_eq_bind, Option.bind_eq_some_iff] at h
        obtain ⟨d, hd, r, hr, heq⟩ := h
        cases heq
        -- a character that is escaped by itself is not the `u` of a code
        have hu : c ≠ 'u' := by
          rintro rfl
          simp [unescape] at hd
        rw [List.cons_append, List.cons_append, readString]
        · simp [hd, ih hr]
        · exact fun _ _ _ hc => absurd hc hu
      · exact hno
  | case5 c cs hquote hcode hescape ih =>
      rw [readString, Option.map_eq_some_iff] at h
      · obtain ⟨r, hr, heq⟩ := h
        cases heq
        -- a lone backslash would end the text
        have hback : c ≠ '\\' := by
          rintro rfl
          cases cs with
          | nil => cases hr
          | cons d cs => exact hescape d cs rfl rfl
        rw [List.cons_append, readString, ih hr]
        · rfl
        · exact hquote
        · exact fun _ _ _ hc => absurd hc hback
        · exact fun _ _ hc => absurd hc hback
      · exact hquote
      · exact hcode
      · exact hescape

theorem readKey_append {key : String} (h : readKey cs = some (key, rest)) (more : List Char) :
    readKey (cs ++ more) = some (key, rest ++ more) := by
  unfold readKey at h
  split at h
  · next cs =>
      obtain ⟨r, hr, h⟩ := Option.bind_eq_some_iff.1 h
      split at h
      · next hcolon =>
          cases h
          rw [List.cons_append, readKey, readString_append hr, Option.bind_some, hcolon]
          rfl
      · cases h
  · cases h

theorem readWord_append {word : List Char} {v w : Json} (h : readWord word w cs = some (v, rest))
    (more : List Char) : readWord word w (cs ++ more) = some (v, rest ++ more) := by
  rw [readWord, Option.ite_none_right_eq_some, Option.some.injEq] at h
  obtain ⟨hword, heq⟩ := h
  cases heq
  rw [readWord, if_pos (hword.trans (List.prefix_append cs more)),
    List.drop_append_of_le_length hword.length_le]

/-- A number ends where something else begins. -/
theorem readNumber_append {v : Json} (h : readNumber cs = some (v, rest)) (hrest : rest ≠ [])
    (more : List Char) : readNumber (cs ++ more) = some (v, rest ++ more) := by
  simp only [readNumber, Option.ite_none_left_eq_some, Option.some.injEq, Prod.mk.injEq] at h
  obtain ⟨hdigits, rfl, rfl⟩ := h
  have hstop : (cs ++ more).takeWhile Char.isDigit = cs.takeWhile Char.isDigit ∧
      (cs ++ more).dropWhile Char.isDigit = cs.dropWhile Char.isDigit ++ more := by
    have hlength : (cs.takeWhile Char.isDigit).length ≠ cs.length := by
      have hsplit : cs.takeWhile Char.isDigit ++ cs.dropWhile Char.isDigit = cs :=
        List.takeWhile_append_dropWhile
      have hlength := congrArg List.length hsplit
      have hpos := List.length_pos_iff.2 hrest
      rw [List.length_append] at hlength
      omega
    exact ⟨by rw [List.takeWhile_append, if_neg hlength],
      by rw [List.dropWhile_append, if_neg (by simpa using hrest)]⟩
  simp only [readNumber, hstop, if_neg hdigits]

theorem ne_nil_of_readMoreElements {n : ℕ} {vs : List Json}
    (h : readMoreElements n cs = some (vs, rest)) : cs ≠ [] := by
  rintro rfl
  cases n <;> cases h

theorem ne_nil_of_readMoreFields {n : ℕ} {fs : List (String × Json)}
    (h : readMoreFields n cs = some (fs, rest)) : cs ≠ [] := by
  rintro rfl
  cases n <;> cases h

theorem head?_append_of_ne_nil (h : cs ≠ []) (more : List Char) :
    (cs ++ more).head? = cs.head? := by
  cases cs with
  | nil => exact absurd rfl h
  | cons c cs => rfl

mutual

/-- A value is read in the same way when more comes behind the end that was seen. -/
theorem readValue_append : ∀ (n m : ℕ) (cs rest more : List Char) (v : Json), n ≤ m →
    readValue n cs = some (v, rest) → rest ≠ [] ∨ cs.head? = some '\x7b' →
      readValue m (cs ++ more) = some (v, rest ++ more)
  | 0, _, _, _, _, _, _, h, _ => by cases h
  | _ + 1, _, [], _, _, _, _, h, _ => by cases h
  | n + 1, m, c :: cs, rest, more, v, hm, h, hend => by
      obtain ⟨m, rfl⟩ : ∃ k, m = k + 1 := ⟨m - 1, by omega⟩
      replace hm : n ≤ m := by omega
      rw [readValue] at h
      rw [List.cons_append, readValue]
      split at h
      · next hc => rw [if_pos hc, readWord_append h]
      next hnull =>
      split at h
      · next hc => rw [if_neg hnull, if_pos hc, readWord_append h]
      next htrue =>
      split at h
      · next hc => rw [if_neg hnull, if_neg htrue, if_pos hc, readWord_append h]
      next hfalse =>
      split at h
      · next hc =>
          obtain ⟨r, hr, heq⟩ := Option.map_eq_some_iff.1 h
          cases heq
          rw [if_neg hnull, if_neg htrue, if_neg hfalse, if_pos hc, readString_append hr, Option.map_some]
      next hquote =>
      rw [if_neg hnull, if_neg htrue, if_neg hfalse, if_neg hquote]
      split at h
      · next hc =>
          rw [if_pos hc]
          split at h
          · next hhead =>
              cases h
              obtain ⟨cs, rfl⟩ := List.head?_eq_some_iff.1 hhead
              rfl
          · next hhead =>
              obtain ⟨r, hr, h⟩ := Option.bind_eq_some_iff.1 h
              obtain ⟨r', hr', heq⟩ := Option.map_eq_some_iff.1 h
              cases heq
              have hne : cs ≠ [] := by
                rintro rfl
                cases n <;> cases hr
              rw [head?_append_of_ne_nil hne, if_neg hhead,
                readValue_append n m cs r.2 more r.1 hm hr
                  (.inl (ne_nil_of_readMoreElements hr')), Option.bind_some,
                readMoreElements_append n m r.2 r'.2 more r'.1 hm hr', Option.map_some]
      next hbracket =>
      rw [if_neg hbracket]
      split at h
      · next hc =>
          rw [if_pos hc]
          split at h
          · next hhead =>
              cases h
              obtain ⟨cs, rfl⟩ := List.head?_eq_some_iff.1 hhead
              rfl
          · next hhead =>
              obtain ⟨k, hk, h⟩ := Option.bind_eq_some_iff.1 h
              obtain ⟨r, hr, h⟩ := Option.bind_eq_some_iff.1 h
              obtain ⟨r', hr', heq⟩ := Option.map_eq_some_iff.1 h
              cases heq
              have hne : cs ≠ [] := by
                rintro rfl
                cases hk
              rw [head?_append_of_ne_nil hne, if_neg hhead, readKey_append hk, Option.bind_some,
                readValue_append n m k.2 r.2 more r.1 hm hr (.inl (ne_nil_of_readMoreFields hr')),
                Option.bind_some, readMoreFields_append n m r.2 r'.2 more r'.1 hm hr',
                Option.map_some]
      next hbrace =>
      rw [if_neg hbrace]
      have hrest : rest ≠ [] := hend.resolve_right fun hhead => hbrace (Option.some.inj hhead)
      exact readNumber_append h hrest more

theorem readMoreElements_append : ∀ (n m : ℕ) (cs rest more : List Char) (vs : List Json), n ≤ m →
    readMoreElements n cs = some (vs, rest) →
      readMoreElements m (cs ++ more) = some (vs, rest ++ more)
  | 0, _, _, _, _, _, _, h => by cases h
  | _ + 1, _, [], _, _, _, _, h => by cases h
  | n + 1, m, c :: cs, rest, more, vs, hm, h => by
      obtain ⟨m, rfl⟩ : ∃ k, m = k + 1 := ⟨m - 1, by omega⟩
      replace hm : n ≤ m := by omega
      rw [readMoreElements] at h
      rw [List.cons_append, readMoreElements]
      split at h
      · next hc =>
          cases h
          rw [if_pos hc]
      next hclose =>
      rw [if_neg hclose]
      split at h
      · next hc =>
          obtain ⟨r, hr, h⟩ := Option.bind_eq_some_iff.1 h
          obtain ⟨r', hr', heq⟩ := Option.map_eq_some_iff.1 h
          cases heq
          rw [if_pos hc, readValue_append n m cs r.2 more r.1 hm hr
              (.inl (ne_nil_of_readMoreElements hr')), Option.bind_some,
            readMoreElements_append n m r.2 r'.2 more r'.1 hm hr', Option.map_some]
      · cases h

theorem readMoreFields_append : ∀ (n m : ℕ) (cs rest more : List Char) (fs : List (String × Json)),
    n ≤ m → readMoreFields n cs = some (fs, rest) →
      readMoreFields m (cs ++ more) = some (fs, rest ++ more)
  | 0, _, _, _, _, _, _, h => by cases h
  | _ + 1, _, [], _, _, _, _, h => by cases h
  | n + 1, m, c :: cs, rest, more, fs, hm, h => by
      obtain ⟨m, rfl⟩ : ∃ k, m = k + 1 := ⟨m - 1, by omega⟩
      replace hm : n ≤ m := by omega
      rw [readMoreFields] at h
      rw [List.cons_append, readMoreFields]
      split at h
      · next hc =>
          cases h
          rw [if_pos hc]
      next hclose =>
      rw [if_neg hclose]
      split at h
      · next hc =>
          obtain ⟨k, hk, h⟩ := Option.bind_eq_some_iff.1 h
          obtain ⟨r, hr, h⟩ := Option.bind_eq_some_iff.1 h
          obtain ⟨r', hr', heq⟩ := Option.map_eq_some_iff.1 h
          cases heq
          rw [if_pos hc, readKey_append hk, Option.bind_some,
            readValue_append n m k.2 r.2 more r.1 hm hr (.inl (ne_nil_of_readMoreFields hr')),
            Option.bind_some, readMoreFields_append n m r.2 r'.2 more r'.1 hm hr', Option.map_some]
      · cases h

end

end Json

theorem JsonCodec.compact_rejectsTruncated : compact.RejectsTruncated := by
  intro fields s hvalid hfirst hne
  obtain ⟨more, hmore⟩ := hfirst
  simp only [compact, String.toList_ofList] at hmore hne ⊢
  cases hread : Json.read s with
  | none => rfl
  | some v =>
      exfalso
      rw [Json.read] at hread
      split at hread
      · next w hvalue =>
          have hhead : s.toList.head? = some '\x7b' := by
            cases hs : s.toList with
            | nil =>
                rw [hs] at hvalue
                cases hvalue
            | cons c cs =>
                rw [hs, Json.write, List.cons_append] at hmore
                rw [List.head?_cons, (List.cons.inj hmore).1]
          have hlength : s.toList.length + 1 ≤ (Json.write (.obj fields)).length + 1 := by
            rw [← hmore, List.length_append]
            omega
          -- read with what is missing, the text has something behind its end
          have happend := Json.readValue_append _ _ _ _ more w hlength hvalue (.inr hhead)
          have hwrite := Json.readValue_write (.obj fields) _ [] hvalid (Nat.le_succ _)
            (by simp [Json.NoDigit])
          rw [List.append_nil] at hwrite
          rw [hmore, hwrite] at happend
          obtain rfl : [] = more := (Prod.mk.inj (Option.some.inj happend)).2
          rw [List.append_nil] at hmore
          exact hne (by rw [← hmore, String.ofList_toList])
      · cases hread

end Lib
