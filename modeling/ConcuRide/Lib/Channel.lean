import Mathlib.Data.List.Flatten
import ConcuRide.Lib.Lines
import ConcuRide.Lib.Run

set_option autoImplicit false

/-! # A connection as a channel of lines

One direction of a TCP connection. A writer owns the write half: it is given texts, holds them in
its mailbox, and writes one after the other, for which it takes its half out of an `Option` and puts
it back. The bytes travel in portions of any size; a reader cuts what has arrived into lines. The
writer may stop at any moment, in the middle of a text too, and what is still on its way may then be
lost. -/

namespace Lib

/-! ## Reading portion by portion -/

/-- The pieces of a stream that end with a newline, and the bytes behind the last of them. -/
def cut : List UInt8 → List (List UInt8) × List UInt8
  | [] => ([], [])
  | b :: stream =>
    if b = 10 then ([b] :: (cut stream).1, (cut stream).2)
    else
      match (cut stream).1 with
      | [] => ([], b :: (cut stream).2)
      | piece :: more => ((b :: piece) :: more, (cut stream).2)

/-- The line a piece stands for; `none` when it is no text. -/
def lineOf (piece : List UInt8) : Option String := ofUtf8 (popNewline piece)

/-- A portion arrives behind the bytes of an unfinished line: the lines it completes, and the bytes
    of the next one. -/
def feed (buffered portion : List UInt8) : List (Option String) × List UInt8 :=
  ((cut (buffered ++ portion)).1.map lineOf, (cut (buffered ++ portion)).2)

/-- The line that the end of the stream completes. -/
def finish (buffered : List UInt8) : List (Option String) :=
  if buffered = [] then [] else [lineOf buffered]

theorem cut_newline {line : List UInt8} (h : 10 ∉ line) (rest : List UInt8) :
    cut (line ++ 10 :: rest) = ((line ++ [10]) :: (cut rest).1, (cut rest).2) := by
  induction line with
  | nil => rw [List.nil_append, cut, if_pos rfl, List.nil_append]
  | cons b line ih =>
      obtain ⟨hb, hline⟩ := not_or.1 (mt List.mem_cons.2 h)
      rw [List.cons_append, cut, if_neg (Ne.symm hb), ih hline, List.cons_append]

theorem cut_line {line : List UInt8} (h : 10 ∉ line) : cut line = ([], line) := by
  induction line with
  | nil => rfl
  | cons b line ih =>
      obtain ⟨hb, hline⟩ := not_or.1 (mt List.mem_cons.2 h)
      rw [cut, if_neg (Ne.symm hb), ih hline]

/-- **A stream in two portions** has the lines of the whole. -/
theorem cut_append (stream portion : List UInt8) :
    cut (stream ++ portion) =
      ((cut stream).1 ++ (cut ((cut stream).2 ++ portion)).1,
        (cut ((cut stream).2 ++ portion)).2) := by
  induction stream with
  | nil => rfl
  | cons b stream ih =>
      rw [List.cons_append, cut, cut, ih]
      by_cases hb : b = 10
      · simp [hb]
      · cases hcut : (cut stream).1 with
        | nil => simp [hb, cut]
        | cons piece more => simp [hb]

/-! ## A writer and a reader -/

section

variable {Msg : Type}

/-- One direction of a connection. -/
structure Channel (Msg : Type) where
  /-- the messages that the writer was given, the oldest first -/
  sent : List Msg
  /-- the texts of those it has not begun to write -/
  mailbox : List String
  /-- the write half is not taken -/
  half : Bool
  /-- what is left of the text that is being written -/
  writing : Option (List UInt8)
  wire : List UInt8
  buffered : List UInt8
  /-- the lines that the reader has handed on, the oldest first -/
  lines : List (Option String)
  /-- the writer is gone -/
  closed : Bool
  /-- the reader has come to the end of the stream -/
  ended : Bool
  /-- the writer did not find its half -/
  panicked : Bool

namespace Channel

inductive Label (Msg : Type) where
  /-- another actor gives the writer a message -/
  | send (m : Msg)
  /-- the writer takes the next text, and its half -/
  | handle
  /-- `n` bytes of the text are written -/
  | write (n : ℕ)
  /-- the text is written; the half is put back -/
  | written
  /-- the writer goes: an error of the connection, a panic, the end of its process -/
  | close
  /-- of what is on its way when the writer has gone, `n` bytes are not lost -/
  | lose (n : ℕ)
  /-- `n` bytes arrive -/
  | arrive (n : ℕ)
  /-- the end of the stream -/
  | eof

def init : Channel Msg where
  sent := []
  mailbox := []
  half := true
  writing := none
  wire := []
  buffered := []
  lines := []
  closed := false
  ended := false
  panicked := false

/-- The step of a channel; `text` is the text of a message. While a text is written, no other is
    handled (`AtomicResponse`). -/
def step (text : Msg → String) (c : Channel Msg) : Label Msg → Option (Channel Msg)
  | .send m =>
    if c.closed then none
    else some { c with sent := c.sent ++ [m], mailbox := c.mailbox ++ [text m] }
  | .handle =>
    if c.closed ∨ c.writing.isSome then none
    else
      match c.mailbox with
      | [] => none
      | t :: rest =>
        if c.half then
          some { c with mailbox := rest, half := false, writing := some (utf8 t) }
        else some { c with mailbox := rest, closed := true, panicked := true }
  | .write n =>
    match c.writing with
    | none => none
    | some bytes =>
      some { c with writing := some (bytes.drop n), wire := c.wire ++ bytes.take n }
  | .written =>
    if c.writing = some [] then some { c with half := true, writing := none } else none
  | .close => some { c with closed := true, half := false, writing := none }
  | .lose n => if c.closed then some { c with wire := c.wire.take n } else none
  | .arrive n =>
    if c.ended then none
    else
      let (read, buffered) := feed c.buffered (c.wire.take n)
      some { c with wire := c.wire.drop n, buffered, lines := c.lines ++ read }
  | .eof =>
    if c.closed ∧ c.wire = [] ∧ c.ended = false then
      some { c with buffered := [], lines := c.lines ++ finish c.buffered, ended := true }
    else none

/-- Nothing is waiting, being written or on its way. -/
def Idle (c : Channel Msg) : Prop := c.mailbox = [] ∧ c.writing = none ∧ c.wire = []

variable {text : Msg → String} {c c' : Channel Msg} {l : Label Msg}

/-! ### The write half -/

/-- The half is there, unless a text is being written. -/
structure Halved (c : Channel Msg) : Prop where
  half : c.closed = false → (c.half = true ↔ c.writing = none)
  panicked : c.panicked = false

theorem Halved.step (h : Halved c) (hstep : c.step text l = some c') : Halved c' := by
  obtain ⟨hhalf, hpanicked⟩ := h
  cases l with
  | send m =>
      simp only [Channel.step, Option.ite_none_left_eq_some, Option.some.injEq] at hstep
      obtain ⟨-, rfl⟩ := hstep
      exact ⟨hhalf, hpanicked⟩
  | handle =>
      simp only [Channel.step, Option.ite_none_left_eq_some, not_or] at hstep
      obtain ⟨⟨hopen, hwriting⟩, hstep⟩ := hstep
      have hthere : c.half = true :=
        (hhalf (Bool.eq_false_iff.2 hopen)).2 (Option.not_isSome_iff_eq_none.1 hwriting)
      split at hstep
      · cases hstep
      · rw [if_pos hthere, Option.some.injEq] at hstep
        subst hstep
        exact ⟨fun _ => by simp, hpanicked⟩
  | write n =>
      simp only [Channel.step] at hstep
      split at hstep
      · cases hstep
      · next bytes hwriting =>
          obtain rfl := Option.some.inj hstep
          exact ⟨fun hopen => by simpa [hwriting] using hhalf hopen, hpanicked⟩
  | written =>
      simp only [Channel.step, Option.ite_none_right_eq_some, Option.some.injEq] at hstep
      obtain ⟨-, rfl⟩ := hstep
      exact ⟨fun _ => by simp, hpanicked⟩
  | close =>
      obtain rfl := Option.some.inj hstep
      exact ⟨fun hopen => (by cases hopen), hpanicked⟩
  | lose n =>
      simp only [Channel.step, Option.ite_none_right_eq_some, Option.some.injEq] at hstep
      obtain ⟨-, rfl⟩ := hstep
      exact ⟨hhalf, hpanicked⟩
  | arrive n =>
      simp only [Channel.step, Option.ite_none_left_eq_some, Option.some.injEq] at hstep
      obtain ⟨-, rfl⟩ := hstep
      exact ⟨hhalf, hpanicked⟩
  | eof =>
      simp only [Channel.step, Option.ite_none_right_eq_some, Option.some.injEq] at hstep
      obtain ⟨-, rfl⟩ := hstep
      exact ⟨hhalf, hpanicked⟩

/-! ### The bytes of a stream -/

/-- The bytes of everything the writer was given. -/
def stream (text : Msg → String) (c : Channel Msg) : List UInt8 :=
  c.sent.flatMap fun m => utf8 (text m)

/-- The bytes that have not reached the wire. -/
def pending (c : Channel Msg) : List UInt8 := c.writing.getD [] ++ c.mailbox.flatMap utf8

/-- The bytes that have arrived are the first of those that were sent, and the lines are theirs. -/
structure Carried (text : Msg → String) (c : Channel Msg) (arrived : List UInt8) : Prop where
  lines : c.lines = (cut arrived).1.map lineOf ++ if c.ended then finish (cut arrived).2 else []
  buffered : c.ended = false → c.buffered = (cut arrived).2
  ended : c.ended = true → c.closed = true
  closed : c.closed = true → c.writing = none
  whole : c.closed = false → arrived ++ c.wire ++ c.pending = c.stream text
  first : arrived ++ c.wire <+: c.stream text

theorem Carried.step {arrived : List UInt8} (h : Carried text c arrived)
    (hstep : c.step text l = some c') : ∃ arrived', Carried text c' arrived' := by
  obtain ⟨hlines, hbuffered, hended, hclosed, hwhole, hfirst⟩ := h
  cases l with
  | send m =>
      simp only [Channel.step, Option.ite_none_left_eq_some, Option.some.injEq] at hstep
      obtain ⟨hopen, rfl⟩ := hstep
      have hbytes := hwhole (Bool.eq_false_iff.2 hopen)
      refine ⟨arrived, hlines, hbuffered, hended, hclosed, fun _ => ?_, ?_⟩
      · simp only [stream, pending, List.flatMap_append, List.flatMap_singleton] at hbytes ⊢
        rw [← hbytes]
        simp only [List.append_assoc]
      · simp only [stream, List.flatMap_append]
        exact hfirst.trans (List.prefix_append _ _)
  | handle =>
      simp only [Channel.step, Option.ite_none_left_eq_some, not_or] at hstep
      obtain ⟨⟨hopen, hwriting⟩, hstep⟩ := hstep
      have hbytes := hwhole (Bool.eq_false_iff.2 hopen)
      rw [pending, Option.not_isSome_iff_eq_none.1 hwriting] at hbytes
      split at hstep
      · cases hstep
      · next t rest hmailbox =>
          split at hstep
          · obtain rfl := Option.some.inj hstep
            rw [hmailbox] at hbytes
            exact ⟨arrived, hlines, hbuffered, hended, fun hclosed => absurd hclosed hopen,
              fun _ => by simpa [pending, stream] using hbytes, hfirst⟩
          · obtain rfl := Option.some.inj hstep
            exact ⟨arrived, hlines, hbuffered, fun _ => rfl,
              fun _ => Option.not_isSome_iff_eq_none.1 hwriting, fun h => (by cases h), hfirst⟩
  | write n =>
      simp only [Channel.step] at hstep
      split at hstep
      · cases hstep
      · next bytes hwriting =>
          obtain rfl := Option.some.inj hstep
          have hopen : c.closed = false := by
            refine Bool.eq_false_iff.2 fun h => ?_
            rw [hclosed h] at hwriting
            cases hwriting
          have hbytes : arrived ++ (c.wire ++ bytes.take n) ++
              (bytes.drop n ++ c.mailbox.flatMap utf8) = c.stream text := by
            have hbytes := hwhole hopen
            rw [pending, hwriting, Option.getD_some] at hbytes
            simpa [← List.append_assoc, List.append_assoc _ (bytes.take n)] using hbytes
          exact ⟨arrived, hlines, hbuffered, hended,
            fun h => absurd h (Bool.eq_false_iff.1 hopen), fun _ => hbytes,
            hbytes ▸ List.prefix_append _ _⟩
  | written =>
      simp only [Channel.step, Option.ite_none_right_eq_some, Option.some.injEq] at hstep
      obtain ⟨hwriting, rfl⟩ := hstep
      exact ⟨arrived, hlines, hbuffered, hended, fun _ => rfl,
        fun hopen => by simpa [pending, stream, hwriting] using hwhole hopen, hfirst⟩
  | close =>
      obtain rfl := Option.some.inj hstep
      exact ⟨arrived, hlines, hbuffered, fun _ => rfl, fun _ => rfl, fun h => (by cases h), hfirst⟩
  | lose n =>
      simp only [Channel.step, Option.ite_none_right_eq_some, Option.some.injEq] at hstep
      obtain ⟨hgone, rfl⟩ := hstep
      refine ⟨arrived, hlines, hbuffered, hended, hclosed, fun hopen => ?_, ?_⟩
      · rw [hgone] at hopen
        cases hopen
      · exact ((List.prefix_append_right_inj arrived).2 (List.take_prefix n c.wire)).trans hfirst
  | arrive n =>
      simp only [Channel.step, Option.ite_none_left_eq_some, Option.some.injEq] at hstep
      obtain ⟨hrunning, rfl⟩ := hstep
      have hrunning : c.ended = false := Bool.eq_false_iff.2 hrunning
      have hsplit : arrived ++ c.wire.take n ++ c.wire.drop n = arrived ++ c.wire := by
        rw [List.append_assoc, List.take_append_drop]
      refine ⟨arrived ++ c.wire.take n, ?_, fun _ => ?_, hended, hclosed, ?_, ?_⟩
      · simp only [hlines, hrunning, feed, hbuffered hrunning, cut_append arrived, List.map_append]
        simp
      · simp only [feed, hbuffered hrunning, cut_append arrived]
      · rw [hsplit]
        exact hwhole
      · rw [hsplit]
        exact hfirst
  | eof =>
      simp only [Channel.step, Option.ite_none_right_eq_some, Option.some.injEq] at hstep
      obtain ⟨⟨hgone, -, hrunning⟩, rfl⟩ := hstep
      refine ⟨arrived, ?_, fun h => (by cases h), fun _ => hgone, hclosed, hwhole, hfirst⟩
      simp [hlines, hrunning, hbuffered hrunning]

/-! ### The lines of a stream -/

/-- A text that is one line. -/
def OneLine (s : String) : Prop := ∀ c ∈ s.toList, c ≠ '\n' ∧ c ≠ '\r'

theorem lineBytes {s : String} (h : OneLine s) : 10 ∉ utf8 s ∧ 13 ∉ utf8 s := by
  constructor
  · intro hb
    obtain ⟨c, hc, hb⟩ := List.mem_flatMap.1 hb
    exact (h c hc).1 (Char.ext (UInt32.toNat_inj.1 (mem_utf8EncodeChar hb (by decide))))
  · intro hb
    obtain ⟨c, hc, hb⟩ := List.mem_flatMap.1 hb
    exact (h c hc).2 (Char.ext (UInt32.toNat_inj.1 (mem_utf8EncodeChar hb (by decide))))

theorem popNewline_of_notMem {piece : List UInt8} (h : 10 ∉ piece) : popNewline piece = piece :=
  if_neg fun hlast => h (List.mem_of_getLast? hlast)

theorem utf8_newline (s : String) : utf8 (s ++ "\n") = utf8 s ++ [10] := by
  rw [utf8, String.toList_append, List.flatMap_append]
  rfl

/-- The first bytes of a text are no text, or its first characters. -/
theorem prefix_of_ofUtf8 {bytes : List UInt8} {s t : String} (h : ofUtf8 bytes = some s)
    (hbegins : bytes <+: utf8 t) : s.toList <+: t.toList := by
  obtain ⟨rest, hrest⟩ := hbegins
  have hbytes : s.toByteArray = bytes.toByteArray := by
    rw [ofUtf8, String.fromUTF8?] at h
    split at h
    · obtain rfl := Option.some.inj h
      rfl
    · cases h
  have hencode : s.toList.utf8Encode = s.toByteArray := String.utf8Encode_toList
  refine List.isPrefix_of_utf8Encode_append_eq_utf8Encode rest.toByteArray ?_
  rw [hencode, hbytes, ← List.toByteArray_append, hrest]
  rfl

theorem cut_lines {lines : List String} (h : ∀ s ∈ lines, OneLine s) :
    cut (lines.flatMap fun s => utf8 (s ++ "\n")) = (lines.map fun s => utf8 s ++ [10], []) := by
  induction lines with
  | nil => rfl
  | cons s lines ih =>
      rw [List.flatMap_cons, utf8_newline, List.append_assoc, List.singleton_append,
        cut_newline (lineBytes (h s List.mem_cons_self)).1,
        ih fun t ht => h t (List.mem_cons_of_mem s ht), List.map_cons]

/-- **The first bytes of a stream** hold its first lines, and the beginning of the next one. -/
theorem cut_prefix {lines : List String} (h : ∀ s ∈ lines, OneLine s) {bytes : List UInt8}
    (hbytes : bytes <+: lines.flatMap fun s => utf8 (s ++ "\n")) :
    ∃ n ≤ lines.length, (cut bytes).1.map lineOf = (lines.take n).map some ∧
      ((cut bytes).2 = [] ∨ ∃ s, lines[n]? = some s ∧ (cut bytes).2 <+: utf8 s) := by
  induction lines generalizing bytes with
  | nil =>
      obtain rfl := List.prefix_nil.1 hbytes
      exact ⟨0, Nat.le_refl 0, rfl, .inl rfl⟩
  | cons s lines ih =>
      obtain ⟨hnewline, hreturn⟩ := lineBytes (h s List.mem_cons_self)
      rw [List.flatMap_cons, utf8_newline, List.append_assoc, List.singleton_append] at hbytes
      rcases List.prefix_or_prefix_of_prefix hbytes (List.prefix_append (utf8 s) _) with hin | hover
      · have hcut := cut_line fun hmem => hnewline (hin.subset hmem)
        exact ⟨0, Nat.zero_le _, by simp [hcut], .inr ⟨s, rfl, by simpa [hcut] using hin⟩⟩
      · obtain ⟨rest, rfl⟩ := hover
        rw [List.prefix_append_right_inj] at hbytes
        cases rest with
        | nil =>
            have hcut := cut_line hnewline
            exact ⟨0, Nat.zero_le _, by simp [hcut], .inr ⟨s, rfl, by simp [hcut]⟩⟩
        | cons b rest =>
            obtain ⟨rfl, hrest⟩ := List.cons_prefix_cons.1 hbytes
            obtain ⟨n, hn, hcut, hlast⟩ := ih (fun t ht => h t (List.mem_cons_of_mem s ht)) hrest
            have hline : lineOf (utf8 s ++ [10]) = some s := by
              rw [lineOf, popNewline_newline hreturn, ofUtf8_utf8]
            refine ⟨n + 1, Nat.succ_le_succ hn, ?_, ?_⟩
            · rw [cut_newline hnewline, List.map_cons, hcut, hline, List.take_succ_cons,
                List.map_cons]
            · rw [cut_newline hnewline]
              exact hlast

/-! ### Runs -/

/-- What a reader has handed on: the lines of the first `n` messages, and `last` behind them. -/
structure Delivers (line : Msg → String) (c : Channel Msg) (n : ℕ) (last : List (Option String)) :
    Prop where
  lines : c.lines = (c.sent.take n).map (fun m => some (line m)) ++ last
  /-- behind them comes at most the beginning of the next message, when the stream has ended -/
  rest : last = [] ∨ c.ended = true ∧ ∃ m read, c.sent[n]? = some m ∧ last = [read] ∧
    ∀ s, read = some s → s.toList <+: (line m).toList
  /-- nothing is missing once nothing is on its way -/
  all : c.closed = false → c.Idle → n = c.sent.length ∧ last = []

variable {line : Msg → String} {ok : Channel Msg → Label Msg → Prop} {ls : List (Label Msg)}

theorem Carried.delivers {arrived : List UInt8}
    (h : Carried (fun m => line m ++ "\n") c arrived) (hlines : ∀ m ∈ c.sent, OneLine (line m)) :
    ∃ n ≤ c.sent.length, ∃ last, c.Delivers line n last := by
  have hstream : c.stream (fun m => line m ++ "\n") =
      (c.sent.map line).flatMap fun s => utf8 (s ++ "\n") := by
    rw [stream, List.flatMap_map]
  have honeLine : ∀ s ∈ c.sent.map line, OneLine s := by
    intro s hs
    obtain ⟨m, hm, rfl⟩ := List.mem_map.1 hs
    exact hlines m hm
  obtain ⟨n, hn, hcut, hlast⟩ := cut_prefix honeLine
    (hstream ▸ (List.prefix_append arrived c.wire).trans h.first)
  rw [List.length_map] at hn
  refine ⟨n, hn, if c.ended then finish (cut arrived).2 else [], ?_, ?_, ?_⟩
  · rw [h.lines, hcut, ← List.map_take, List.map_map]
    rfl
  · by_cases hended : c.ended = true
    · rw [if_pos hended]
      rcases hlast with hnone | ⟨s, hs, hbegins⟩
      · exact .inl (by rw [hnone]; rfl)
      · by_cases hnone : (cut arrived).2 = []
        · exact .inl (by rw [hnone]; rfl)
        · rw [List.getElem?_map, Option.map_eq_some_iff] at hs
          obtain ⟨m, hm, rfl⟩ := hs
          refine .inr ⟨hended, m, lineOf (cut arrived).2, hm, if_neg hnone, fun s hs => ?_⟩
          refine prefix_of_ofUtf8 ?_ hbegins
          rwa [lineOf, popNewline_of_notMem] at hs
          exact fun hmem => (lineBytes (hlines m (List.mem_of_getElem? hm))).1 (hbegins.subset hmem)
    · exact .inl (if_neg hended)
  · intro hopen ⟨hmailbox, hwriting, hwire⟩
    have harrived := h.whole hopen
    rw [pending, hwriting, hmailbox, hwire, Option.getD_none, List.flatMap_nil, List.append_nil,
      List.append_nil, List.append_nil, hstream] at harrived
    rw [harrived, cut_lines honeLine] at hcut ⊢
    have hlength := congrArg List.length hcut
    simp only [List.length_map, List.length_take] at hlength
    exact ⟨by omega, by split <;> rfl⟩

/-- The invariant of every run. -/
theorem carried_of_run (h : Run (Channel.step text) ok init ls c) :
    c.Halved ∧ ∃ arrived, Carried text c arrived := by
  refine h.invariant (P := fun c => c.Halved ∧ ∃ arrived, Carried text c arrived) ?_ ?_
  · rintro c l c' ⟨hhalved, arrived, hcarried⟩ - hstep
    exact ⟨hhalved.step hstep, hcarried.step hstep⟩
  · exact ⟨⟨fun _ => by simp [init], rfl⟩, [], ⟨rfl, fun _ => rfl, fun h => (by cases h),
      fun _ => rfl, fun _ => rfl, List.prefix_rfl⟩⟩

/-- **A connection is a channel of lines**: after every run, what has been handed on are the lines
    of the first messages, in their order; all of them, when nothing is on its way. -/
theorem delivers_of_run (h : Run (Channel.step fun m => line m ++ "\n") ok init ls c)
    (hlines : ∀ m ∈ c.sent, OneLine (line m)) :
    ∃ n ≤ c.sent.length, ∃ last, c.Delivers line n last :=
  let ⟨_, _, hcarried⟩ := carried_of_run h
  hcarried.delivers hlines

/-- The writer always finds its half. -/
theorem panicked_of_run (h : Run (Channel.step text) ok init ls c) : c.panicked = false :=
  (carried_of_run h).1.panicked

end Channel

end

end Lib
