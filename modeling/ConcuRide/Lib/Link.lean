import ConcuRide.Lib.Channel

set_option autoImplicit false

/-! # A connection as a queue

A channel whose lines an actor handles one after the other is a queue of messages: `Holds` says
which ones it holds. Sending puts a message behind them, the bytes that travel change nothing, and
the actor gets the first of them, or the beginning of a line, after which it gets nothing any
more. -/

namespace Lib

variable {Msg : Type}

/-- A channel, and how many of its lines the actor at its end has handled. -/
structure Link (Msg : Type) where
  channel : Channel Msg
  handled : ℕ

namespace Link

def init : Link Msg := ⟨.init, 0⟩

/-- A message is given to the writer, if it is still there. -/
def send (line : Msg → String) (L : Link Msg) (m : Msg) : Link Msg :=
  { L with channel := (L.channel.step (fun m => line m ++ "\n") (.send m)).getD L.channel }

/-- The writer, the bytes on their way and the reader take a step; messages come from `send`. -/
def travel (line : Msg → String) (L : Link Msg) : Channel.Label Msg → Option (Link Msg)
  | .send _ => none
  | l => (L.channel.step (fun m => line m ++ "\n") l).map fun c => { L with channel := c }

/-- The process of the writer ends. -/
def closeIf (ends : Bool) (L : Link Msg) : Link Msg :=
  if ends then
    { L with channel := { L.channel with closed := true, half := false, writing := none } }
  else L

/-- The actor handles the next line. -/
def next (L : Link Msg) : Option (Option String × Link Msg) :=
  L.channel.lines[L.handled]?.map fun read => (read, { L with handled := L.handled + 1 })

/-- Nothing is on its way, and the writer is still there. -/
def Quiet (L : Link Msg) : Prop :=
  L.channel.closed = false ∧ L.channel.Idle ∧ L.channel.lines.length = L.handled

/-- The messages that a link holds: those that were sent and not handled. When the stream has ended
    and all its lines are handled, the rest is lost. -/
structure Holds (line : Msg → String) (L : Link Msg) (queue : List Msg) : Prop where
  reached : ∃ ls, Run (Channel.step fun m => line m ++ "\n") (fun _ _ => True) Channel.init ls
    L.channel
  oneLine : ∀ m ∈ L.channel.sent, Channel.OneLine (line m)
  queue : (L.channel.ended = true ∧ L.channel.lines.length ≤ L.handled) ∨
    L.handled ≤ L.channel.sent.length ∧ ∃ refused, (L.channel.closed = false → refused = []) ∧
      queue = (L.channel.sent ++ refused).drop L.handled

variable {line : Msg → String} {L L' : Link Msg} {queue : List Msg} {m : Msg}
  {l : Channel.Label Msg} {read : Option String}

theorem holds_init : (init : Link Msg).Holds line [] where
  reached := ⟨[], .nil _⟩
  oneLine := nofun
  queue := .inr ⟨Nat.le_refl 0, [], fun _ => rfl, rfl⟩

/-- A step of the channel is one more of its run. -/
theorem Holds.reached_step (h : L.Holds line queue) {c : Channel Msg}
    (hstep : L.channel.step (fun m => line m ++ "\n") l = some c) :
    ∃ ls, Run (Channel.step fun m => line m ++ "\n") (fun _ _ => True) Channel.init ls c := by
  obtain ⟨ls, hrun⟩ := h.reached
  exact ⟨ls ++ [l], hrun.append (.single trivial hstep)⟩

/-- **A message that is sent comes last.** -/
theorem Holds.send (h : L.Holds line queue) (hm : Channel.OneLine (line m)) :
    (L.send line m).Holds line (queue ++ [m]) := by
  have hbehind : ∀ {sent : List Msg}, L.handled ≤ sent.length →
      sent.drop L.handled ++ [m] = (sent ++ [m]).drop L.handled := fun hle =>
    (List.drop_append_of_le_length hle).symm
  by_cases hclosed : L.channel.closed = true
  · have hsame : L.send line m = L := by simp [Link.send, Channel.step, hclosed]
    rw [hsame]
    refine ⟨h.reached, h.oneLine, h.queue.imp_right ?_⟩
    rintro ⟨hle, refused, -, rfl⟩
    refine ⟨hle, refused ++ [m], fun hopen => absurd hclosed (by simp [hopen]), ?_⟩
    rw [hbehind (by rw [List.length_append]; omega), List.append_assoc]
  · have hstep : L.channel.step (fun m => line m ++ "\n") (.send m) =
        some (L.send line m).channel := by simp [Link.send, Channel.step, hclosed]
    have hsent : (L.send line m).channel = { L.channel with
        sent := L.channel.sent ++ [m], mailbox := L.channel.mailbox ++ [line m ++ "\n"] } := by
      simp [Link.send, Channel.step, hclosed]
    refine ⟨h.reached_step hstep, ?_, ?_⟩
    · rw [hsent]
      exact List.forall_mem_append.2 ⟨h.oneLine, List.forall_mem_singleton.2 hm⟩
    · rw [hsent]
      refine h.queue.imp_right ?_
      rintro ⟨hle, refused, hrefused, rfl⟩
      obtain rfl := hrefused (Bool.eq_false_iff.2 hclosed)
      refine ⟨List.length_append ▸ Nat.le_add_right_of_le hle, [], fun _ => rfl, ?_⟩
      rw [List.append_nil, List.append_nil]
      exact hbehind hle

/-- What the other steps of a channel leave alone. -/
theorem step_travel {text : Msg → String} {c c' : Channel Msg} (hl : ∀ m, l ≠ .send m)
    (h : c.step text l = some c') : c'.sent = c.sent ∧ (c'.closed = false → c.closed = false) ∧
      (c.ended = true → c'.ended = true ∧ c'.lines = c.lines) := by
  cases l with
  | send m => exact absurd rfl (hl m)
  | handle =>
      simp only [Channel.step, Option.ite_none_left_eq_some] at h
      obtain ⟨-, h⟩ := h
      split at h
      · cases h
      · split at h
        · obtain rfl := Option.some.inj h
          exact ⟨rfl, id, fun hended => ⟨hended, rfl⟩⟩
        · obtain rfl := Option.some.inj h
          exact ⟨rfl, fun hopen => (by cases hopen), fun hended => ⟨hended, rfl⟩⟩
  | write n =>
      simp only [Channel.step] at h
      split at h
      · cases h
      · obtain rfl := Option.some.inj h
        exact ⟨rfl, id, fun hended => ⟨hended, rfl⟩⟩
  | close =>
      obtain rfl := Option.some.inj h
      exact ⟨rfl, fun hopen => (by cases hopen), fun hended => ⟨hended, rfl⟩⟩
  | written | lose n =>
      simp only [Channel.step, Option.ite_none_right_eq_some, Option.some.injEq] at h
      obtain ⟨-, rfl⟩ := h
      exact ⟨rfl, id, fun hended => ⟨hended, rfl⟩⟩
  | arrive n =>
      simp only [Channel.step, Option.ite_none_left_eq_some, Option.some.injEq] at h
      obtain ⟨hrunning, rfl⟩ := h
      exact ⟨rfl, id, fun hended => absurd hended hrunning⟩
  | eof =>
      simp only [Channel.step, Option.ite_none_right_eq_some, Option.some.injEq] at h
      obtain ⟨⟨-, -, hrunning⟩, rfl⟩ := h
      exact ⟨rfl, id, fun hended => absurd hended (by simp [hrunning])⟩

theorem travel_cases (h : L.travel line l = some L') : (∀ m, l ≠ .send m) ∧ ∃ c,
    L.channel.step (fun m => line m ++ "\n") l = some c ∧ { L with channel := c } = L' := by
  cases l with
  | send m => cases h
  | _ => exact ⟨nofun, Option.map_eq_some_iff.1 h⟩

/-- **The bytes travel**, and the queue stays. -/
theorem Holds.travel (h : L.Holds line queue) (hL' : L.travel line l = some L') :
    L'.Holds line queue := by
  obtain ⟨hl, c, hstep, rfl⟩ := travel_cases hL'
  obtain ⟨hsent, hclosed, hended⟩ := step_travel hl hstep
  refine ⟨h.reached_step hstep, hsent ▸ h.oneLine, ?_⟩
  rcases h.queue with ⟨hend, hall⟩ | ⟨hle, refused, hrefused, hqueue⟩
  · obtain ⟨hend', hlines⟩ := hended hend
    exact .inl ⟨hend', hlines ▸ hall⟩
  · exact .inr ⟨hsent ▸ hle, refused, fun hopen => hrefused (hclosed hopen), hsent ▸ hqueue⟩

theorem Holds.closeIf (h : L.Holds line queue) (ends : Bool) :
    (L.closeIf ends).Holds line queue := by
  unfold Link.closeIf
  split
  · exact h.travel (l := .close) rfl
  · exact h

/-- **The actor handles the first message**, or what is left of a line when the stream has ended. -/
theorem Holds.next (h : L.Holds line queue) (hnext : L.next = some (read, L')) :
    ∃ m ∈ L.channel.sent,
      (read = some (line m) ∧ ∃ rest, queue = m :: rest ∧ L'.Holds line rest) ∨
        (read ≠ some (line m) ∧ ∀ s, read = some s → s.toList <+: (line m).toList) ∧
          L'.Holds line queue := by
  obtain ⟨read', hread, heq⟩ := Option.map_eq_some_iff.1 hnext
  obtain ⟨rfl, rfl⟩ := Prod.mk.inj heq
  obtain ⟨hlt, hget⟩ := List.getElem?_eq_some_iff.1 hread
  rcases h.queue with ⟨-, hall⟩ | ⟨hle, refused, hrefused, hqueue⟩
  · exact absurd hlt (Nat.not_lt.2 hall)
  obtain ⟨ls, hrun⟩ := h.reached
  obtain ⟨n, hn, last, hlines, hlast, -⟩ := Channel.delivers_of_run hrun h.oneLine
  have hlength : ((L.channel.sent.take n).map fun m => some (line m)).length = n := by
    rw [List.length_map, List.length_take, Nat.min_eq_left hn]
  -- a line that is a message is the first one
  have hfirst : ∀ {m : Msg}, L.channel.sent[L.handled]? = some m →
      ∃ rest, queue = m :: rest ∧ Holds line { L with handled := L.handled + 1 } rest := by
    intro m hm
    obtain ⟨hin, hm'⟩ := List.getElem?_eq_some_iff.1 hm
    refine ⟨(L.channel.sent ++ refused).drop (L.handled + 1), ?_, h.reached, h.oneLine,
      .inr ⟨hin, refused, hrefused, rfl⟩⟩
    rw [hqueue, List.drop_eq_getElem_cons (by rw [List.length_append]; omega),
      List.getElem_append_left hin, hm']
  by_cases hwhole : L.handled < n
  · have hm := List.getElem?_eq_getElem (Nat.lt_of_lt_of_le hwhole hn)
    refine ⟨_, List.mem_of_getElem? hm, .inl ⟨?_, hfirst hm⟩⟩
    rw [hlines, List.getElem?_append_left (by omega), List.getElem?_map,
      List.getElem?_take_of_lt hwhole, hm] at hread
    exact (Option.some.inj hread).symm
  · -- it is the line behind the last whole one
    rcases hlast with rfl | ⟨hended, m, read, hm, rfl, hbegins⟩
    · rw [hlines, List.append_nil, hlength] at hlt
      omega
    · have hat : L.handled = n := by
        rw [hlines, List.length_append, hlength, List.length_singleton] at hlt
        omega
      obtain rfl : read = read' := by
        rw [hlines, List.getElem?_append_right (by omega), hlength, hat, Nat.sub_self] at hread
        exact Option.some.inj hread
      refine ⟨m, List.mem_of_getElem? hm, ?_⟩
      by_cases hline : read = some (line m)
      · exact .inl ⟨hline, hfirst (hat ▸ hm)⟩
      · have hall : L.channel.lines.length = L.handled + 1 := by
          rw [hlines, List.length_append, hlength, List.length_singleton, hat]
        exact .inr ⟨⟨hline, hbegins⟩, h.reached, h.oneLine, .inl ⟨hended, Nat.le_of_eq hall⟩⟩

/-- **Nothing is left** on a link that is quiet. -/
theorem Holds.quiet (h : L.Holds line queue) (hquiet : L.Quiet) : queue = [] := by
  obtain ⟨hopen, hidle, hall⟩ := hquiet
  obtain ⟨ls, hrun⟩ := h.reached
  obtain ⟨n, hn, last, hlines, -, hrest⟩ := Channel.delivers_of_run hrun h.oneLine
  obtain ⟨rfl, rfl⟩ := hrest hopen hidle
  rcases h.queue with ⟨hended, -⟩ | ⟨hle, refused, hrefused, rfl⟩
  · obtain ⟨-, arrived, hcarried⟩ := Channel.carried_of_run hrun
    exact absurd (hcarried.ended hended) (by simp [hopen])
  · obtain rfl := hrefused hopen
    have hhandled : L.handled = L.channel.sent.length := by
      rw [← hall, hlines, List.append_nil, List.length_map, List.take_length]
    rw [List.append_nil, hhandled, List.drop_length]

end Link

end Lib
