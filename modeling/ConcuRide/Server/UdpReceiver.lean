import ConcuRide.Lib.Run
import ConcuRide.Serialize
import ConcuRide.Server.Messages

set_option autoImplicit false

/-! # The receiver of datagrams

The actor of `server/src/udp_receiver.rs`. It waits for the next datagram by sending itself `Listen`
when it has dealt with one. A datagram that is named like a message of the election, but whose
fields cannot be read, is dropped by a `return` that skips this last step: the server never receives
another datagram. Nor does it when an acknowledgement cannot be sent, which is the end of the actor.
The socket is taken to give whole datagrams. -/

namespace ConcuRide.UdpReceiver

open Lib

/-- A message in the mailbox of the `UdpReceiver` actor. -/
inductive Msg where
  | setServer
  | listen
  | sendMessage (message addr : String)
deriving DecidableEq, Repr

/-- What the receiver sends to its server. The acknowledged message of a `NeighborAck` is still a
    text here. -/
inductive ServerMsg where
  | election (m : Election)
  | newLeader (m : NewLeader)
  | neighborAck (id : ℕ) (message : String) (sequenceNumber : ℕ)
  | sendLeaderId (addr : String)
deriving DecidableEq, Repr

/-- What `recv_from` gives: the bytes of a datagram and where it came from. -/
structure Datagram where
  bytes : ByteArray
  addr : String

/-- No datagram over IPv4 holds more bytes. -/
def maxDatagram : ℕ := 65507

/-- What the handler of `Listen` sends, to its own mailbox and to the server. -/
structure Sent where
  self : List Msg
  server : List ServerMsg

/-! ## Reading a datagram -/

def readElection (payload : Json) : Except DeserializationError Election := do
  let serverIds ← deserializeField (List ℕ) payload "server_ids"
  let disconnectedLeaderId ← deserializeField ℕ payload "disconnected_leader_id"
  let sequenceNumber ← deserializeField ℕ payload "sequence_number"
  return { serverIds, disconnectedLeaderId, sequenceNumber }

def readNewLeader (payload : Json) : Except DeserializationError NewLeader := do
  let leaderId ← deserializeField ℕ payload "leader_id"
  let idSender ← deserializeField ℕ payload "id_sender"
  let sequenceNumber ← deserializeField ℕ payload "sequence_number"
  return { leaderId, idSender, sequenceNumber }

def readAck (payload : Json) : Except DeserializationError ServerMsg := do
  let id ← deserializeField ℕ payload "id"
  let message ← deserializeField String payload "message"
  let sequenceNumber ← deserializeField ℕ payload "sequence_number"
  return .neighborAck id message sequenceNumber

variable (toString : Json → String) (fromStr : String → Option Json)

/-- The acknowledgement of a datagram. Its `id` is 0 whoever sends it. -/
def serializedAck (message : String) (sequenceNumber : ℕ) : String :=
  serializeMessage toString "ack" <| .object
    [("sequence_number", .num sequenceNumber), ("message", .str message), ("id", .num 0)]

/-- What is done with a datagram that holds the text `message`; a message without its fields is
    dropped, and nothing is sent. -/
def dispatch (message addr : String) : Sent :=
  let (messageName, payload) := splitMessage fromStr message
  if messageName = "election" then
    match readElection payload with
    | .error _ => ⟨[], []⟩
    | .ok m =>
      ⟨[.sendMessage (serializedAck toString message m.sequenceNumber) addr, .listen], [.election m]⟩
  else if messageName = "new_leader" then
    match readNewLeader payload with
    | .error _ => ⟨[], []⟩
    | .ok m =>
      ⟨[.sendMessage (serializedAck toString message m.sequenceNumber) addr, .listen],
        [.newLeader m]⟩
  else if messageName = "ack" then
    match readAck payload with
    | .error _ => ⟨[], []⟩
    | .ok m => ⟨[.listen], [m]⟩
  else if messageName = "get_leader" then ⟨[.listen], [.sendLeaderId addr]⟩
  else ⟨[.listen], []⟩

/-- `Handler<Listen>`, with `received` what `recv_from` gives; an error of it and bytes that are not
    UTF-8 are ignored. -/
def listen (received : Option Datagram) : Sent :=
  match received with
  | none => ⟨[.listen], []⟩
  | some datagram =>
    match String.fromUTF8? datagram.bytes with
    | none => ⟨[.listen], []⟩
    | some message => dispatch toString fromStr message datagram.addr

/-! ## Runs of the actor -/

/-- The actor: whether it knows its server, and its mailbox. -/
structure State where
  server : Bool
  mailbox : List Msg
deriving DecidableEq

/-- What `servidor_replica` starts. -/
def start : State := { server := false, mailbox := [.setServer, .listen] }

inductive Label where
  /-- the actor handles `SetServer` -/
  | setServer
  /-- the actor handles `Listen`, and `recv_from` gives this -/
  | receive (received : Option Datagram)
  /-- the actor handles `SendMessage`, and `send_to` succeeds or fails -/
  | send (succeeds : Bool)

/-- One message is handled. A message for a server that is not known ends the actor, and so does a
    `send_to` that fails; it does not succeed with a text that is too long for a datagram. -/
def step (s : State) : Label → Option State
  | .receive received =>
    match s.mailbox with
    | .listen :: rest =>
      let sent := listen toString fromStr received
      if sent.server = [] ∨ s.server = true then some { s with mailbox := rest ++ sent.self }
      else some { s with mailbox := [] }
    | _ => none
  | .setServer =>
    match s.mailbox with
    | .setServer :: rest => some { server := true, mailbox := rest }
    | _ => none
  | .send succeeds =>
    match s.mailbox with
    | .sendMessage message _ :: rest =>
      if !succeeds then some { s with mailbox := [] }
      else if message.utf8ByteSize ≤ maxDatagram then some { s with mailbox := rest }
      else none
    | _ => none

/-- The datagram bears the name of a message of the election, and a field of that message is missing
    or has another type. -/
def Malformed (received : Option Datagram) : Prop :=
  ∃ datagram message, received = some datagram ∧
    String.fromUTF8? datagram.bytes = some message ∧
    let (messageName, payload) := splitMessage fromStr message
    messageName = "election" ∧ (∃ e, readElection payload = .error e) ∨
      messageName = "new_leader" ∧ (∃ e, readNewLeader payload = .error e) ∨
      messageName = "ack" ∧ (∃ e, readAck payload = .error e)

/-- What is sent for a datagram that is well formed: `Listen`, after an acknowledgement or alone. -/
def Sent.Listens (sent : Sent) : Prop :=
  ∃ acks, (∀ m ∈ acks, ∃ message addr, m = .sendMessage message addr) ∧
    sent.self = acks ++ [.listen]

variable {toString fromStr} {received : Option Datagram} {s t : State} {l : Label}
  {ls : List Label}

theorem Sent.listens_alone (server : List ServerMsg) : (⟨[.listen], server⟩ : Sent).Listens :=
  ⟨[], by simp, rfl⟩

theorem Sent.listens_acked (message addr : String) (server : List ServerMsg) :
    (⟨[.sendMessage message addr, .listen], server⟩ : Sent).Listens :=
  ⟨[.sendMessage message addr], by simp, rfl⟩

/-- A datagram that is not malformed is followed by another `Listen`, and one that is by nothing. -/
theorem dispatch_cases (message addr : String) :
    let (messageName, payload) := splitMessage fromStr message
    let malformed := messageName = "election" ∧ (∃ e, readElection payload = .error e) ∨
      messageName = "new_leader" ∧ (∃ e, readNewLeader payload = .error e) ∨
      messageName = "ack" ∧ (∃ e, readAck payload = .error e)
    malformed ∧ dispatch toString fromStr message addr = ⟨[], []⟩ ∨
      ¬malformed ∧ (dispatch toString fromStr message addr).Listens := by
  unfold dispatch
  generalize splitMessage fromStr message = r
  obtain ⟨messageName, payload⟩ := r
  simp only
  by_cases helection : messageName = "election"
  · subst helection
    cases hread : readElection payload with
    | error e => exact .inl ⟨.inl ⟨rfl, e, rfl⟩, by simp⟩
    | ok m => exact .inr ⟨by simp, by simpa using Sent.listens_acked _ addr _⟩
  by_cases hleader : messageName = "new_leader"
  · subst hleader
    cases hread : readNewLeader payload with
    | error e => exact .inl ⟨.inr (.inl ⟨rfl, e, rfl⟩), by simp⟩
    | ok m => exact .inr ⟨by simp, by simpa using Sent.listens_acked _ addr _⟩
  by_cases hack : messageName = "ack"
  · subst hack
    cases hread : readAck payload with
    | error e => exact .inl ⟨.inr (.inr ⟨rfl, e, rfl⟩), by simp⟩
    | ok m => exact .inr ⟨by simp, by simpa using Sent.listens_alone _⟩
  · refine .inr ⟨by simp [helection, hleader, hack], ?_⟩
    rw [if_neg helection, if_neg hleader, if_neg hack]
    split <;> exact Sent.listens_alone _

/-- **What follows a datagram.** -/
theorem listen_cases (toString : Json → String) (fromStr : String → Option Json)
    (received : Option Datagram) :
    Malformed fromStr received ∧ listen toString fromStr received = ⟨[], []⟩ ∨
      ¬Malformed fromStr received ∧ (listen toString fromStr received).Listens := by
  cases received with
  | none => exact .inr ⟨by simp [Malformed], Sent.listens_alone []⟩
  | some datagram =>
      cases htext : String.fromUTF8? datagram.bytes with
      | none =>
          refine .inr ⟨by simp [Malformed, htext], ?_⟩
          rw [listen, htext]
          exact Sent.listens_alone []
      | some message =>
          have hmalformed := @dispatch_cases toString fromStr message datagram.addr
          simpa [Malformed, listen, htext] using hmalformed

/-! ## What is left in the mailbox -/

/-- The receiver is listening: nothing but an acknowledgement is sent before. -/
def Listening (s : State) : Prop :=
  s = start ∨ s.server = true ∧ ∃ acks, (∀ m ∈ acks, ∃ message addr, m = .sendMessage message addr) ∧
    s.mailbox = acks ++ [.listen]

theorem Listening.count (h : Listening s) : s.mailbox.count .listen = 1 := by
  rcases h with rfl | ⟨-, acks, hacks, hbox⟩
  · rfl
  · have hnone : acks.count .listen = 0 := by
      rw [List.count_eq_zero]
      intro hmem
      obtain ⟨message, addr, h⟩ := hacks _ hmem
      cases h
    rw [hbox, List.count_append, hnone]
    rfl

/-- A receiver that is listening knows its server when it receives, and nothing else waits. -/
theorem Listening.of_listen (h : Listening s) {rest : List Msg} (hbox : s.mailbox = .listen :: rest) :
    s.server = true ∧ rest = [] := by
  rcases h with rfl | ⟨hserver, acks, hacks, hacks'⟩
  · cases hbox
  · refine ⟨hserver, ?_⟩
    rw [hbox] at hacks'
    cases acks with
    | nil => exact (List.cons.inj hacks').2
    | cons m acks =>
        obtain ⟨message, addr, hm⟩ := hacks m List.mem_cons_self
        rw [hm] at hacks'
        cases hacks'

theorem step_receive {received : Option Datagram}
    (h : step toString fromStr s (.receive received) = some t) :
    ∃ rest, s.mailbox = .listen :: rest ∧
      ((listen toString fromStr received).server = [] ∨ s.server = true →
        t = { s with mailbox := rest ++ (listen toString fromStr received).self }) ∧
      (¬((listen toString fromStr received).server = [] ∨ s.server = true) →
        t = { s with mailbox := [] }) := by
  simp only [step] at h
  split at h
  · next rest hbox =>
      refine ⟨rest, hbox, fun hserver => ?_, fun hserver => ?_⟩
      · rw [if_pos hserver] at h
        exact (Option.some.inj h).symm
      · rw [if_neg hserver] at h
        exact (Option.some.inj h).symm
  · exact absurd h (by simp)

theorem step_send {succeeds : Bool} (h : step toString fromStr s (.send succeeds) = some t) :
    ∃ message addr rest, s.mailbox = .sendMessage message addr :: rest ∧
      (succeeds = true → message.utf8ByteSize ≤ maxDatagram ∧ t = { s with mailbox := rest }) ∧
      (succeeds = false → t = { s with mailbox := [] }) := by
  simp only [step] at h
  split at h
  · next message addr rest hbox =>
      refine ⟨message, addr, rest, hbox, ?_⟩
      cases succeeds with
      | true =>
          simp only [Bool.not_true, Bool.false_eq_true, if_false,
            Option.ite_none_right_eq_some, Option.some.injEq] at h
          exact ⟨fun _ => ⟨h.1, h.2.symm⟩, by simp⟩
      | false => exact ⟨by simp, fun _ => (Option.some.inj h).symm⟩
  · cases h

/-- Neither a malformed datagram nor an acknowledgement that cannot be sent. -/
def Harmless (fromStr : String → Option Json) (l : Label) : Prop :=
  (∀ received, l = .receive received → ¬Malformed fromStr received) ∧ l ≠ .send false

/-- A step without harm leaves the receiver listening. -/
theorem listening_step (hs : Listening s) (h : step toString fromStr s l = some t)
    (hl : Harmless fromStr l) : Listening t := by
  cases l with
  | receive received =>
      obtain ⟨rest, hbox, hsome, -⟩ := step_receive h
      obtain ⟨hserver, rfl⟩ := hs.of_listen hbox
      obtain rfl := hsome (.inr hserver)
      rcases listen_cases toString fromStr received with ⟨hbad, -⟩ | ⟨-, acks, hacks, hself⟩
      · exact absurd hbad (hl.1 received rfl)
      · exact .inr ⟨hserver, acks, hacks, by rw [hself, List.nil_append]⟩
  | setServer =>
      rcases hs with rfl | ⟨hserver, acks, hacks, hbox⟩
      · obtain rfl := Option.some.inj h
        exact .inr ⟨rfl, [], by simp, rfl⟩
      · -- `SetServer` comes first
        cases acks with
        | nil => simp [step, hbox] at h
        | cons m acks =>
            obtain ⟨message, addr, rfl⟩ := hacks m List.mem_cons_self
            simp [step, hbox] at h
  | send succeeds =>
      obtain ⟨message, addr, rest, hbox, hsent, -⟩ := step_send h
      have hsucceeds : succeeds = true := by
        cases succeeds with
        | true => rfl
        | false => exact absurd rfl hl.2
      obtain ⟨-, rfl⟩ := hsent hsucceeds
      rcases hs with rfl | ⟨hserver, acks, hacks, hacks'⟩
      · cases hbox
      · rw [hbox] at hacks'
        cases acks with
        | nil => cases hacks'
        | cons m acks =>
            obtain ⟨-, rfl⟩ := List.cons.inj hacks'
            exact .inr ⟨hserver, acks, fun m hm => hacks m (List.mem_cons_of_mem _ hm), rfl⟩

/-- Without a `Listen` in the mailbox nothing is received any more. -/
theorem deaf_step (hs : .listen ∉ s.mailbox) (h : step toString fromStr s l = some t) :
    .listen ∉ t.mailbox := by
  cases l with
  | receive received =>
      obtain ⟨rest, hbox, -⟩ := step_receive h
      exact absurd (hbox ▸ List.mem_cons_self) hs
  | setServer =>
      simp only [step] at h
      split at h
      · next rest hbox =>
          obtain rfl := Option.some.inj h
          exact fun hmem => hs (hbox ▸ List.mem_cons_of_mem _ hmem)
      · cases h
  | send succeeds =>
      obtain ⟨message, addr, rest, hbox, hsent, hfailed⟩ := step_send h
      cases succeeds with
      | true =>
          obtain ⟨-, rfl⟩ := hsent rfl
          exact fun hmem => hs (hbox ▸ List.mem_cons_of_mem _ hmem)
      | false =>
          obtain rfl := hfailed rfl
          exact List.not_mem_nil

/-- A malformed datagram makes the receiver deaf. -/
theorem malformed_step (hs : Listening s) {received : Option Datagram}
    (h : step toString fromStr s (.receive received) = some t)
    (hbad : Malformed fromStr received) : .listen ∉ t.mailbox := by
  have hcount := hs.count
  obtain ⟨rest, hbox, hsome, -⟩ := step_receive h
  rcases listen_cases toString fromStr received with ⟨-, heq⟩ | ⟨hgood, -⟩
  · obtain rfl := hsome (.inl (by rw [heq]))
    rw [hbox, List.count_cons_self] at hcount
    have hnone : rest.count .listen = 0 := by omega
    rw [heq, List.append_nil]
    exact List.count_eq_zero.1 hnone
  · exact absurd hbad hgood

/-- A step with harm makes the receiver deaf. -/
theorem harmful_step (hs : Listening s) (h : step toString fromStr s l = some t)
    (hl : ¬Harmless fromStr l) : .listen ∉ t.mailbox := by
  rw [Harmless, not_and_or, not_not] at hl
  rcases hl with hbad | rfl
  · push Not at hbad
    obtain ⟨received, rfl, hbad⟩ := hbad
    exact malformed_step hs h hbad
  · obtain ⟨message, addr, rest, -, -, hfailed⟩ := step_send h
    obtain rfl := hfailed rfl
    exact List.not_mem_nil

/-- After any run the receiver is listening, or a step with harm has made it deaf. -/
theorem listening_or_deaf
    (h : Run (step toString fromStr) (fun _ _ => True) start ls s) :
    Listening s ∧ (∀ l ∈ ls, Harmless fromStr l) ∨
      .listen ∉ s.mailbox ∧ ∃ l ∈ ls, ¬Harmless fromStr l := by
  refine h.invariant_labels
    (P := fun ls s => Listening s ∧ (∀ l ∈ ls, Harmless fromStr l) ∨
      .listen ∉ s.mailbox ∧ ∃ l ∈ ls, ¬Harmless fromStr l) ?_ (.inl ⟨.inl rfl, by simp⟩)
  intro ls s l t hs _ hst
  rcases hs with ⟨hlisten, hgood⟩ | ⟨hdeaf, l', hmem, hbad⟩
  · by_cases hl : Harmless fromStr l
    · refine .inl ⟨listening_step hlisten hst hl, fun l' hmem => ?_⟩
      rcases List.mem_append.1 hmem with hmem | hmem
      · exact hgood l' hmem
      · exact List.mem_singleton.1 hmem ▸ hl
    · exact .inr ⟨harmful_step hlisten hst hl, l, by simp, hl⟩
  · exact .inr ⟨deaf_step hdeaf hst, l', List.mem_append_left _ hmem, hbad⟩

/-- The acknowledgement of a datagram is too long for a datagram. -/
def TooLong (toString : Json → String) (fromStr : String → Option Json)
    (received : Option Datagram) : Prop :=
  ∃ message addr, (listen toString fromStr received).self = [.sendMessage message addr, .listen] ∧
    maxDatagram < message.utf8ByteSize

/-- All that waits is an acknowledgement that is too long. -/
def Stuck (s : State) : Prop :=
  ∃ message addr, s.mailbox = [.sendMessage message addr, .listen] ∧
    maxDatagram < message.utf8ByteSize

theorem Stuck.fails (hs : Stuck s) (h : step toString fromStr s l = some t) : l = .send false := by
  obtain ⟨message, addr, hbox, hlong⟩ := hs
  cases l with
  | setServer => simp [step, hbox] at h
  | receive received => simp [step, hbox] at h
  | send succeeds =>
      cases succeeds with
      | false => rfl
      | true =>
          obtain ⟨message', addr', rest, hbox', hsent, -⟩ := step_send h
          rw [hbox] at hbox'
          obtain ⟨rfl, -⟩ := Msg.sendMessage.inj (List.cons.inj hbox').1
          exact absurd (hsent rfl).1 (by omega)

theorem stuck_of_tooLong (hs : Listening s)
    (h : step toString fromStr s (.receive received) = some t)
    (hlong : TooLong toString fromStr received) : Stuck t := by
  obtain ⟨rest, hbox, hsome, -⟩ := step_receive h
  obtain ⟨hserver, rfl⟩ := hs.of_listen hbox
  obtain rfl := hsome (.inr hserver)
  obtain ⟨message, addr, hself, hlong⟩ := hlong
  exact ⟨message, addr, by rw [hself, List.nil_append], hlong⟩

/-- A datagram whose acknowledgement is too long is followed by a `send_to` that fails. -/
theorem send_fails (h : Run (step toString fromStr) (fun _ _ => True) start ls s)
    (hmem : .receive received ∈ ls.dropLast) (hlong : TooLong toString fromStr received) :
    .send false ∈ ls := by
  have hrun := h.invariant_labels
    (P := fun ls s => (Listening s ∨ .listen ∉ s.mailbox) ∧
      (∀ received, .receive received ∈ ls.dropLast → TooLong toString fromStr received →
        .send false ∈ ls) ∧
      ∀ received, ls.getLast? = some (.receive received) → TooLong toString fromStr received →
        Stuck s) ?_ ⟨.inl (.inl rfl), by simp, by simp⟩
  · exact hrun.2.1 received hmem hlong
  · rintro ls s l t ⟨hs, hpast, hlast⟩ - hst
    refine ⟨?_, fun received hmem hlong => ?_, fun received heq hlong => ?_⟩
    · rcases hs with hlisten | hdeaf
      · by_cases hl : Harmless fromStr l
        · exact .inl (listening_step hlisten hst hl)
        · exact .inr (harmful_step hlisten hst hl)
      · exact .inr (deaf_step hdeaf hst)
    · rw [List.dropLast_concat] at hmem
      cases hls : ls.getLast? with
      | none =>
          rw [List.getLast?_eq_none_iff.1 hls] at hmem
          cases hmem
      | some last =>
          rw [← List.dropLast_append_getLast? last hls, List.mem_append] at hmem
          rcases hmem with hmem | hmem
          · exact List.mem_append_left _ (hpast received hmem hlong)
          · -- the datagram came with the last step
            obtain rfl := List.mem_singleton.1 hmem
            obtain rfl := (hlast received hls hlong).fails hst
            exact List.mem_append_right _ (List.mem_singleton_self _)
    · rw [List.getLast?_concat] at heq
      obtain rfl := Option.some.inj heq
      rcases hs with hlisten | hdeaf
      · exact stuck_of_tooLong hlisten hst hlong
      · obtain ⟨rest, hbox, -⟩ := step_receive hst
        exact absurd (hbox ▸ List.mem_cons_self) hdeaf

/-- **When the receiver survives its datagrams**: after any run it has exactly one `Listen` in its
    mailbox if and only if no malformed message of the election was among the datagrams and no
    acknowledgement has failed to be sent; it fails when it is too long for a datagram. -/
theorem one_listen_iff (toString : Json → String) (fromStr : String → Option Json)
    (h : Run (step toString fromStr) (fun _ _ => True) start ls s) :
    (s.mailbox.count .listen = 1 ↔
      (∀ received, .receive received ∈ ls → ¬Malformed fromStr received) ∧ .send false ∉ ls) ∧
    ∀ received, .receive received ∈ ls.dropLast → TooLong toString fromStr received →
      .send false ∈ ls := by
  refine ⟨?_, fun received hmem hlong => send_fails h hmem hlong⟩
  rcases listening_or_deaf h with ⟨hlisten, hgood⟩ | ⟨hdeaf, l, hmem, hbad⟩
  · refine iff_of_true hlisten.count ⟨fun received hmem => ?_, fun hmem => ?_⟩
    · exact (hgood _ hmem).1 received rfl
    · exact (hgood _ hmem).2 rfl
  · refine iff_of_false (fun hcount => ?_) (fun hall => hbad ⟨?_, ?_⟩)
    · rw [List.count_eq_zero.2 hdeaf] at hcount
      exact absurd hcount (by simp)
    · rintro received rfl
      exact hall.1 received hmem
    · rintro rfl
      exact hall.2 hmem

/-- The datagram that brings a text. -/
def Datagram.ofText (message addr : String) : Datagram := ⟨message.toByteArray, addr⟩

theorem fromUTF8?_toByteArray (message : String) :
    String.fromUTF8? message.toByteArray = some message := by
  rw [String.fromUTF8?, dif_pos message.isValidUTF8]
  rfl

/-- A message that is written without spaces is malformed when its fields cannot be read. -/
theorem malformed_compact {name addr : String} {payload : Json} (h : payload.Valid) :
    Malformed JsonCodec.compact.fromStr
        (some (.ofText (serializeMessage JsonCodec.compact.toString name payload) addr)) ↔
      name = "election" ∧ (∃ e, readElection payload = .error e) ∨
      name = "new_leader" ∧ (∃ e, readNewLeader payload = .error e) ∨
      name = "ack" ∧ (∃ e, readAck payload = .error e) := by
  have hsplit : splitMessage JsonCodec.compact.fromStr
      (serializeMessage JsonCodec.compact.toString name payload) = (name, payload) := by
    rw [splitMessage, serializeMessage,
      JsonCodec.compact_fromStr_toString _ (valid_messageValue name h)]
    simp [splitValue, messageValue, Json.get_eq_field?, Json.field?_object, List.lookup_cons,
      Json.asStr]
  simp [Malformed, Datagram.ofText, fromUTF8?_toByteArray, hsplit]

/-- The datagram of an election message. -/
def electionDatagram (addr : String) : Datagram :=
  .ofText (serializeMessage JsonCodec.compact.toString "election" (.object
    [("server_ids", .arr [.num 3]), ("disconnected_leader_id", .num 1),
      ("sequence_number", .num 0)])) addr

/-- The datagram of an election message without its fields. -/
def emptyElection (addr : String) : Datagram :=
  .ofText (serializeMessage JsonCodec.compact.toString "election" (.obj [])) addr

/-- A run in which one datagram is received. -/
theorem run_receive (toString : Json → String) (fromStr : String → Option Json)
    (received : Option Datagram) :
    Run (step toString fromStr) (fun _ _ => True) start [.setServer, .receive received]
      ⟨true, (listen toString fromStr received).self⟩ := by
  refine .cons trivial (t := ⟨true, [.listen]⟩) rfl (.cons trivial ?_ (.nil _))
  simp [step]

theorem one_listen_iff_election :
    ∃ s, Run (step JsonCodec.compact.toString JsonCodec.compact.fromStr) (fun _ _ => True) start
      [.setServer, .receive (some (electionDatagram "127.0.0.1:5003"))] s ∧
      s.mailbox.count .listen = 1 := by
  refine ⟨_, run_receive _ _ _, (one_listen_iff _ _ (run_receive _ _ _)).1.2 ⟨?_, by simp⟩⟩
  intro received hmem
  obtain rfl : received = some (electionDatagram "127.0.0.1:5003") := by simpa using hmem
  have hvalid : (Json.object [("server_ids", .arr [.num 3]), ("disconnected_leader_id", .num 1),
      ("sequence_number", .num 0)]).Valid :=
    valid_object (by simp [Json.Valid.num, Json.Valid.arr])
  rw [electionDatagram, malformed_compact hvalid]
  rintro (⟨-, e, he⟩ | ⟨h, -⟩ | ⟨h, -⟩)
  · cases he
  · exact absurd h (by decide)
  · exact absurd h (by decide)

/-- An election message with an empty payload makes the receiver deaf. -/
theorem not_one_listen :
    ∃ s, Run (step JsonCodec.compact.toString JsonCodec.compact.fromStr) (fun _ _ => True) start
      [.setServer, .receive (some (emptyElection "127.0.0.1:5003"))] s ∧
      s.mailbox.count .listen = 0 := by
  refine ⟨_, run_receive _ _ _, ?_⟩
  have hbad : Malformed JsonCodec.compact.fromStr (some (emptyElection "127.0.0.1:5003")) := by
    rw [emptyElection, malformed_compact (.obj (by simp) (by simp))]
    exact .inl ⟨rfl, _, rfl⟩
  rcases listen_cases JsonCodec.compact.toString JsonCodec.compact.fromStr
    (some (emptyElection "127.0.0.1:5003")) with ⟨-, heq⟩ | ⟨hgood, -⟩
  · rw [heq]
    rfl
  · exact absurd hbad hgood

end ConcuRide.UdpReceiver
