import Mathlib.Data.List.Perm.Basic
import ConcuRide.Lib.Tour
import ConcuRide.Network.Steps

set_option autoImplicit false

/-! # The way of an announcement around the ring

The announcement a server makes under a number of its own is passed on from server to server until
it is back where it comes from. Seen from outside, it makes a tour (`Lib.Tour`): `Net.tour` reads
the tour off the group, and every step of the group is a step of the tour (`tour_step`), as long as
no server passes the announcement on over the server it comes from. -/

namespace ConcuRide

open Lib

/-- The announcement number `n` of server `i`. -/
def ElectionMsg.isAnnouncement (i n : ℕ) : ElectionMsg → Bool
  | .newLeader m => decide (m.idSender = i) && decide (m.sequenceNumber = n)
  | .election _ => false

namespace Net

variable (i n : ℕ)

/-- The announcement in a mailbox. -/
def isCall : Msg → Bool
  | .newLeader m => (ElectionMsg.newLeader m).isAnnouncement i n
  | _ => false

/-- The datagram with the announcement that server `k` waits to be acknowledged. -/
def awaitedPacket (net : Net) (k : ℕ) : Msg → Option Packet
  | .waitForNeighborAck w =>
    if w.serializedMsg.isAnnouncement i n then
      some ⟨k, net.boots k, w.neighborId, .msg w.serializedMsg⟩
    else none
  | .checkIfNeighborAcked c =>
    if c.serializedMsg.isAnnouncement i n then
      some ⟨k, net.boots k, c.neighborId, .msg c.serializedMsg⟩
    else none
  | _ => none

/-- A datagram with the announcement. -/
def carries (d : Packet) : Bool :=
  match d.body with
  | .msg e => e.isAnnouncement i n
  | .ack _ => false

/-- The datagram with the announcement that was delivered. -/
def arrivedPacket : Event → Option Packet
  | .delivered src session dst e =>
    if e.isAnnouncement i n then some ⟨src, session, dst, .msg e⟩ else none
  | _ => none

/-- Who handled the announcement. -/
def visitor : Event → Option ℕ
  | .heard s m => if (ElectionMsg.newLeader m).isAnnouncement i n then some s else none
  | _ => none

/-- The tour of the announcement number `n` of server `i`. -/
def tour (net : Net) : Tour ℕ Packet where
  calls := fun k => (net.mailbox k).countP (isCall i n)
  awaited := fun k => (net.mailbox k).filterMap (awaitedPacket i n net k)
  copies := net.flight.filter (carries i n)
  arrived := net.log.filterMap (arrivedPacket i n)
  visited := net.log.filterMap (visitor i n)

/-- How often server `s` handled the announcement. -/
def timesHeard (net : Net) (s : ℕ) : ℕ := (net.log.filterMap (visitor i n)).count s

variable {i n} {N : ℕ} {net net' : Net} {l : Label}

/-! ## Steps that do not concern the announcement -/

theorem awaitedPacket_congr {k : ℕ} (hboots : net'.boots k = net.boots k) :
    awaitedPacket i n net' k = awaitedPacket i n net k := by
  funext x
  unfold awaitedPacket
  rw [hboots]

/-- A message that arrives is no `WaitForNeighborAck` and no `CheckIfNeighborAcked`. -/
theorem Arrives.awaitedPacket {k : ℕ} {x : Msg} (h : Arrives N net net' l k x) (net₀ : Net)
    (k₀ : ℕ) : awaitedPacket i n net₀ k₀ x = none := by
  cases h with
  | posted hs hm => cases x <;> first | rfl | simp [reaches, Msg.isExternal] at hm
  | @msg j d e x hx => cases e <;> (subst hx; rfl)
  | _ => rfl

/-- Apart from the announcement itself, what arrives leaves the tour alone. -/
theorem tour_le_of_mailbox (hcopies : (net'.flight.filter (carries i n)).Subperm
      (net.flight.filter (carries i n)))
    (harrived : net'.log.filterMap (arrivedPacket i n) = net.log.filterMap (arrivedPacket i n))
    (hvisited : net'.log.filterMap (visitor i n) = net.log.filterMap (visitor i n))
    (hboots : ∀ k, net'.boots k = net.boots k ∨ net'.mailbox k = [])
    (hbox : ∀ k, net'.mailbox k = net.mailbox k ∨ net'.mailbox k = [] ∨
      ∃ x, net'.mailbox k = net.mailbox k ++ [x] ∧ isCall i n x = false ∧
        awaitedPacket i n net k x = none) :
    (net'.tour i n).Le (net.tour i n) where
  calls := fun k => by
    simp only [tour]
    rcases hbox k with heq | heq | ⟨x, heq, hx, -⟩
    · rw [heq]
    · rw [heq]
      exact Nat.zero_le _
    · simp [heq, List.countP_append, hx]
  awaited := fun k => by
    simp only [tour]
    rcases hboots k with hb | hb
    · rw [awaitedPacket_congr hb]
      rcases hbox k with heq | heq | ⟨x, heq, -, hx⟩
      · rw [heq]
      · rw [heq]
        exact List.nil_subperm
      · simp only [heq, List.filterMap_append, List.filterMap_cons, hx, List.filterMap_nil,
          List.append_nil]
        exact List.Subperm.refl _
    · rw [hb]
      exact List.nil_subperm
  copies := hcopies
  arrived := harrived
  visited := hvisited

/-- **A step in which no server handles a message** leaves the tour alone, loses part of it, or ends
    a trip. -/
theorem Step.tour_cases (h : Step N net l net')
    (hrecv : ∀ s o before m after effects, l = .recv s o →
      ¬ Handles N net net' s o before m after effects)
    (hdup : ∀ j, l ≠ .duplicate j) (hsingle : (net.tour i n).copies.length ≤ 1) :
    (net'.tour i n).Le (net.tour i n) ∨ ∃ d ∈ (net.tour i n).copies,
      (net'.tour i n).Le ((net.tour i n).arrive Packet.dst d) := by
  have hboots : ∀ k, net'.boots k = net.boots k ∨ net'.mailbox k = [] := fun k =>
    (h.boots_cases k).imp_right fun hk => hk.2.2.1
  have hmail : ∀ k, net'.mailbox k = net.mailbox k ∨ net'.mailbox k = [] ∨
      ∃ x, net'.mailbox k = net.mailbox k ++ [x] ∧ Arrives N net net' l k x := by
    intro k
    rcases h.mailbox_cases k with heq | ⟨heq, -⟩ | ⟨x, hx, heq⟩ | ⟨o, _, _, _, _, hl, hr⟩
    · exact .inl heq
    · exact .inr (.inl heq)
    · exact .inr (.inr ⟨x, heq, hx⟩)
    · exact absurd hr (hrecv _ _ _ _ _ _ hl)
  -- a step that delivers no announcement
  have quiet : (∀ k x, Arrives N net net' l k x → isCall i n x = false) →
      (net'.flight.filter (carries i n)).Sublist (net.flight.filter (carries i n)) →
      net'.log.filterMap (arrivedPacket i n) = net.log.filterMap (arrivedPacket i n) →
      net'.log.filterMap (visitor i n) = net.log.filterMap (visitor i n) →
      (net'.tour i n).Le (net.tour i n) := by
    intro hcall hflight harrived hvisited
    refine tour_le_of_mailbox hflight.subperm harrived hvisited hboots fun k => ?_
    rcases hmail k with heq | heq | ⟨x, heq, hx⟩
    · exact .inl heq
    · exact .inr (.inl heq)
    · exact .inr (.inr ⟨x, heq, hcall k x hx, hx.awaitedPacket net k⟩)
  have hnocall : ∀ {k x}, (∀ j, l ≠ .deliver j) → Arrives N net net' l k x →
      isCall i n x = false := by
    intro k x hl hx
    cases hx with
    | posted hs hm => cases x <;> first | rfl | simp [reaches, Msg.isExternal] at hm
    | ack | msg => exact absurd rfl (hl _)
    | _ => rfl
  cases h with
  | recv hp hbox hans hh => exact absurd (handles hp hbox hans hh) (hrecv _ _ _ _ _ _ rfl)
  | duplicate => exact absurd rfl (hdup _)
  | deliverLost hd hudp =>
      exact .inl (tour_le_of_mailbox ((List.eraseIdx_sublist _ _).filter _).subperm rfl rfl hboots
        fun k => .inl rfl)
  | deliverAck hd hudp hb =>
      rename_i j d a
      obtain ⟨p, hp⟩ := procs_of_hasUdp hudp
      refine .inl (tour_le_of_mailbox ((List.eraseIdx_sublist _ _).filter _).subperm rfl rfl hboots
        fun k => ?_)
      have hbox := mailbox_enqueue (m := .neighborAck a) (k := k) hp
      by_cases hk : k = d.dst
      · exact .inr (.inr ⟨.neighborAck a, hbox.trans (if_pos hk), rfl, rfl⟩)
      · exact .inl (hbox.trans (if_neg hk))
  | deliverMsg hd hudp hb =>
      rename_i j d e
      obtain ⟨p, hp⟩ := procs_of_hasUdp hudp
      have hbox := fun k => mailbox_received (i := j) (e := e) (k := k) hp
      have hflight : (net.received j d e).flight.filter (carries i n) =
          (net.flight.eraseIdx j).filter (carries i n) := by
        -- an acknowledgement carries no announcement
        have hack : carries i n (net.ackOf d e) = false := rfl
        rw [received, List.filter_append]
        split <;> simp [hack]
      cases he : e.isAnnouncement i n with
      | false =>
          refine .inl (tour_le_of_mailbox ?_ ?_ rfl hboots fun k => ?_)
          · rw [hflight]
            exact ((List.eraseIdx_sublist _ _).filter _).subperm
          · simp [received, arrivedPacket, he]
          · rw [hbox]
            split
            · refine .inr (.inr ⟨e.toMsg, rfl, ?_, by cases e <;> rfl⟩)
              cases e with
              | election m => rfl
              | newLeader m => exact he
            · exact .inl rfl
      | true =>
          have hd' : d ∈ (net.tour i n).copies := by
            refine List.mem_filter.2 ⟨List.mem_of_getElem? hd, ?_⟩
            simp [carries, hb, he]
          refine .inr ⟨d, hd', fun k => ?_, fun k => ?_, ?_, ?_, rfl⟩
          · simp only [tour, hbox, Tour.arrive]
            by_cases hk : k = d.dst
            · subst hk
              rw [if_pos rfl, Function.update_self, List.countP_append]
              have : List.countP (isCall i n) [e.toMsg] ≤ 1 := List.countP_le_length
              omega
            · rw [if_neg hk, Function.update_of_ne hk]
          · simp only [tour, hbox, Tour.arrive]
            have hnone : awaitedPacket i n (net.received j d e) k e.toMsg = none := by
              cases e <;> rfl
            have hcongr : awaitedPacket i n (net.received j d e) k = awaitedPacket i n net k :=
              awaitedPacket_congr rfl
            rw [hcongr] at hnone ⊢
            split
            · simp only [List.filterMap_append, List.filterMap_cons, hnone, List.filterMap_nil,
                List.append_nil]
              exact List.Subperm.refl _
            · exact List.Subperm.refl _
          · -- the announcement is under way only once
            have hj : j < net.flight.length := (List.getElem?_eq_some_iff.1 hd).1
            have hperm := (List.getElem_cons_eraseIdx_perm hj).filter (carries i n)
            rw [(List.getElem?_eq_some_iff.1 hd).2, List.filter_cons_of_pos
              (by simp [carries, hb, he])] at hperm
            have hlen := hperm.length_eq
            simp only [tour] at hsingle
            rw [List.length_cons] at hlen
            have hnil : (net.flight.eraseIdx j).filter (carries i n) = [] :=
              List.length_eq_zero_iff.1 (by omega)
            simp only [tour, hflight, hnil]
            exact List.nil_subperm
          · simp only [tour, Tour.arrive, received, List.filterMap_cons, arrivedPacket, he, if_true]
            obtain ⟨src, session, dst, body⟩ := d
            simp only at hb
            rw [hb]
  | panic | crash | dialFailed =>
      exact .inl (quiet (fun k x => hnocall (by simp)) (List.filter_sublist.filter _) rfl rfl)
  | drop =>
      exact .inl (quiet (fun k x => hnocall (by simp)) ((List.eraseIdx_sublist _ _).filter _) rfl
        rfl)
  | _ => exact .inl (quiet (fun k x => hnocall (by simp)) (List.Sublist.refl _) rfl rfl)

/-! ## Steps in which a server handles a message -/

section Recv

variable {s : ℕ} {o : Oracle} {before after : Server} {m : Msg} {effects : List Effect}

theorem arrivedPacket_handled (e : Event) (h : Remembered s o before m after effects e) :
    arrivedPacket i n e = none := by
  cases h <;> rfl

theorem filterMap_handledEvents : (handledEvents s o before m).filterMap (visitor i n) =
    if isCall i n m then [s] else [] := by
  cases m with
  | newLeader m =>
      by_cases h : (ElectionMsg.newLeader m).isAnnouncement i n = true
      · simp [handledEvents, visitor, isCall, h]
      · simp [handledEvents, visitor, isCall, h]
  | checkIfNeighborAcked c =>
      simp only [handledEvents, isCall]
      split <;> rfl
  | connectToServer =>
      simp only [handledEvents, isCall]
      split <;> rfl
  | _ => rfl

/-- The tour after server `s` has handled `m`. -/
theorem Handles.tour_eq (hr : Handles N net net' s o before m after effects) :
    ∃ rest, net.mailbox s = m :: rest ∧
      (∀ k, (net'.tour i n).calls k = if k = s then
        rest.countP (isCall i n) + (selfMessages effects).countP (isCall i n)
        else (net.tour i n).calls k) ∧
      (∀ k, (net'.tour i n).awaited k = if k = s then
        rest.filterMap (awaitedPacket i n net s) ++
          (selfMessages effects).filterMap (awaitedPacket i n net s)
        else (net.tour i n).awaited k) ∧
      (net'.tour i n).copies =
        (net.tour i n).copies ++ (net.packets s effects).filter (carries i n) ∧
      (net'.tour i n).arrived = (net.tour i n).arrived ∧
      (net'.tour i n).visited =
        (if isCall i n m then [s] else []) ++ (net.tour i n).visited := by
  obtain ⟨rest, hbox, hbox'⟩ := hr.mailbox
  refine ⟨rest, hbox, fun k => ?_, fun k => ?_, ?_, ?_, ?_⟩
  · simp only [tour]
    split
    · next hk => rw [hk, hbox', List.countP_append]
    · next hk => rw [(hr.others k hk).2]
  · have hcongr : awaitedPacket i n net' k = awaitedPacket i n net k :=
      awaitedPacket_congr (by rw [hr.boots])
    simp only [tour, hcongr]
    split
    · next hk => rw [hk, hbox', List.filterMap_append]
    · next hk => rw [(hr.others k hk).2]
  · simp only [tour, hr.flight, List.filter_append]
  · have : (sentEvents s effects ++ clearedEvents s before after ++
        handledEvents s o before m).filterMap (arrivedPacket i n) = [] := by
      rw [List.filterMap_eq_nil_iff]
      exact fun e he => arrivedPacket_handled e (remembered_of_mem he)
    simp only [tour, hr.log]
    rw [List.filterMap_append, this, List.nil_append]
  · have hsent : (sentEvents s effects).filterMap (visitor i n) = [] := by
      rw [List.filterMap_eq_nil_iff]
      intro e he
      obtain ⟨d, -, rfl⟩ := List.mem_map.1 he
      rfl
    have hcleared : (clearedEvents s before after).filterMap (visitor i n) = [] := by
      unfold clearedEvents
      split <;> rfl
    simp only [tour, hr.log, List.filterMap_append, filterMap_handledEvents, hsent, hcleared,
      List.nil_append]

/-- Datagrams with other messages leave the copies of the announcement alone. -/
theorem packets_carries_nil (h : ∀ d ∈ datagrams effects, d.2.isAnnouncement i n = false) :
    (net.packets s effects).filter (carries i n) = [] := by
  rw [List.filter_eq_nil_iff]
  intro d hd
  obtain ⟨-, -, -, e, hb, hmem⟩ := mem_packets hd
  simp [carries, hb, h _ hmem]

theorem packets_single {q : ℕ} {e : ElectionMsg} (h : datagrams effects = [(q, e)]) :
    net.packets s effects = if net.hasUdp q then [⟨s, net.boots s, q, .msg e⟩] else [] := by
  unfold packets
  rw [h]
  by_cases hudp : net.hasUdp q = true <;> simp [hudp]

end Recv

/-! ## The invariant -/

variable (N i n) in
/-- Server `i` has not come to number `n` yet. -/
def Fresh (net : Net) : Prop :=
  net.boots i = 0 ∨ ∃ srv, net.srv i = some srv ∧ srv.sequenceNumber ≤ n

/-- No announcement is passed on, or repeated, over the server it comes from. -/
def keepsSenders (N : ℕ) (net : Net) : Label → Bool
  | .recv s _ =>
    match net.srv s, net.mailbox s with
    | some srv, .newLeader m :: _ => srv.keepsSender N m.idSender
    | some srv, .checkIfNeighborAcked c :: _ =>
      match c.serializedMsg with
      | .newLeader m =>
        decide (c.sequenceNumber ∈ srv.messageReceivedAck) ||
          (srv.suspect c.neighborId).keepsSender N m.idSender
      | .election _ => true
    | _, _ => true
  | _ => true

/-- No server is started a second time. -/
def neverRestarts (net : Net) : Label → Bool
  | .boot s => decide (net.boots s = 0)
  | _ => true

variable (N) in
/-- Every announcement makes an orderly tour, and none is made before its number. -/
def ToursOk (net : Net) : Prop :=
  ∀ i n, (net.tour i n).Ok Packet.src Packet.dst (ringDist N i) i ∧
    (Fresh i n net → (net.tour i n).Unused)

section RecvStep

variable {s : ℕ} {o : Oracle} {before after : Server} {m : Msg} {effects : List Effect}

/-- A handled message that neither is the announcement nor brings it about. -/
theorem Handles.tour_le (hr : Handles N net net' s o before m after effects)
    (hm : isCall i n m = false)
    (hcalls : (selfMessages effects).countP (isCall i n) = 0)
    (hawaited : ((selfMessages effects).filterMap (awaitedPacket i n net s)).Subperm
      (awaitedPacket i n net s m).toList)
    (hcopies : (net.packets s effects).filter (carries i n) = []) :
    (net'.tour i n).Le (net.tour i n) := by
  obtain ⟨rest, hbox, hcalls', hawaited', hcopies', harrived', hvisited'⟩ :=
    hr.tour_eq (i := i) (n := n)
  refine ⟨fun k => ?_, fun k => ?_, ?_, harrived', by simp [hvisited', hm]⟩
  · rw [hcalls']
    split
    · next hk => subst hk; simp [tour, hbox, hcalls, hm]
    · exact Nat.le_refl _
  · rw [hawaited']
    split
    · next hk =>
        subst hk
        have hm' : (net.tour i n).awaited k = (awaitedPacket i n net k m).toList ++
            rest.filterMap (awaitedPacket i n net k) := by
          simp only [tour, hbox, List.filterMap_cons]
          cases awaitedPacket i n net k m <;> rfl
        rw [hm', List.perm_append_comm.subperm_right]
        exact (List.subperm_append_right _).2 hawaited
    · exact List.Subperm.refl _
  · rw [hcopies', hcopies, List.append_nil]

theorem Handles.boots_ne_zero (hv : Valid N net)
    (hr : Handles N net net' s o before m after effects) : net'.boots s ≠ 0 := by
  rw [hr.boots]
  exact hv.started s before hr.srvBefore

theorem Handles.fresh (hr : Handles N net net' s o before m after effects)
    (h : Fresh i n net') : Fresh i n net := by
  rcases h with h | ⟨srv, hsrv, hle⟩
  · exact .inl (hr.boots ▸ h)
  · by_cases hi : i = s
    · subst hi
      obtain rfl := Option.some.inj (hr.srvAfter.symm.trans hsrv)
      exact .inr ⟨before, hr.srvBefore, Nat.le_trans hr.handled.sequenceNumber_le hle⟩
    · exact .inr ⟨srv, (hr.others i hi).1 ▸ hsrv, hle⟩

/-- A number is used up by the announcement made under it. -/
theorem Handles.not_fresh (hv : Valid N net)
    (hr : Handles N net net' s o before m after effects)
    (hlt : before.sequenceNumber < after.sequenceNumber) :
    ¬ Fresh s before.sequenceNumber net' := by
  rintro (h | ⟨srv, hsrv, hle⟩)
  · exact hr.boots_ne_zero hv h
  · obtain rfl := Option.some.inj (hr.srvAfter.symm.trans hsrv)
    omega

/-- Server `s` declares itself leader, in a step that is not about the announcement. -/
theorem Handles.tour_declare (hv : Valid N net)
    (hr : Handles N net net' s o before m after effects) (ht : ToursOk N net)
    (hm : isCall i n m = false) {tail : List Msg}
    (hself : selfMessages effects = .newLeader before.selfDeclared :: tail)
    (htail : ∀ x ∈ tail, x = .connectToServer) (hdg : datagrams effects = [])
    (hseq : before.sequenceNumber < after.sequenceNumber) :
    (net'.tour i n).Ok Packet.src Packet.dst (ringDist N i) i ∧
      (Fresh i n net' → (net'.tour i n).Unused) := by
  obtain ⟨hok, hfresh⟩ := ht i n
  have hid : before.id = s := (hv.ids s before hr.srvBefore).2.1
  have hcalls : tail.countP (isCall i n) = 0 := by
    rw [List.countP_eq_zero]
    intro x hx
    rw [htail x hx]
    simp [isCall]
  have hawaited : (selfMessages effects).filterMap (awaitedPacket i n net s) = [] := by
    rw [hself, List.filterMap_eq_nil_iff]
    intro x hx
    rcases List.mem_cons.1 hx with rfl | hx
    · rfl
    · rw [htail x hx]; rfl
  have hcopies : (net.packets s effects).filter (carries i n) = [] :=
    packets_carries_nil (by simp [hdg])
  by_cases hin : isCall i n (.newLeader before.selfDeclared) = true
  · -- this is the announcement, and nothing has happened to it yet
    simp only [isCall, ElectionMsg.isAnnouncement, Server.selfDeclared, hid, Bool.and_eq_true,
      decide_eq_true_eq] at hin
    obtain ⟨rfl, rfl⟩ := hin
    have hun := hfresh (.inr ⟨before, hr.srvBefore, Nat.le_refl _⟩)
    refine ⟨(Tour.Ok.call hun).of_le ?_, fun hf => absurd hf (hr.not_fresh hv hseq)⟩
    obtain ⟨rest, hbox, hcalls', hawaited', hcopies', harrived', hvisited'⟩ :=
      hr.tour_eq (i := s) (n := before.sequenceNumber)
    have hrest : rest.countP (isCall s before.sequenceNumber) = 0 := by
      have := hun.calls s
      simp only [tour, hbox, List.countP_cons] at this
      omega
    have hrest' : rest.filterMap (awaitedPacket s before.sequenceNumber net s) = [] := by
      have := hun.awaited s
      simp only [tour, hbox, List.filterMap_eq_nil_iff] at this ⊢
      exact fun x hx => this x (List.mem_cons_of_mem _ hx)
    refine ⟨fun k => ?_, fun k => ?_, ?_, harrived', ?_⟩
    · rw [hcalls']
      split
      · next hk =>
          subst hk
          rw [hrest, hself, List.countP_cons, hcalls]
          simp only [Tour.call, Function.update_self]
          split <;> omega
      · next hk => simp [Tour.call, hk]
    · rw [hawaited', hrest', hawaited]
      split
      · exact List.nil_subperm
      · exact List.Subperm.refl _
    · rw [hcopies', hcopies, List.append_nil]
      exact List.Subperm.refl _
    · simp [hvisited', hm, Tour.call]
  · have hle : (net'.tour i n).Le (net.tour i n) := by
      refine hr.tour_le hm ?_ ?_ hcopies
      · rw [hself, List.countP_cons_of_neg hin, hcalls]
      · rw [hawaited]
        exact List.nil_subperm
    exact ⟨hok.of_le hle, fun hf => (hfresh (hr.fresh hf)).of_le hle⟩

/-- Server `s` sends the announcement, and had none under way before. -/
theorem Handles.tour_send_le (hr : Handles N net net' s o before m after effects)
    {t : Tour ℕ Packet} {q : ℕ} {e : ElectionMsg} (hdg : datagrams effects = [(q, e)])
    (hcalls : ∀ k, (net'.tour i n).calls k ≤ t.calls k)
    (hown : (net'.tour i n).awaited s = [⟨s, net.boots s, q, .msg e⟩])
    (hothers : ∀ k, k ≠ s → (net.tour i n).awaited k = t.awaited k)
    (hcopies : (net.tour i n).copies = []) (harrived : t.arrived = (net.tour i n).arrived)
    (hvisited : (net'.tour i n).visited = t.visited) :
    (net'.tour i n).Le (t.send s ⟨s, net.boots s, q, .msg e⟩) := by
  obtain ⟨rest, hbox, -, hawaited', hcopies', harrived', -⟩ := hr.tour_eq (i := i) (n := n)
  refine ⟨hcalls, fun k => ?_, ?_, harrived'.trans harrived.symm, hvisited⟩
  · by_cases hk : k = s
    · subst hk
      rw [hown]
      simp only [Tour.send, Function.update_self]
      exact List.Subperm.refl _
    · rw [hawaited', if_neg hk, hothers k hk]
      simp only [Tour.send, Function.update_of_ne hk]
      exact List.Subperm.refl _
  · rw [hcopies', hcopies, List.nil_append, packets_single hdg]
    split
    · exact List.filter_sublist.subperm
    · exact List.nil_subperm

/-- Server `s` makes the announcement. -/
theorem Handles.tour_announce (hv : Valid N net)
    (hr : Handles N net net' s o before m after effects) (ht : ToursOk N net)
    (hm : isCall i n m = false) {q : ℕ} {msg : NewLeader}
    (hself : selfMessages effects = [Server.waiting (.newLeader msg) q])
    (hdg : datagrams effects = [(q, .newLeader msg)]) (hown : msg.idSender = before.id)
    (hnum : msg.sequenceNumber = before.sequenceNumber) (hq : q ∈ ring N)
    (hseq : before.sequenceNumber < after.sequenceNumber) :
    (net'.tour i n).Ok Packet.src Packet.dst (ringDist N i) i ∧
      (Fresh i n net' → (net'.tour i n).Unused) := by
  obtain ⟨hok, hfresh⟩ := ht i n
  have hid : before.id = s := (hv.ids s before hr.srvBefore).2.1
  cases he : (ElectionMsg.newLeader msg).isAnnouncement i n with
  | true =>
      simp only [ElectionMsg.isAnnouncement, hown, hnum, hid, Bool.and_eq_true,
        decide_eq_true_eq] at he
      obtain ⟨rfl, rfl⟩ := he
      have hun := hfresh (.inr ⟨before, hr.srvBefore, Nat.le_refl _⟩)
      have hring := (hv.ids s before hr.srvBefore).1
      have hstops : (net.tour s before.sequenceNumber).stops Packet.dst = [] := by
        simp [Tour.stops, hun.arrived]
      refine ⟨(hok.send (k := s) (d := ⟨s, net.boots s, q, .msg (.newLeader msg)⟩) ?_ (.inl rfl)
        (fun _ => ⟨by simp [hun.visited], hun.calls s⟩) rfl ?_).of_le ?_,
        fun hf => absurd hf (hr.not_fresh hv hseq)⟩
      · simp [Tour.Holder, hstops]
      · simp only [Tour.reached, hstops]
        exact ringDist_pos hring hq
      · obtain ⟨rest, hbox, hcalls', hawaited', -, -, hvisited'⟩ :=
          hr.tour_eq (i := s) (n := before.sequenceNumber)
        refine hr.tour_send_le hdg (fun k => ?_) ?_ (fun k _ => rfl) hun.copies rfl
          (by simp [hvisited', hm])
        · rw [hcalls', hself]
          split
          · next hk =>
              subst hk
              simp [tour, hbox, Server.waiting, isCall, List.countP_cons]
          · exact Nat.le_refl _
        · have hrest := hun.awaited s
          simp only [tour, hbox, List.filterMap_eq_nil_iff] at hrest
          have hrest' : rest.filterMap (awaitedPacket s before.sequenceNumber net s) = [] := by
            rw [List.filterMap_eq_nil_iff]
            exact fun x hx => hrest x (List.mem_cons_of_mem _ hx)
          rw [hawaited', if_pos rfl, hrest', hself, List.nil_append]
          simp [awaitedPacket, Server.waiting, ElectionMsg.isAnnouncement, hown, hnum, hid]
  | false =>
      have hle : (net'.tour i n).Le (net.tour i n) := by
        refine hr.tour_le hm ?_ ?_ (packets_carries_nil ?_)
        · simp [hself, Server.waiting, isCall]
        · simp [hself, Server.waiting, awaitedPacket, he]
        · simp [hdg, he]
      exact ⟨hok.of_le hle, fun hf => (hfresh (hr.fresh hf)).of_le hle⟩

/-- Server `s` repeats a message. -/
theorem Handles.tour_resend (hv : Valid N net)
    (hr : Handles N net net' s o before m after effects) (ht : ToursOk N net)
    {c : CheckIfNeighborAcked} (hm : m = .checkIfNeighborAcked c)
    (htimely : net.timely (.recv s o) = true) (hc : c.sequenceNumber ∉ before.messageReceivedAck)
    {q : ℕ} (hself : selfMessages effects = [.waitForNeighborAck
      { serializedMsg := c.serializedMsg, neighborId := q, sequenceNumber := c.sequenceNumber }])
    (hdg : datagrams effects = [(q, c.serializedMsg)]) (hq : q ∈ ring N)
    (hahead : ∀ msg, c.serializedMsg = .newLeader msg → msg.idSender ≠ s →
      msg.idSender ∈ ring N → ringDist N msg.idSender s < ringDist N msg.idSender q) :
    (net'.tour i n).Ok Packet.src Packet.dst (ringDist N i) i ∧
      (Fresh i n net' → (net'.tour i n).Unused) := by
  obtain ⟨hok, hfresh⟩ := ht i n
  subst hm
  cases he : c.serializedMsg.isAnnouncement i n with
  | true =>
      obtain ⟨rest, hbox, hcalls', hawaited', -, -, hvisited'⟩ := hr.tour_eq (i := i) (n := n)
      let old : Packet := ⟨s, net.boots s, c.neighborId, .msg c.serializedMsg⟩
      have hawait : (net.tour i n).awaited s =
          old :: rest.filterMap (awaitedPacket i n net s) := by
        simp [tour, hbox, awaitedPacket, he, old]
      have hmem : old ∈ (net.tour i n).awaited s := hawait ▸ List.mem_cons_self
      have hrest : rest.filterMap (awaitedPacket i n net s) = [] := by
        have := hok.awaitOne s
        rw [hawait, List.length_cons] at this
        exact List.length_eq_zero_iff.1 (by omega)
      -- the datagram that is awaited was lost: it neither arrived nor is it under way
      have hlost : old ∉ net.flight ∧ old ∉ (net.tour i n).arrived := by
        simp only [timely, hbox, hr.srvBefore, Option.any_some, decide_eq_false hc,
          Bool.or_false, Bool.not_eq_true', onItsWay, Bool.or_eq_false_iff] at htimely
        constructor
        · intro hin
          have := List.any_eq_false.1 htimely.1 old hin
          simp [old] at this
        · intro hin
          obtain ⟨e, he', heq⟩ := List.mem_filterMap.1 hin
          have hnot := List.any_eq_false.1 htimely.2 e he'
          cases e with
          | delivered src session dst msg =>
              simp only [arrivedPacket] at heq
              split at heq
              · simp only [Option.some.injEq, Packet.mk.injEq, Body.msg.injEq, old] at heq
                obtain ⟨rfl, rfl, rfl, rfl⟩ := heq
                simp at hnot
              · simp at heq
          | _ => simp [arrivedPacket] at heq
      obtain ⟨-, hvis, harr⟩ := hok.await s old hmem
      obtain ⟨hholder, honly⟩ := harr.resolve_left hlost.2
      have hcopies : (net.tour i n).copies = [] := by
        rw [List.eq_nil_iff_forall_not_mem]
        intro d hd
        rw [honly d hd] at hd
        exact hlost.1 (List.mem_filter.1 hd).1
      obtain ⟨msg, hmsg⟩ : ∃ msg, c.serializedMsg = .newLeader msg := by
        cases hs : c.serializedMsg with
        | election msg => rw [hs] at he; simp [ElectionMsg.isAnnouncement] at he
        | newLeader msg => exact ⟨msg, rfl⟩
      have hi : msg.idSender = i := by
        rw [hmsg] at he
        simp only [ElectionMsg.isAnnouncement, Bool.and_eq_true, decide_eq_true_eq] at he
        exact he.1
      have hused : ¬ (net.tour i n).Unused := fun hun => by
        have := hun.awaited s
        rw [this] at hmem
        simp at hmem
      have hboots : net.boots i ≠ 0 := fun h0 => hused (hfresh (.inl h0))
      have hiring := hv.booted i hboots
      refine ⟨(hok.send (k := s) (d := ⟨s, net.boots s, q, .msg c.serializedMsg⟩) hholder hvis ?_
        rfl ?_).of_le ?_, fun hf => absurd (hfresh (hr.fresh hf)) hused⟩
      · -- the announcement is not one the sender made to itself
        intro harrived
        have hlocal : ¬ (s ∈ (net.tour i n).visited ∨ 0 < (net.tour i n).calls s) := by
          intro hs
          rcases hok.known s hs with hin | ⟨-, -, -, hnone⟩
          · simp [Tour.stops, harrived] at hin
          · rw [hnone s] at hmem
            simp at hmem
        exact ⟨fun h => hlocal (.inl h), by by_contra h; exact hlocal (.inr (by omega))⟩
      · unfold Tour.Holder at hholder
        unfold Tour.reached
        cases hstops : (net.tour i n).stops Packet.dst with
        | nil => exact ringDist_pos hiring hq
        | cons a stops =>
            rw [hstops] at hholder
            rw [← hholder.1]
            have := hahead msg hmsg (by rw [hi, hholder.1]; exact hholder.2.symm) (hi ▸ hiring)
            rwa [hi] at this
      · refine hr.tour_send_le hdg (fun k => ?_) ?_ (fun k _ => rfl) hcopies rfl
          (by simp [hvisited', isCall])
        · rw [hcalls', hself]
          split
          · next hk => subst hk; simp [tour, hbox, isCall]
          · exact Nat.le_refl _
        · rw [hawaited', if_pos rfl, hrest, hself]
          simp [awaitedPacket, he]
  | false =>
      have hle : (net'.tour i n).Le (net.tour i n) := by
        refine hr.tour_le rfl ?_ ?_ (packets_carries_nil ?_)
        · simp [hself, isCall]
        · simp [hself, awaitedPacket, he]
        · simp [hdg, he]
      exact ⟨hok.of_le hle, fun hf => (hfresh (hr.fresh hf)).of_le hle⟩

/-- Server `s` handles the announcement and does not pass it on. -/
theorem Handles.tour_visit (hr : Handles N net net' s o before m after effects)
    (hok : (net.tour i n).Ok Packet.src Packet.dst (ringDist N i) i) (hm : isCall i n m = true)
    (hcalls : (selfMessages effects).countP (isCall i n) = 0) :
    0 < (net.tour i n).calls s ∧
    (∀ k, (net'.tour i n).calls k ≤ ((net.tour i n).visit s).calls k) ∧
      (net'.tour i n).visited = ((net.tour i n).visit s).visited ∧
      (net'.tour i n).awaited s = (net.tour i n).awaited s ++
        (selfMessages effects).filterMap (awaitedPacket i n net s) := by
  obtain ⟨rest, hbox, hcalls', hawaited', -, -, hvisited'⟩ := hr.tour_eq (i := i) (n := n)
  have hcount : (net.tour i n).calls s = rest.countP (isCall i n) + 1 := by
    simp [tour, hbox, hm]
  refine ⟨by omega, fun k => ?_, by simp [hvisited', hm, Tour.visit], ?_⟩
  · rw [hcalls']
    split
    · next hk =>
        subst hk
        have := hok.once k
        simp only [Tour.visit, Function.update_self]
        omega
    · next hk => simp [Tour.visit, hk]
  · have hnone : awaitedPacket i n net s m = none := by
      cases m <;> first | rfl | simp [isCall] at hm
    rw [hawaited', if_pos rfl]
    simp [tour, hbox, hnone]

/-- Server `s` handles an announcement. -/
theorem Handles.tour_newLeader (hv : Valid N net)
    (hr : Handles N net net' s o before m after effects) (ht : ToursOk N net)
    {msg : NewLeader} (hm : m = .newLeader msg)
    (hkeep : before.keepsSender N msg.idSender = true)
    (hcases : (selfMessages effects = before.connecting msg.leaderId ∧ datagrams effects = []) ∨
      (msg.idSender ≠ s ∧ datagrams effects = [] ∧ before.sequenceNumber < after.sequenceNumber ∧
        selfMessages effects =
          .newLeader before.selfDeclared :: before.connecting msg.leaderId) ∨
      (∃ q, msg.idSender ≠ s ∧ datagrams effects = [(q, .newLeader msg)] ∧
        before.nextNeighbor N before.actualNeighborId = (q, true) ∧
        selfMessages effects =
          Server.waiting (.newLeader msg) q :: before.connecting msg.leaderId)) :
    (net'.tour i n).Ok Packet.src Packet.dst (ringDist N i) i ∧
      (Fresh i n net' → (net'.tour i n).Unused) := by
  obtain ⟨hok, hfresh⟩ := ht i n
  obtain ⟨hring, hid, hptr⟩ := hv.ids s before hr.srvBefore
  subst hm
  have hconn : (before.connecting msg.leaderId).countP (isCall i n) = 0 := by
    rw [List.countP_eq_zero]
    intro x hx
    rw [Server.mem_connecting hx]
    simp [isCall]
  have hconn' : (before.connecting msg.leaderId).filterMap (awaitedPacket i n net s) = [] := by
    rw [List.filterMap_eq_nil_iff]
    intro x hx
    rw [Server.mem_connecting hx]
    rfl
  cases hcall : isCall i n (.newLeader msg) with
  | false =>
      have le : (net'.tour i n).Le (net.tour i n) → _ := fun hle =>
        And.intro (hok.of_le hle) fun hf => (hfresh (hr.fresh hf)).of_le hle
      rcases hcases with ⟨hself, hdg⟩ | ⟨-, hdg, hseq, hself⟩ | ⟨q, -, hdg, -, hself⟩
      · refine le (hr.tour_le hcall (hself ▸ hconn) ?_ (packets_carries_nil (by simp [hdg])))
        rw [hself, hconn']
        exact List.nil_subperm
      · exact hr.tour_declare hv ht hcall hself (fun x hx => Server.mem_connecting hx) hdg hseq
      · have hno : (ElectionMsg.newLeader msg).isAnnouncement i n = false := hcall
        refine le (hr.tour_le hcall ?_ ?_ (packets_carries_nil (by simp [hdg, hno])))
        · rw [hself, List.countP_cons, hconn]
          simp [Server.waiting, isCall]
        · rw [hself, List.filterMap_cons]
          simp only [Server.waiting, awaitedPacket, hno, Bool.false_eq_true, if_false, hconn']
          exact List.nil_subperm
  | true =>
      have hann : (ElectionMsg.newLeader msg).isAnnouncement i n = true := hcall
      have hi : msg.idSender = i := by
        simp only [ElectionMsg.isAnnouncement, Bool.and_eq_true, decide_eq_true_eq] at hann
        exact hann.1
      have hused : ¬ (net.tour i n).Unused := fun hun => by
        have := hun.calls s
        obtain ⟨rest, hbox, -⟩ := hr.tour_eq (i := i) (n := n)
        simp [tour, hbox, hcall] at this
      have hring_i : i ∈ ring N := hv.booted i fun h0 => hused (hfresh (.inl h0))
      refine ⟨?_, fun hf => absurd (hfresh (hr.fresh hf)) hused⟩
      -- a server that does not pass the announcement on
      have visit : (selfMessages effects).countP (isCall i n) = 0 →
          (selfMessages effects).filterMap (awaitedPacket i n net s) = [] →
          datagrams effects = [] →
          (net'.tour i n).Ok Packet.src Packet.dst (ringDist N i) i := by
        intro hself hself' hdg
        obtain ⟨hpos, hcalls, hvisited, hawaited⟩ := hr.tour_visit hok hcall hself
        obtain ⟨rest, -, -, hothers, hcopies, harrived, -⟩ := hr.tour_eq (i := i) (n := n)
        refine (hok.visit hpos).of_le ⟨hcalls, fun k => ?_, ?_, harrived, hvisited⟩
        · by_cases hk : k = s
          · subst hk
            rw [hawaited, hself', List.append_nil]
            exact List.Subperm.refl _
          · rw [hothers, if_neg hk]
            exact List.Subperm.refl _
        · rw [hcopies, packets_carries_nil (by simp [hdg]), List.append_nil]
          exact List.Subperm.refl _
      rcases hcases with ⟨hself, hdg⟩ | ⟨hne, hdg, -, hself⟩ | ⟨q, hne, hdg, hq, hself⟩
      · exact visit (hself ▸ hconn) (hself ▸ hconn') hdg
      · refine visit ?_ ?_ hdg
        · rw [hself, List.countP_cons_of_neg, hconn]
          simp only [isCall, ElectionMsg.isAnnouncement, Server.selfDeclared, hid]
          intro hdecl
          simp only [Bool.and_eq_true, decide_eq_true_eq] at hdecl
          exact hne (hi.trans hdecl.1.symm)
        · rw [hself, List.filterMap_cons]
          simpa [awaitedPacket] using hconn'
      · rw [hi] at hne hkeep
        have hself' : (selfMessages effects).countP (isCall i n) = 0 := by
          rw [hself, List.countP_cons, hconn]
          simp [Server.waiting, isCall]
        obtain ⟨hpos, hcalls, hvisited, hawaited⟩ := hr.tour_visit hok hcall hself'
        obtain ⟨hholder, hreached, hcopies, hnone⟩ := hok.called hpos (Ne.symm hne)
        have hahead : ringDist N i s < ringDist N i q := by
          simp only [Server.keepsSender, hq, Bool.not_true, Bool.or_false, Bool.or_eq_true,
            decide_eq_true_eq, hid] at hkeep
          have := Server.hasAhead_nextNeighbor hring_i hptr (by rw [hid]; exact hne)
            (hkeep.resolve_left hne) hq
          rwa [hid] at this
        refine ((hok.visit hpos).send (d := ⟨s, net.boots s, q, .msg (.newLeader msg)⟩) hholder
          (.inr List.mem_cons_self) (fun harrived => ?_) rfl (hreached ▸ hahead)).of_le ?_
        · have hempty : (net.tour i n).arrived = [] := harrived
          simp only [Tour.Holder, Tour.stops, hempty, List.map_nil] at hholder
          exact absurd hholder.symm hne
        · refine hr.tour_send_le hdg hcalls ?_ (fun k _ => rfl) hcopies rfl hvisited
          rw [hawaited, hnone, hself, List.nil_append, List.filterMap_cons]
          simp only [Server.waiting, awaitedPacket, hann, if_true, hconn']

/-- **Handling a message** keeps every tour in order. -/
theorem Handles.toursOk (hv : Valid N net)
    (hr : Handles N net net' s o before m after effects) (ht : ToursOk N net)
    (htimely : net.timely (.recv s o) = true) (hkeep : net.keepsSenders N (.recv s o) = true) :
    ToursOk N net' := by
  intro i n
  obtain ⟨hok, hfresh⟩ := ht i n
  obtain ⟨hring, hid, hptr⟩ := hv.ids s before hr.srvBefore
  obtain ⟨rest, hbox, -⟩ := hr.mailbox
  have udp : m.isQuiet = false → m ≠ .ping → before.udpSender = true :=
    hv.udp_of_queued hr.srvBefore hr.queued
  have idle : isCall i n m = false → (selfMessages effects).countP (isCall i n) = 0 →
      ((selfMessages effects).filterMap (awaitedPacket i n net s)).Subperm
        (awaitedPacket i n net s m).toList →
      (∀ d ∈ datagrams effects, d.2.isAnnouncement i n = false) →
      (net'.tour i n).Ok Packet.src Packet.dst (ringDist N i) i ∧
        (Fresh i n net' → (net'.tour i n).Unused) := fun hm hcalls hawaited hdg =>
    have hle := hr.tour_le hm hcalls hawaited (packets_carries_nil hdg)
    ⟨hok.of_le hle, fun hf => (hfresh (hr.fresh hf)).of_le hle⟩
  have hnil : ∀ {l : List Packet}, ([] : List Packet).Subperm l := List.nil_subperm
  have hh := hr.handled
  generalize hself : selfMessages effects = self at hh idle
  generalize hdg : datagrams effects = dgs at hh idle
  cases hh with
  | quiet hm _ _ hq =>
      have hnocall : ∀ x : Msg, x.isQuiet = true →
          isCall i n x = false ∧ awaitedPacket i n net s x = none := by
        intro x hx
        cases x <;> first | exact ⟨rfl, rfl⟩ | simp [Msg.isQuiet] at hx
      refine idle (hnocall m hm).1 ?_ ?_ (by simp)
      · rw [List.countP_eq_zero]
        exact fun x hx => by simp [(hnocall x (hq x hx)).1]
      · rw [List.filterMap_eq_nil_iff.2 fun x hx => (hnocall x (hq x hx)).2]
        exact hnil
  | setLeader | pingIdle | ack | connectFailed | connected | checkAcked =>
      exact idle rfl rfl hnil (by simp)
  | pingLost => exact idle rfl rfl hnil (by simp)
  | startDeclare q hq =>
      exact hr.tour_declare hv ht rfl hself (by simp) hdg (Nat.lt_succ_self _)
  | startSend q hq =>
      refine idle rfl (by simp [Server.waiting, isCall]) ?_ ?_
      · simp only [Server.waiting, awaitedPacket, ElectionMsg.isAnnouncement, List.filterMap_cons,
          Bool.false_eq_true, if_false, List.filterMap_nil]
        exact hnil
      · intro d hd
        split at hd
        · rw [List.mem_singleton.1 hd]; rfl
        · simp at hd
  | wait w =>
      refine idle rfl rfl ?_ (by simp)
      cases h : w.serializedMsg.isAnnouncement i n with
      | true =>
          simp only [awaitedPacket, h, if_true, List.filterMap_cons, List.filterMap_nil]
          exact List.Subperm.refl _
      | false =>
          simp only [awaitedPacket, h, Bool.false_eq_true, if_false, List.filterMap_cons,
            List.filterMap_nil]
          exact hnil
  | checkDeclare c hc q hq =>
      exact hr.tour_declare hv ht rfl hself (by simp) hdg (Nat.lt_succ_self _)
  | checkResend c hc q hq =>
      have hsusp : (before.suspect c.neighborId).actualNeighborId = before.actualNeighborId := rfl
      rw [if_pos (udp rfl (by simp))] at hdg
      refine hr.tour_resend hv ht rfl htimely hc hself hdg
        (Server.nextNeighbor_mem_of_eq (r := before.suspect c.neighborId) hptr hq) ?_
      intro msg hmsg hne hi
      simp only [keepsSenders, hr.srvBefore, hbox, hmsg, Server.keepsSender, hsusp, hq,
        decide_eq_false hc, Bool.false_or, Bool.not_true, Bool.or_false, Bool.or_eq_true,
        decide_eq_true_eq] at hkeep
      have hid' : (before.suspect c.neighborId).id = s := hid
      rw [hid'] at hkeep
      have := Server.hasAhead_nextNeighbor (s := before.suspect c.neighborId) hi hptr
        (by rw [hid']; exact hne) (hkeep.resolve_left hne) hq
      rwa [hid'] at this
  | electionDeclare m q hq =>
      exact hr.tour_declare hv ht rfl hself (by simp) hdg (Nat.lt_succ_self _)
  | electionFinish m _ _ q hq =>
      exact hr.tour_announce hv ht rfl hself hdg rfl rfl
        (Server.nextNeighbor_mem_of_eq (r := before.markDisconnected _) hptr hq)
        (Nat.lt_succ_self _)
  | electionForward m _ _ q hq =>
      refine idle rfl (by simp [Server.waiting, isCall]) ?_ ?_
      · simp only [Server.waiting, awaitedPacket, ElectionMsg.isAnnouncement, List.filterMap_cons,
          Bool.false_eq_true, if_false, List.filterMap_nil]
        exact hnil
      · intro d hd
        rw [List.mem_singleton.1 hd]
        rfl
  | newLeaderOwn m hown =>
      have hk : before.keepsSender N m.idSender = true := by
        simpa [keepsSenders, hr.srvBefore, hbox] using hkeep
      exact hr.tour_newLeader hv ht rfl hk (.inl ⟨hself, hdg⟩)
  | newLeaderDeclare m hown q hq =>
      have hk : before.keepsSender N m.idSender = true := by
        simpa [keepsSenders, hr.srvBefore, hbox] using hkeep
      exact hr.tour_newLeader hv ht rfl hk
        (.inr (.inl ⟨hid ▸ hown, hdg, Nat.lt_succ_self _, hself⟩))
  | newLeaderForward m hown _ q hq =>
      have hk : before.keepsSender N m.idSender = true := by
        simpa [keepsSenders, hr.srvBefore, hbox] using hkeep
      exact hr.tour_newLeader hv ht rfl hk (.inr (.inr ⟨q, hid ▸ hown, hdg, hq, hself⟩))

end RecvStep

/-! ## At most one lap -/

/-- What the runs are like: datagrams are delivered once and acknowledged in time, and no server
    starts twice. -/
def onceOnly (net : Net) (l : Label) : Bool := net.timely l && net.neverRestarts l

theorem toursOk_start (j : ℕ) : ToursOk N (start N j) := by
  intro i n
  have hun : ((start N j).tour i n).Unused := by
    constructor
    · intro k; simp [tour]
    · intro k; simp [tour]
    · rfl
    · rfl
    · rfl
  exact ⟨hun.ok, fun _ => hun⟩

theorem toursOk_step (hv : Valid N net) (ht : ToursOk N net) (honce : net.onceOnly l = true)
    (hkeep : net.keepsSenders N l = true) (hstep : net.step N l = some net') :
    ToursOk N net' := by
  have h := step_cases hstep
  simp only [onceOnly, Bool.and_eq_true] at honce
  obtain ⟨htimely, hrestart⟩ := honce
  by_cases hrecv : ∃ s o before m after effects,
      l = .recv s o ∧ Handles N net net' s o before m after effects
  · obtain ⟨s, o, before, m, after, effects, rfl, hr⟩ := hrecv
    exact hr.toursOk hv ht htimely hkeep
  intro i n
  obtain ⟨hok, hfresh⟩ := ht i n
  have hfresh' : Fresh i n net' → Fresh i n net := by
    rintro (h0 | ⟨srv, hsrv, hle⟩)
    · rcases h.boots_cases i with heq | ⟨-, heq, -⟩
      · exact .inl (heq ▸ h0)
      · omega
    · rcases h.srv_cases hsrv with hold | ⟨o, before, m, effects, rfl, hr⟩ | ⟨rfl, -, -, -⟩
      · exact .inr ⟨srv, hold, hle⟩
      · exact absurd ⟨i, o, before, m, srv, effects, rfl, hr⟩ hrecv
      · exact .inl (by simpa [neverRestarts] using hrestart)
  rcases h.tour_cases (i := i) (n := n)
    (fun s o before m after effects hl hr => hrecv ⟨s, o, before, m, after, effects, hl, hr⟩)
    (fun j hl => by rw [hl] at htimely; simp [timely] at htimely) hok.single with hle | ⟨d, hd, hle⟩
  · exact ⟨hok.of_le hle, fun hf => (hfresh (hfresh' hf)).of_le hle⟩
  · refine ⟨(hok.arrive hd).of_le hle, fun hf => ?_⟩
    rw [(hfresh (hfresh' hf)).copies] at hd
    simp at hd

/-- **An announcement makes at most one lap** in every run without restarts in which no announcement
    is passed on over the server it comes from: no server handles it twice. -/
theorem at_most_one_lap {j : ℕ} {ls : List Label} (hj : j ∈ ring N)
    (h : Run (step N) (fun net l => net.onceOnly l = true ∧ net.keepsSenders N l = true)
      (start N j) ls net) (i n s : ℕ) : net.timesHeard i n s ≤ 1 := by
  have hinv := h.invariant (P := fun net => Valid N net ∧ ToursOk N net)
    (fun _ _ _ hvt hok hst => ⟨valid_step hvt.1 hst, toursOk_step hvt.1 hvt.2 hok.1 hok.2 hst⟩)
    ⟨valid_start hj, toursOk_start j⟩
  exact Nat.le_trans (Nat.le_add_right _ _) ((hinv.2 i n).1.once s)

/-- The same election without the crash: the announcement comes back to server 2. -/
def oneLap : List Label :=
  [.boot 2, .boot 3, .boot 4, .dial 2, .dial 3, .dial 4, .recv 2 .up, .recv 3 .up, .recv 4 .up,
    .crash 1, .post 2 .ping, .recv 2 .down, .recv 2 .up,
    .deliver 0, .recv 3 .up, .deliver 1, .recv 4 .up, .deliver 2,
    .deliver 0, .deliver 0, .deliver 0, .recv 2 .up, .recv 2 .up,
    .deliver 0, .recv 3 .up, .recv 3 .up, .recv 3 .up, .recv 3 .up, .deliver 1, .recv 4 .up,
    .recv 4 .up, .recv 4 .up, .recv 4 .up, .deliver 2, .recv 2 .up, .recv 2 .up, .recv 2 .up,
    .recv 2 .up]

theorem at_most_one_lap_oneLap : ∃ net : Net, (∀ i n s, net.timesHeard i n s ≤ 1) ∧
    [2, 3, 4].all (fun s => decide (net.timesHeard 2 2 s = 1)) = true := by
  obtain ⟨net, hrun, honce⟩ := exists_run_of_exec
    (fun net l => net.onceOnly l && net.keepsSenders 4 l) (start 4 1) oneLap
    (fun net => [2, 3, 4].all fun s => decide (net.timesHeard 2 2 s = 1))
    (show (exec (step 4) _ _ _).any _ = true by decide +kernel)
  exact ⟨net, at_most_one_lap (by decide) (hrun.mono fun _ _ h => by simpa using h), honce⟩

/-- Server 2 calls an election that server 4 wins, announces the result, and crashes. Server 4
    passes the announcement on over server 2, which does not answer, to server 3. -/
def secondLap : List Label :=
  [.boot 2, .boot 3, .boot 4, .dial 2, .dial 3, .dial 4, .recv 2 .up, .recv 3 .up, .recv 4 .up,
    .crash 1, .post 2 .ping, .recv 2 .down, .recv 2 .up,
    -- the election makes its way around the ring
    .deliver 0, .recv 3 .up, .deliver 1, .recv 4 .up, .deliver 2,
    .deliver 0, .deliver 0, .deliver 0, .recv 2 .up, .recv 2 .up,
    -- the announcement reaches server 3, and server 2 is gone
    .deliver 0, .crash 2, .recv 3 .up, .recv 3 .up, .recv 3 .up, .recv 3 .up,
    .deliver 0, .recv 4 .up, .recv 4 .up, .recv 4 .up, .recv 4 .up, .recv 4 .up, .recv 4 .up,
    .deliver 1, .recv 3 .up, .recv 3 { connected := true, stream := some ⟨4, 1⟩ }, .recv 3 .up]

theorem not_at_most_one_lap : ¬ ∀ (N j : ℕ) (ls : List Label) (net : Net), j ∈ ring N →
    Run (step N) (fun net l => net.onceOnly l = true) (start N j) ls net →
    ∀ i n s, net.live s = true → net.timesHeard i n s ≤ 1 := by
  intro h
  obtain ⟨net, hrun, htwice⟩ := exists_run_of_exec onceOnly (start 4 1) secondLap
    (fun net => net.live 3 && decide (net.timesHeard 2 2 3 = 2))
    (show (exec (step 4) _ _ _).any _ = true by decide +kernel)
  simp only [Bool.and_eq_true, decide_eq_true_eq] at htwice
  have := h 4 1 _ net (by decide) hrun 2 2 3 htwice.1
  omega

end Net

end ConcuRide
