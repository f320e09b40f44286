import Mathlib.Data.List.Perm.Subperm
import ConcuRide.Network.RoundSteps

set_option autoImplicit false

/-! # Elections are decided

Until somebody is announced (`Round.Voting`), an election that has begun is under way: as a message,
as a datagram, or at a server that waits for the acknowledgement of a dead server and will repeat
it. From then on (`Round.Decided`), an announcement is under way that has reached every live server
behind it, or all of them have been reached.

A server repeats an election because its number has not been acknowledged. That number is not
acknowledged by mistake as long as every acknowledged number is one the server gave out itself
(`Round.Numbered`). A server that knows which servers are dead needs no such thing
(`Round.Informed`). -/

namespace ConcuRide.Round

open Net

variable (R : Round) (net : Net)

/-! ## While no leader is announced -/

/-- The list holds every dead server, except for the leader that crashed. -/
def Knows (ids : List ℕ) : Prop := ∀ x ∈ ring R.N, x ∉ R.L → x = R.l ∨ x ∈ ids

/-- The number under which a server waits for the acknowledgement of a dead server. -/
def lostNumber : Msg → Option ℕ
  | .waitForNeighborAck w => if w.neighborId ∈ R.L then none else some w.sequenceNumber
  | .checkIfNeighborAcked c => if c.neighborId ∈ R.L then none else some c.sequenceNumber
  | _ => none

def lost (s : ℕ) : List ℕ := (net.mailbox s).filterMap R.lostNumber

/-- Number `k` is or will be acknowledged to `s`. -/
inductive Due (s k : ℕ) : Prop
  | recorded {srv : Server} (hs : net.srv s = some srv) (hk : k ∈ srv.messageReceivedAck)
  | queued {a : NeighborAck} (hq : net.Queued s (.neighborAck a)) (hk : a.sequenceNumber = k)
  | ack {d : Packet} {a : NeighborAck} (hd : d ∈ net.flight) (hb : d.body = .ack a)
      (hdst : d.dst = s) (hk : a.sequenceNumber = k)
  | msg {d : Packet} {e : ElectionMsg} (hd : d ∈ net.flight) (hb : d.body = .msg e)
      (hsrc : d.src = s) (hk : e.sequenceNumber = k)

/-- Server `s` gave out the numbers that are acknowledged to it, and not for what it repeats. -/
structure Numbered (s : ℕ) : Prop where
  due : ∀ srv k, net.srv s = some srv → Due net s k →
    k < srv.sequenceNumber ∧ k ∉ R.lost net s
  lost : ∀ srv k, net.srv s = some srv → k ∈ R.lost net s → k < srv.sequenceNumber
  nodup : (R.lost net s).Nodup

/-- Server `s` knows which servers are dead. -/
structure Informed (s : ℕ) : Prop where
  server : ∀ srv, net.srv s = some srv → R.Knows srv.disconnectedServers
  queued : ∀ state, net.Queued s (.updateNetworkState state) → R.Knows state.disconnectedServers
  pongs : ∀ line ∈ net.pongs, line.dst = s → R.Knows line.state.disconnectedServers
  lost : R.lost net s = []

/-- An election is under way. -/
inductive Pending : Prop
  | start {s : ℕ} (hq : net.Queued s .startElection)
  | queued {s : ℕ} {e : Election} (hq : net.Queued s (.election e))
  | flight {d : Packet} {e : Election} (hd : d ∈ net.flight) (hb : d.body = .msg (.election e))
  | lost {s : ℕ} (hlost : R.lost net s ≠ [])

/-- What waits in the mailbox of a server before it has heard of a new leader. -/
def isVote : Msg → Bool
  | .ping | .sendLeaderId _ | .updateNetworkState _ | .startElection | .waitForNeighborAck _
  | .checkIfNeighborAcked _ | .election _ | .neighborAck _ => true
  | _ => false

/-- No leader has been announced. -/
structure Voting : Prop where
  noLeader : ∀ s srv, net.srv s = some srv → srv.imLeader = false
  queued : ∀ s m, net.Queued s m → isVote m = true
  flight : ∀ d ∈ net.flight, ∀ e, d.body = .msg e → ∃ e', e = .election e'
  numbers : ∀ s ∈ R.L, R.Numbered net s ∨ R.Informed net s
  pending : (∃ x ∈ R.L, Released net x) → R.Pending net

/-! ## When a leader is announced -/

/-- Server `x` follows the greatest live server, and is leader if it is that server. -/
def Elected (x : ℕ) : Prop :=
  ∃ srv, net.srv x = some srv ∧ srv.idLeader = R.greatest ∧
    (x = R.greatest → srv.imLeader = true)

/-- The announcement `n` is on its way to `y`, and every live server behind it was reached. -/
structure Reaching (n : NewLeader) (y : ℕ) : Prop where
  under_way : net.Queued y (.newLeader n) ∨
    ∃ d ∈ net.flight, d.dst = y ∧ d.body = .msg (.newLeader n)
  mem : y ∈ R.L
  behind : ∀ x ∈ R.L, ringDist R.N n.idSender x < ringDist R.N n.idSender y → R.Elected net x

/-- A leader has been announced: to all live servers, or to those behind an announcement. -/
def Decided : Prop := (∀ x ∈ R.L, R.Elected net x) ∨ ∃ n y, R.Reaching net n y

variable {R net} {net' : Net} {l : Label} {s k q : ℕ} {o : Oracle} {before after : Server}
  {m : Msg} {effects : List Effect} {self : List Msg} {dgs : List (ℕ × ElectionMsg)}

/-! ## Handling the messages of an election -/

/-- The quiet messages among the votes ask the server to send nothing. -/
theorem quiet_vote (h : before.handle R.N o m = some (after, effects)) (hm : isVote m = true)
    (hquiet : m.isQuiet = true) : selfMessages effects = [] ∧
      (after.disconnectedServers = before.disconnectedServers ∨
        ∃ state, m = .updateNetworkState state ∧
          after.disconnectedServers = state.disconnectedServers) := by
  cases m with
  | sendLeaderId addr =>
      simp only [Server.handle, Server.sendLeaderId] at h
      split at h
      · obtain ⟨rfl, rfl⟩ := Prod.mk.inj (Option.some.inj h)
        exact ⟨rfl, .inl rfl⟩
      · simp at h
  | updateNetworkState state =>
      obtain ⟨rfl, rfl⟩ := Prod.mk.inj (Option.some.inj h)
      exact ⟨rfl, .inr ⟨state, rfl, rfl⟩⟩
  | _ => simp [isVote, Msg.isQuiet] at hm hquiet

/-- A vote leads to votes, or to an announcement. -/
theorem self_vote (hr : Handles R.N net net' s o before m after effects) (hm : isVote m = true)
    {x : Msg} (hx : x ∈ selfMessages effects) : isVote x = true ∨ ∃ n, x = .newLeader n := by
  have hquiet := quiet_vote hr.result hm
  have hh := hr.handled
  generalize selfMessages effects = self at hh hx hquiet
  generalize datagrams effects = dgs at hh
  cases hh with
  | quiet hq =>
      rw [(hquiet hq).1] at hx
      simp at hx
  | startDeclare | checkDeclare | electionDeclare =>
      exact .inr ⟨_, List.mem_singleton.1 hx⟩
  | pingLost | startSend | wait | checkResend | electionFinish | electionForward =>
      rw [List.mem_singleton.1 hx]
      exact .inl rfl
  | newLeaderOwn | newLeaderDeclare | newLeaderForward => simp [isVote] at hm
  | _ => simp at hx

/-- A server that knows which servers are dead does not forget it. -/
theorem knows_vote (hr : Handles R.N net net' s o before m after effects) (hm : isVote m = true)
    (hknows : R.Knows before.disconnectedServers)
    (hstate : ∀ state, m = .updateNetworkState state → R.Knows state.disconnectedServers)
    (hack : ∀ a, m = .neighborAck a → a.id = 0) : R.Knows after.disconnectedServers := by
  have more : ∀ {r : Server} {x : ℕ},
      r.disconnectedServers = before.disconnectedServers ++ [x] →
      R.Knows r.disconnectedServers := by
    intro r x hr y hy hdead
    rw [hr]
    exact (hknows y hy hdead).imp_right fun h => List.mem_append_left _ h
  have hquiet := quiet_vote hr.result hm
  have hh := hr.handled
  generalize selfMessages effects = self at hh
  generalize datagrams effects = dgs at hh
  cases hh with
  | quiet hq =>
      rcases (hquiet hq).2 with heq | ⟨state, hstate', heq⟩
      · exact heq ▸ hknows
      · exact heq ▸ hstate state hstate'
  | startDeclare | startSend | checkDeclare | checkResend | electionDeclare | electionFinish
  | electionForward => exact more rfl
  | ack a =>
      intro x hx hdead
      refine (hknows x hx hdead).imp_right fun h => List.mem_filter.2 ⟨h, ?_⟩
      have := (mem_ring.1 hx).1
      rw [hack a rfl]
      exact decide_eq_true (by omega)
  | newLeaderOwn | newLeaderDeclare | newLeaderForward => simp [isVote] at hm
  | _ => exact hknows

/-- Only an election, or a `Ping` that finds the connection dead, releases a server. -/
theorem released_before (hr : Handles R.N net net' s o before m after effects)
    (hm : isVote m = true) (helection : ∀ e, m ≠ .election e)
    (hlose : .startElection ∉ selfMessages effects) (hx : Released net' k) : Released net k := by
  obtain ⟨srv, hsrv, hup⟩ := hx
  have hisUp : ∀ {x session : ℕ}, net'.isUp x session = true → net.isUp x session = true := by
    intro x session hx
    simp only [isUp, Bool.and_eq_true, hr.boots] at hx ⊢
    exact ⟨(hr.live_eq x).1 hx.1, hx.2⟩
  rcases hr.srv_cases hsrv with ⟨rfl, rfl⟩ | ⟨-, hold⟩
  swap
  · exact ⟨srv, hold, fun c hc => hisUp (hup c hc)⟩
  refine ⟨before, hr.srvBefore, fun c hc => hisUp (hup c ?_)⟩
  have hh := hr.handled
  generalize selfMessages effects = self at hh hlose
  generalize datagrams effects = dgs at hh
  cases hh with
  | quiet _ hsame => rw [hsame.leaderConnection, hc]
  | setLeader | connected => simp [isVote] at hm
  | pingLost => exact absurd (List.mem_singleton.2 rfl) hlose
  | electionDeclare e | electionFinish e | electionForward e => exact absurd rfl (helection e)
  | _ => exact hc

/-! ## The numbers of a server -/

/-- What is acknowledged later is acknowledged already, or sent with this step. -/
theorem due_handles (h : R.Holds net) (hr : Handles R.N net net' s o before m after effects)
    (hdue : Due net' k q) : Due net k q ∨
      (k = s ∧ ∃ p e, (p, e) ∈ datagrams effects ∧ p ∈ R.L ∧ e.sequenceNumber = q) := by
  cases hdue with
  | recorded hs hk =>
      rcases hr.srv_cases hs with ⟨rfl, rfl⟩ | ⟨-, hold⟩
      · rcases (hr.handled.messageReceivedAck q).1 hk with hk | ⟨a, rfl, rfl⟩
        · exact .inl (.recorded hr.srvBefore hk)
        · exact .inl (.queued hr.queued rfl)
      · exact .inl (.recorded hold hk)
  | queued hq hk =>
      rcases hr.queued_cases hq with hq | ⟨rfl, hself⟩
      · exact .inl (.queued hq hk)
      · exact absurd hself (hr.handled.ack_notMem _)
  | ack hd hb hdst hk =>
      rw [hr.flight] at hd
      rcases List.mem_append.1 hd with hd | hd
      · exact .inl (.ack hd hb hdst hk)
      · obtain ⟨-, -, -, e, hb', -⟩ := mem_packets hd
        simp [hb] at hb'
  | msg hd hb hsrc hk =>
      rw [hr.flight] at hd
      rcases List.mem_append.1 hd with hd | hd
      · exact .inl (.msg hd hb hsrc hk)
      · obtain ⟨hs, -, hudp, e, hb', he⟩ := mem_packets hd
        obtain rfl := Body.msg.inj (hb.symm.trans hb')
        obtain ⟨t, hdst, -⟩ := hasUdp_iff.1 hudp
        exact .inr ⟨hsrc.symm.trans hs, _, _, he, h.mem hdst, hk⟩

theorem lost_handles {rest : List Msg} (hbox : net.mailbox s = m :: rest)
    (hbox' : net'.mailbox s = rest ++ selfMessages effects) :
    R.lost net s = (R.lostNumber m).toList ++ rest.filterMap R.lostNumber ∧
      R.lost net' s = rest.filterMap R.lostNumber ++
        (selfMessages effects).filterMap R.lostNumber := by
  rw [lost, lost, hbox, hbox', List.filterMap_append]
  refine ⟨?_, rfl⟩
  rw [List.filterMap_cons]
  cases R.lostNumber m <;> rfl

theorem lost_others (hr : Handles R.N net net' s o before m after effects) (hk : k ≠ s) :
    R.lost net' k = R.lost net k := by
  rw [lost, lost, (hr.others k hk).2]

/-- Numbers that are not given out again stay in order. -/
theorem Numbered.mono (h : R.Numbered net s)
    (hseq : ∀ t, net'.srv s = some t →
      ∃ srv, net.srv s = some srv ∧ srv.sequenceNumber ≤ t.sequenceNumber)
    (hdue : ∀ k, Due net' s k → Due net s k)
    (hlost : (R.lost net' s).Subperm (R.lost net s)) : R.Numbered net' s where
  due := fun t k ht hk => by
    obtain ⟨srv, hsrv, hle⟩ := hseq t ht
    obtain ⟨hlt, hnot⟩ := h.due srv k hsrv (hdue k hk)
    exact ⟨hlt.trans_le hle, fun hmem => hnot (hlost.subset hmem)⟩
  lost := fun t k ht hk => by
    obtain ⟨srv, hsrv, hle⟩ := hseq t ht
    exact (h.lost srv k hsrv (hlost.subset hk)).trans_le hle
  nodup := by
    obtain ⟨l, hperm, hsub⟩ := hlost
    exact hperm.nodup_iff.1 (h.nodup.sublist hsub)

/-! ### One turn -/

theorem lostNumber_of_electionMsg (hm : m.electionMsg = none) : R.lostNumber m = none := by
  cases m with
  | waitForNeighborAck | checkIfNeighborAcked => simp [Msg.electionMsg] at hm
  | _ => rfl

/-- What a server repeats to a live server is not lost. -/
theorem lostNumber_waiting (e : ElectionMsg) (q : ℕ) : R.lostNumber (Server.waiting e q) =
    if q ∈ R.L then none else some e.sequenceNumber := rfl

/-- Either a turn decides the election, or it goes on. -/
theorem Turn.decides (h : R.Holds net) (hr : Handles R.N net net' s o before m after effects)
    (ht : R.Turn net net' s before after m (selfMessages effects) (datagrams effects))
    (hm : isVote m = true) :
    R.Decided net' ∨ (SameLeader before after ∧
      (∀ q e, (q, e) ∈ datagrams effects → ∃ e', e = .election e') ∧
      ∀ n, .newLeader n ∉ selfMessages effects) := by
  have hself := fun x hx => hr.self_queued (x := x) hx
  have hsent := fun q e => h.sent hr (q := q) (e := e)
  have hmem := (h.members s before hr.srvBefore).looks.mem
  generalize selfMessages effects = self at ht hself ⊢
  generalize datagrams effects = dgs at ht hsent ⊢
  cases ht with
  | idle _ _ hsame hidle =>
      refine .inr ⟨hsame, by simp, fun n hn => ?_⟩
      exact absurd (hidle _ hn).1 (by simp [Msg.electionMsg])
  | lose _ _ hsame => exact .inr ⟨hsame, by simp, by simp⟩
  | @declare _ n _ _ halone hsender =>
      refine .inl (.inr ⟨n, s, .inl (hself _ (List.mem_singleton.2 rfl)), hmem, fun x hx hlt => ?_⟩)
      rw [halone x hx, hsender] at hlt
      exact absurd hlt (lt_irrefl _)
  | send _ hsame => exact .inr ⟨hsame, by simp, by simp [Server.waiting]⟩
  | wait _ hsame => exact .inr ⟨⟨by rw [hsame], by rw [hsame]⟩, by simp, by simp⟩
  | stop _ _ hsame => exact .inr ⟨hsame, by simp, by simp⟩
  | resend _ he hsame => exact .inr ⟨hsame, by simp [he], by simp⟩
  | @finish _ n q _ _ hsender hq hnear =>
      refine .inl (.inr ⟨n, q, .inr ⟨_, hsent _ _ (List.mem_singleton.2 rfl) hq, rfl, rfl⟩, hq,
        fun x hx hlt => ?_⟩)
      rw [hsender] at hlt
      exact absurd (hnear.2 x hx) (by omega)
  | own | pass => simp [isVote] at hm

theorem Numbered.handles (h : R.Holds net) (hr : Handles R.N net net' s o before m after effects)
    (ht : R.Turn net net' s before after m (selfMessages effects) (datagrams effects))
    (hgoes : ∀ q e, (q, e) ∈ datagrams effects → ∃ e', e = .election e')
    (hn : R.Numbered net s) : R.Numbered net' s := by
  obtain ⟨rest, hbox, hbox'⟩ := hr.mailbox
  obtain ⟨hlost, hlost'⟩ := R.lost_handles hbox hbox'
  have hdue := fun k => due_handles h hr (k := s) (q := k)
  have hle := hr.handled.sequenceNumber_le
  have hafter : ∀ t, net'.srv s = some t → t = after := fun t ht =>
    Option.some.inj (ht.symm.trans hr.srvAfter)
  generalize selfMessages effects = self at ht hlost'
  generalize datagrams effects = dgs at ht hdue hgoes
  -- nothing is sent, and nothing new is lost
  have kept : dgs = [] → self.filterMap R.lostNumber = (R.lostNumber m).toList ∨
      self.filterMap R.lostNumber = [] → R.Numbered net' s := by
    intro hdg hself
    refine hn.mono (fun t ht => ⟨before, hr.srvBefore, hafter t ht ▸ hle⟩) (fun k hk => ?_) ?_
    · rcases hdue k hk with hk | ⟨-, p, e, he, -⟩
      · exact hk
      · rw [hdg] at he
        simp at he
    · rw [hlost, hlost']
      rcases hself with hself | hself
      · rw [hself]
        exact List.perm_append_comm.subperm
      · rw [hself, List.append_nil]
        exact (List.sublist_append_right _ _).subperm
  cases ht with
  | idle _ _ _ hidle =>
      exact kept rfl (.inr (List.filterMap_eq_nil_iff.2 fun x hx =>
        lostNumber_of_electionMsg (hidle x hx).1))
  | lose | declare | stop => exact kept rfl (.inr rfl)
  | wait w =>
      refine kept rfl (.inl ?_)
      simp only [lostNumber, List.filterMap_cons, List.filterMap_nil]
      by_cases hw : w.neighborId ∈ R.L <;> simp [hw]
  | @send _ e q hm _ _ _ _ _ hseq hlt =>
      have hnone : R.lostNumber m = none := by rcases hm with rfl | ⟨e', rfl⟩ <;> rfl
      rw [hnone, Option.toList_none, List.nil_append] at hlost
      have hbound : ∀ k, k ∈ R.lost net s → k < before.sequenceNumber :=
        fun k hk => hn.lost before k hr.srvBefore hk
      have hfresh : before.sequenceNumber ∉ R.lost net s := fun hk =>
        lt_irrefl _ (hbound _ hk)
      simp only [List.filterMap_cons, List.filterMap_nil, lostNumber_waiting,
        ElectionMsg.sequenceNumber_election, hseq] at hlost'
      by_cases hq : q ∈ R.L
      · -- the number is acknowledged, and no longer waited for
        rw [if_pos hq, List.append_nil, ← hlost] at hlost'
        refine ⟨fun t k ht hk => ?_, fun t k ht hk => ?_, hlost' ▸ hn.nodup⟩
        · rw [hafter t ht, hlost']
          rcases hdue k hk with hk | ⟨-, p, e', he, -, rfl⟩
          · obtain ⟨hk, hnot⟩ := hn.due before k hr.srvBefore hk
            exact ⟨hk.trans hlt, hnot⟩
          · obtain ⟨-, rfl⟩ := Prod.mk.inj (List.mem_singleton.1 he)
            rw [ElectionMsg.sequenceNumber_election, hseq]
            exact ⟨hlt, hfresh⟩
        · rw [hafter t ht]
          exact (hbound k (hlost' ▸ hk)).trans hlt
      · -- the number is new, and never acknowledged
        rw [if_neg hq, ← hlost] at hlost'
        refine ⟨fun t k ht hk => ?_, fun t k ht hk => ?_, ?_⟩
        · rw [hafter t ht, hlost']
          rcases hdue k hk with hk | ⟨-, p, e', he, hp, -⟩
          · obtain ⟨hk, hnot⟩ := hn.due before k hr.srvBefore hk
            refine ⟨hk.trans hlt, fun hin => ?_⟩
            rcases List.mem_append.1 hin with hin | hin
            · exact hnot hin
            · exact absurd (List.mem_singleton.1 hin) (by omega)
          · obtain ⟨rfl, -⟩ := Prod.mk.inj (List.mem_singleton.1 he)
            exact absurd hp hq
        · rw [hafter t ht]
          rw [hlost'] at hk
          rcases List.mem_append.1 hk with hk | hk
          · exact (hbound k hk).trans hlt
          · rw [List.mem_singleton.1 hk]
            exact hlt
        · rw [hlost', List.nodup_append]
          refine ⟨hn.nodup, List.nodup_singleton _, fun a ha b hb heq => hfresh ?_⟩
          rwa [← List.mem_singleton.1 hb, ← heq]
  | @resend c e q hdead he _ _ _ _ =>
      have hnumber : c.sequenceNumber = c.serializedMsg.sequenceNumber :=
        Awaits.number (h.queued s _ hr.queued)
      simp only [lostNumber, if_neg hdead, Option.toList_some, List.singleton_append,
        List.filterMap_cons, List.filterMap_nil] at hlost hlost'
      have hnodup := hn.nodup
      rw [hlost, List.nodup_cons] at hnodup
      have hbound : ∀ k ∈ R.lost net s, k < after.sequenceNumber := fun k hk =>
        (hn.lost before k hr.srvBefore hk).trans_le hle
      rw [hlost] at hbound
      by_cases hq : q ∈ R.L
      · -- the number is acknowledged, and no longer waited for
        simp only [if_pos hq, List.append_nil] at hlost'
        refine ⟨fun t k ht hk => ?_, fun t k ht hk => ?_, hlost' ▸ hnodup.2⟩
        · rw [hafter t ht, hlost']
          rcases hdue k hk with hk | ⟨-, p, e', he', -, rfl⟩
          · obtain ⟨hk, hnot⟩ := hn.due before k hr.srvBefore hk
            rw [hlost] at hnot
            exact ⟨hk.trans_le hle, fun hin => hnot (List.mem_cons_of_mem _ hin)⟩
          · obtain ⟨-, rfl⟩ := Prod.mk.inj (List.mem_singleton.1 he')
            rw [← hnumber]
            exact ⟨hbound _ List.mem_cons_self, hnodup.1⟩
        · rw [hafter t ht]
          exact hbound k (List.mem_cons_of_mem _ (hlost' ▸ hk))
      · simp only [if_neg hq] at hlost'
        refine hn.mono (fun t ht => ⟨before, hr.srvBefore, hafter t ht ▸ hle⟩) (fun k hk => ?_) ?_
        · rcases hdue k hk with hk | ⟨-, p, e', he', hp, -⟩
          · exact hk
          · obtain ⟨rfl, -⟩ := Prod.mk.inj (List.mem_singleton.1 he')
            exact absurd hp hq
        · rw [hlost, hlost']
          exact (List.perm_append_singleton _ _).subperm
  | finish | pass => simpa using hgoes _ _ (List.mem_singleton.2 rfl)
  | own hconn =>
      refine kept rfl (.inr (List.filterMap_eq_nil_iff.2 fun x hx => ?_))
      rw [hconn x hx]
      rfl

theorem Informed.handles (h : R.Holds net) (hr : Handles R.N net net' s o before m after effects)
    (ht : R.Turn net net' s before after m (selfMessages effects) (datagrams effects))
    (hm : isVote m = true) (hi : R.Informed net s) : R.Informed net' s := by
  have hknows := hi.server before hr.srvBefore
  have hself := fun x hx => (Server.isRegistry_of_self hr.result (x := x) hx).2
  refine ⟨fun t ht' => ?_, fun state hq => ?_, fun line hline hdst => ?_, ?_⟩
  · obtain rfl := Option.some.inj (ht'.symm.trans hr.srvAfter)
    refine knows_vote hr hm hknows (fun state hstate => ?_) fun a ha => ?_
    · subst hstate
      exact hi.queued state hr.queued
    · subst ha
      exact h.queued s _ hr.queued
  · rcases hr.queued_cases hq with hq | ⟨-, hnew⟩
    · exact hi.queued state hq
    · exact absurd rfl (hself _ hnew state)
  · rw [hr.pongs] at hline
    rcases List.mem_append.1 hline with hline | hline
    · exact hi.pongs line hline hdst
    · obtain ⟨⟨addr, rfl⟩, -⟩ := hr.pongLine hline
      simp [isVote] at hm
  · obtain ⟨rest, hbox, hbox'⟩ := hr.mailbox
    obtain ⟨hlost, hlost'⟩ := R.lost_handles hbox hbox'
    rw [hi.lost] at hlost
    obtain ⟨hhead, hrest⟩ := List.append_eq_nil_iff.1 hlost.symm
    rw [hlost', hrest, List.nil_append]
    generalize selfMessages effects = self at ht
    generalize datagrams effects = dgs at ht
    cases ht with
    | idle _ _ _ hidle =>
        exact List.filterMap_eq_nil_iff.2 fun x hx => lostNumber_of_electionMsg (hidle x hx).1
    | lose | declare | stop => rfl
    | @send _ e q _ _ _ haims hfree =>
        -- a server that knows the dead sends to the living
        have hq : q ∈ R.L := by
          by_contra hdead
          rw [List.mem_append, List.mem_singleton] at hfree
          rcases hknows q haims.1 hdead with hl | hin
          · exact hfree (.inr hl)
          · exact hfree (.inl hin)
        simp [lostNumber_waiting, hq]
    | wait w =>
        simp only [lostNumber, List.filterMap_cons, List.filterMap_nil] at hhead ⊢
        by_cases hw : w.neighborId ∈ R.L <;> simp [hw] at hhead ⊢
    | resend hdead => simp [lostNumber, hdead] at hhead
    | finish _ _ _ hq => simp [lostNumber_waiting, hq]
    | own | pass => simp [isVote] at hm

/-- What is under way stays so, apart from the message that is handled. -/
theorem Pending.kept (hp : R.Pending net) (hr : Handles R.N net net' s o before m after effects)
    (hstart : m ≠ .startElection) (helection : ∀ e, m ≠ .election e)
    (hlost : R.lost net s ≠ [] → R.lost net' s ≠ []) : R.Pending net' := by
  cases hp with
  | start hq => exact .start (hr.still_queued hq (Ne.symm hstart))
  | queued hq => exact .queued (hr.still_queued hq (Ne.symm (helection _)))
  | flight hd hb =>
      refine .flight (d := _) ?_ hb
      rw [hr.flight]
      exact List.mem_append_left _ hd
  | @lost k hk =>
      by_cases hks : k = s
      · subst hks
        exact .lost (hlost hk)
      · exact .lost (s := k) (by rwa [lost_others hr hks])

theorem Voting.pending_handles (h : R.Holds net) (hv : R.Voting net)
    (hr : Handles R.N net net' s o before m after effects)
    (ht : R.Turn net net' s before after m (selfMessages effects) (datagrams effects))
    (hgoes : ∀ q e, (q, e) ∈ datagrams effects → ∃ e', e = .election e')
    (hnone : ∀ n, .newLeader n ∉ selfMessages effects)
    (hreleased : ∃ x ∈ R.L, Released net' x) : R.Pending net' := by
  have hm := hv.queued s m hr.queued
  have hself := fun x hx => hr.self_queued (x := x) hx
  have hsent := fun q e => h.sent hr (q := q) (e := e)
  have hmem := (h.members s before hr.srvBefore).looks.mem
  obtain ⟨rest, hbox, hbox'⟩ := hr.mailbox
  obtain ⟨hlost, hlost'⟩ := R.lost_handles hbox hbox'
  -- the election goes on without the message that is handled
  have kept : (∀ e, m ≠ .election e) → .startElection ∉ selfMessages effects →
      m ≠ .startElection → (R.lost net s ≠ [] → R.lost net' s ≠ []) → R.Pending net' := by
    intro helection hlose hstart hkeeps
    obtain ⟨x, hx, hrel⟩ := hreleased
    exact (hv.pending ⟨x, hx, released_before hr hm helection hlose hrel⟩).kept hr hstart
      helection hkeeps
  -- an election that is sent is under way, or lost
  have sent : ∀ {e : Election} {q : ℕ} {x : Msg}, (q, .election e) ∈ datagrams effects →
      x ∈ selfMessages effects → (q ∉ R.L → (R.lostNumber x).isSome) → R.Pending net' := by
    intro e q x he hx hwaits
    by_cases hq : q ∈ R.L
    · exact .flight (hsent _ _ he hq) rfl
    · obtain ⟨k, hk⟩ := Option.isSome_iff_exists.1 (hwaits hq)
      exact .lost (List.ne_nil_of_mem (List.mem_filterMap.2 ⟨x, hself x hx, hk⟩))
  generalize selfMessages effects = self at ht hself hlost' hnone kept sent
  generalize datagrams effects = dgs at ht hgoes hsent sent
  cases ht with
  | idle hmsg hstart _ hidle =>
      refine kept ?_ (fun hin => (hidle _ hin).2.1 rfl) hstart fun hne => ?_
      · rintro e rfl
        simp [Msg.electionMsg] at hmsg
      · rw [hlost, lostNumber_of_electionMsg hmsg, Option.toList_none, List.nil_append] at hne
        rw [hlost']
        exact fun heq => hne (List.append_eq_nil_iff.1 heq).1
  | lose => exact .start (hself _ (List.mem_singleton.2 rfl))
  | declare => exact absurd (List.mem_singleton.2 rfl) (hnone _)
  | send =>
      refine sent (List.mem_singleton.2 rfl) (List.mem_singleton.2 rfl) fun hq => ?_
      rw [lostNumber_waiting, if_neg hq]
      rfl
  | wait w =>
      refine kept (by simp) (by simp) (by simp) fun hne => ?_
      rw [hlost'] at *
      rw [hlost] at hne
      intro heq
      obtain ⟨h1, h2⟩ := List.append_eq_nil_iff.1 heq
      refine hne (List.append_eq_nil_iff.2 ⟨?_, h1⟩)
      simp only [lostNumber, List.filterMap_cons, List.filterMap_nil] at h2 ⊢
      by_cases hw : w.neighborId ∈ R.L <;> simp [hw] at h2 ⊢
  | stop c hc =>
      refine kept (by simp) (by simp) (by simp) fun hne => ?_
      have hlive : R.lostNumber (.checkIfNeighborAcked c) = none := by
        by_contra hdead
        obtain ⟨k, hk⟩ := Option.ne_none_iff_exists'.1 hdead
        have hin : k ∈ R.lost net s := List.mem_filterMap.2 ⟨_, hr.queued, hk⟩
        obtain rfl : c.sequenceNumber = k := by
          simp only [lostNumber] at hk
          split at hk
          · simp at hk
          · exact Option.some.inj hk
        rcases hv.numbers s hmem with hn | hi
        · exact (hn.due before _ hr.srvBefore (.recorded hr.srvBefore hc)).2 hin
        · rw [hi.lost] at hin
          simp at hin
      rw [hlost, hlive, Option.toList_none, List.nil_append] at hne
      rw [hlost']
      exact fun heq => hne (List.append_eq_nil_iff.1 heq).1
  | @resend c e q _ he =>
      refine sent (by rw [he]; exact List.mem_singleton.2 rfl) (List.mem_singleton.2 rfl)
        fun hq => ?_
      simp [lostNumber, hq]
  | finish | pass => simpa using hgoes _ _ (List.mem_singleton.2 rfl)
  | own => simp [isVote] at hm

/-- **A server handles a message** while no leader is announced. -/
theorem Voting.handles (h : R.Holds net) (hv : R.Voting net)
    (hr : Handles R.N net net' s o before m after effects)
    (htimely : net.timely (.recv s o) = true) : R.Voting net' ∨ R.Decided net' := by
  have hm := hv.queued s m hr.queued
  have ht := h.turn hr htimely
  rcases ht.decides h hr hm with hdecided | ⟨hsame, hgoes, hnone⟩
  · exact .inr hdecided
  refine .inl ⟨fun k t hk => ?_, fun k x hq => ?_, fun d hd e hb => ?_, fun k hk => ?_,
    hv.pending_handles h hr ht hgoes hnone⟩
  · rcases hr.srv_cases hk with ⟨rfl, rfl⟩ | ⟨-, hold⟩
    · exact hsame.2.trans (hv.noLeader k before hr.srvBefore)
    · exact hv.noLeader k t hold
  · rcases hr.queued_cases hq with hq | ⟨-, hself⟩
    · exact hv.queued k x hq
    · rcases self_vote hr hm hself with hvote | ⟨n, rfl⟩
      · exact hvote
      · exact absurd hself (hnone n)
  · rw [hr.flight] at hd
    rcases List.mem_append.1 hd with hd | hd
    · exact hv.flight d hd e hb
    · obtain ⟨-, -, -, e', hb', he⟩ := mem_packets hd
      obtain rfl := Body.msg.inj (hb.symm.trans hb')
      exact hgoes _ _ he
  · by_cases hks : k = s
    · subst hks
      exact (hv.numbers k hk).imp (Numbered.handles h hr ht hgoes) (Informed.handles h hr ht hm)
    · have hlost := lost_others (R := R) hr hks
      have hsrv := (hr.others k hks).1
      refine (hv.numbers k hk).imp (fun hn => ?_) fun hi => ?_
      · refine hn.mono (fun t ht => ⟨t, hsrv ▸ ht, le_refl _⟩) (fun q hq => ?_) ?_
        · rcases due_handles h hr hq with hq | ⟨heq, -⟩
          · exact hq
          · exact absurd heq hks
        · exact (List.Perm.of_eq hlost).subperm
      · refine ⟨fun t ht => hi.server t (hsrv ▸ ht), fun state hq => ?_, fun line hline => ?_,
          hlost.trans hi.lost⟩
        · rw [Queued, (hr.others k hks).2] at hq
          exact hi.queued state hq
        · rw [hr.pongs] at hline
          rcases List.mem_append.1 hline with hline | hline
          · exact hi.pongs line hline
          · obtain ⟨⟨addr, rfl⟩, -⟩ := hr.pongLine hline
            simp [isVote] at hm

/-! ### Announcements -/

theorem Elected.handles (hr : Handles R.N net net' s o before m after effects)
    (ht : R.Turn net net' s before after m (selfMessages effects) (datagrams effects))
    (hx : R.Elected net k) : R.Elected net' k := by
  obtain ⟨srv, hsrv, hleader, him⟩ := hx
  by_cases hks : k = s
  · subst hks
    obtain rfl := Option.some.inj (hsrv.symm.trans hr.srvBefore)
    refine ⟨after, hr.srvAfter, ?_, fun hk => hr.handled.imLeader (him hk)⟩
    rcases ht.leader with hsame | ⟨hleader', -⟩
    · exact hsame.1.trans hleader
    · exact hleader'
  · exact ⟨srv, (hr.others k hks).1.trans hsrv, hleader, him⟩

/-- Whoever handles the announcement follows the announced server. -/
theorem Turn.elected (hafter : net'.srv s = some after)
    (ht : R.Turn net net' s before after m self dgs) {n : NewLeader} (hm : m = .newLeader n) :
    R.Elected net' s := by
  subst hm
  cases ht with
  | idle hmsg => simp [Msg.electionMsg] at hmsg
  | own _ _ _ hleader him | pass _ _ _ _ _ hleader him =>
      refine ⟨after, hafter, hleader, fun hs => ?_⟩
      rw [him, hs, decide_eq_true rfl, Bool.or_true]
  | declare hcause | send hcause => simp at hcause

/-- **A server handles a message** once a leader is announced. -/
theorem Decided.handles (h : R.Holds net) (hd : R.Decided net)
    (hr : Handles R.N net net' s o before m after effects)
    (htimely : net.timely (.recv s o) = true) : R.Decided net' := by
  have ht := h.turn hr htimely
  have hkeep := fun x => Elected.handles (k := x) hr ht
  have hsent := fun q e => h.sent hr (q := q) (e := e)
  rcases hd with hall | ⟨n, y, hway, hy, hbehind⟩
  · exact .inl fun x hx => hkeep x (hall x hx)
  have hbehind' := fun x hx hlt => hkeep x (hbehind x hx hlt)
  rcases hway with hq | ⟨d, hd, hdst, hb⟩
  swap
  · refine .inr ⟨n, y, .inr ⟨d, ?_, hdst, hb⟩, hy, hbehind'⟩
    rw [hr.flight]
    exact List.mem_append_left _ hd
  by_cases hhead : y = s ∧ m = .newLeader n
  swap
  · by_cases hm : m = .newLeader n
    · have hys : y ≠ s := fun hys => hhead ⟨hys, hm⟩
      refine .inr ⟨n, y, .inl ?_, hy, hbehind'⟩
      rwa [Queued, (hr.others y hys).2]
    · exact .inr ⟨n, y, .inl (hr.still_queued hq (Ne.symm hm)), hy, hbehind'⟩
  -- the announcement is handled: it has been all the way round, or goes on to the next
  obtain ⟨rfl, rfl⟩ := hhead
  have helected := ht.elected hr.srvAfter rfl
  have hn : R.Announces net n := h.queued y _ hq
  generalize selfMessages effects = self at ht
  generalize datagrams effects = dgs at ht hsent
  cases ht with
  | idle hmsg => simp [Msg.electionMsg] at hmsg
  | own _ _ hsender =>
      refine .inl fun x hx => ?_
      by_cases hxy : x = y
      · exact hxy ▸ helected
      · refine hbehind' x hx ?_
        rw [hsender, ringDist_self]
        refine lt_of_le_of_ne (ringDist_le (R.inRing y hy) (R.inRing x hx)) fun heq => hxy ?_
        exact ringDist_inj (R.inRing y hy) (R.inRing x hx) (R.inRing y hy)
          (heq.trans ringDist_self.symm)
  | @pass _ q _ _ _ hsender hq hnear =>
      refine .inr ⟨n, q, .inr ⟨_, hsent _ _ (List.mem_singleton.2 rfl) hq, rfl, rfl⟩, hq,
        fun x hx hlt => ?_⟩
      have hle := (le_of_lt_near hn.sender hy hq hx hnear hlt).2
      by_cases hxy : x = y
      · exact hxy ▸ helected
      · refine hbehind' x hx (lt_of_le_of_ne hle fun heq => hxy ?_)
        exact ringDist_inj (R.inRing _ hn.sender) (R.inRing x hx) (R.inRing y hy) heq
  | declare hcause | send hcause => simp at hcause

/-! ### Messages that arrive -/

section Arrival

variable (hstep : Step R.N net l net') (hsteady : net.isSteady l = true)
  (hrecv : ∀ s o, l ≠ .recv s o)
include hstep hsteady hrecv

theorem Voting.vote_arrival (hv : R.Voting net) {x : Msg} (hx : Arrives R.N net net' l k x) :
    isVote x = true ∧ R.lostNumber x = none := by
  cases hx with
  | @posted _ _ srv hs hm =>
      have hfollower := hv.noLeader _ srv hs
      cases x with
      | ping | sendLeaderId => exact ⟨rfl, rfl⟩
      | _ => simp [reaches, Msg.isExternal, hfollower] at hm
  | ack | pong => exact ⟨rfl, rfl⟩
  | @msg i d e x hx hd hb =>
      obtain ⟨e', rfl⟩ := hv.flight d hd e hb
      subst hx
      exact ⟨rfl, rfl⟩
  | silence | dial => simp [isSteady] at hsteady

theorem Voting.lost_arrival (hv : R.Voting net) (s : ℕ) : R.lost net' s = R.lost net s := by
  rcases mailbox_arrival hstep hsteady hrecv s with heq | ⟨x, hx, heq⟩
  · rw [lost, lost, heq]
  · rw [lost, lost, heq, List.filterMap_append, List.filterMap_cons,
      (hv.vote_arrival hstep hsteady hrecv hx).2]
    exact List.append_nil _

theorem due_arrival (hdue : Due net' s k) : Due net s k := by
  have hflight : ∀ {d : Packet}, d ∈ net'.flight → d ∈ net.flight ∨
      ∃ d' e, d' ∈ net.flight ∧ d'.body = .msg e ∧ d = net.ackOf d' e := by
    intro d hd
    rcases hstep.flight_cases hd with hd | ⟨s, o, -, -, -, -, hl, -⟩ |
      ⟨d', e, hd', hb, -, -, rfl⟩
    · exact .inl hd
    · exact absurd hl (hrecv s o)
    · exact .inr ⟨d', e, hd', hb, rfl⟩
  cases hdue with
  | recorded hs hk => exact .recorded (srv_arrival hstep hsteady hrecv s ▸ hs) hk
  | queued hq hk =>
      rcases hstep.queued_cases hq with hq | hnew | ⟨o, _, _, _, _, hl, -⟩
      · exact .queued hq hk
      · cases hnew with
        | posted _ hm => simp [reaches, Msg.isExternal] at hm
        | ack hd hb => exact .ack hd hb rfl hk
        | @msg i d e x hx => cases e <;> simp [ElectionMsg.toMsg] at hx
      · exact absurd hl (hrecv s o)
  | ack hd hb hdst hk =>
      rcases hflight hd with hd | ⟨d', e, hd', hb', rfl⟩
      · exact .ack hd hb hdst hk
      · obtain rfl := Body.ack.inj hb
        exact .msg hd' hb' hdst hk
  | msg hd hb hsrc hk =>
      rcases hflight hd with hd | ⟨d', e, -, -, rfl⟩
      · exact .msg hd hb hsrc hk
      · simp [ackOf] at hb

theorem Voting.arrival (h : R.Holds net) (hv : R.Voting net) : R.Voting net' := by
  have hsrv := srv_arrival hstep hsteady hrecv
  have hlost := hv.lost_arrival hstep hsteady hrecv
  have hpongs : ∀ line ∈ net'.pongs, line ∈ net.pongs := by
    intro line hline
    rcases hstep.pongs_cases hline with hline | ⟨s, o, -, -, -, -, hl, -⟩
    · exact hline
    · exact absurd hl (hrecv s o)
  refine ⟨fun k t hk => hv.noLeader k t (hsrv k ▸ hk), fun k x hq => ?_, fun d hd e hb => ?_,
    fun k hk => ?_, fun ⟨x, hx, hrel⟩ => ?_⟩
  · rcases mailbox_arrival hstep hsteady hrecv k with heq | ⟨y, hy, heq⟩
    · rw [Queued, heq] at hq
      exact hv.queued k x hq
    · rw [Queued, heq] at hq
      rcases List.mem_append.1 hq with hq | hq
      · exact hv.queued k x hq
      · rw [List.mem_singleton.1 hq]
        exact (hv.vote_arrival hstep hsteady hrecv hy).1
  · rcases hstep.flight_cases hd with hd | ⟨s, o, -, -, -, -, hl, -⟩ | ⟨d', e', -, -, -, -, rfl⟩
    · exact hv.flight d hd e hb
    · exact absurd hl (hrecv s o)
    · simp [ackOf] at hb
  · refine (hv.numbers k hk).imp (fun hn => ?_) fun hi => ?_
    · exact hn.mono (fun t ht => ⟨t, hsrv k ▸ ht, le_refl _⟩)
        (fun q hq => due_arrival hstep hsteady hrecv hq) (List.Perm.of_eq (hlost k)).subperm
    · refine ⟨fun t ht => hi.server t (hsrv k ▸ ht), fun state hq => ?_,
        fun line hline => hi.pongs line (hpongs line hline), (hlost k).trans hi.lost⟩
      rcases hstep.queued_cases hq with hq | hnew | ⟨o, _, _, _, _, hl, -⟩
      · exact hi.queued state hq
      · cases hnew with
        | posted _ hm => simp [reaches, Msg.isExternal] at hm
        | @msg i d e x hx => cases e <;> simp [ElectionMsg.toMsg] at hx
        | pong hline => exact hi.pongs _ hline rfl
      · exact absurd hl (hrecv k o)
  · have hold := hv.pending ⟨x, hx, (released_arrival hstep hsteady hrecv x).1 hrel⟩
    cases hold with
    | start hq => exact .start (queued_arrival hstep hsteady hrecv hq)
    | queued hq => exact .queued (queued_arrival hstep hsteady hrecv hq)
    | flight hd hb =>
        rcases h.flight_arrival hstep hsteady hrecv hd hb with hd | ⟨-, hq⟩
        · exact .flight hd hb
        · exact .queued hq
    | @lost s hs => exact .lost (s := s) (by rwa [hlost])

theorem Decided.arrival (h : R.Holds net) (hd : R.Decided net) : R.Decided net' := by
  have hkeep : ∀ x, R.Elected net x → R.Elected net' x := by
    rintro x ⟨srv, hsrv, hx⟩
    exact ⟨srv, (srv_arrival hstep hsteady hrecv x).trans hsrv, hx⟩
  rcases hd with hall | ⟨n, y, hway, hy, hbehind⟩
  · exact .inl fun x hx => hkeep x (hall x hx)
  refine .inr ⟨n, y, ?_, hy, fun x hx hlt => hkeep x (hbehind x hx hlt)⟩
  rcases hway with hq | ⟨d, hd, rfl, hb⟩
  · exact .inl (queued_arrival hstep hsteady hrecv hq)
  · rcases h.flight_arrival hstep hsteady hrecv hd hb with hd | ⟨-, hq⟩
    · exact .inr ⟨d, hd, rfl, hb⟩
    · exact .inl hq

end Arrival

/-! ## Runs -/

/-- **Every step of the election makes it go on, or decides it.** -/
theorem progress_step (h : R.Holds net) (hp : R.Voting net ∨ R.Decided net)
    (hstep : net.step R.N l = some net') (hsteady : net.isSteady l = true) :
    R.Voting net' ∨ R.Decided net' := by
  rcases h.step_cases hstep with ⟨s, o, before, m, after, effects, rfl, hr⟩ | ⟨hs, hrecv⟩
  · simp only [isSteady, Bool.and_true] at hsteady
    rcases hp with hv | hd
    · exact hv.handles h hr hsteady
    · exact .inr (hd.handles h hr hsteady)
  · exact hp.imp (Voting.arrival hs hsteady hrecv h) (Decided.arrival hs hsteady hrecv h)

/-- Nothing is queued, and no datagram is under way. -/
structure Still (net : Net) : Prop where
  mailbox : ∀ s, net.mailbox s = []
  flight : net.flight = []

/-- **An election that has begun is over when nothing is left to do**: all live servers follow the
    greatest of them. -/
theorem elected_of_still (hp : R.Voting net ∨ R.Decided net) (hstill : Still net)
    (hreleased : ∃ x ∈ R.L, Released net x) : ∀ x ∈ R.L, R.Elected net x := by
  have hqueued : ∀ {k : ℕ} {x : Msg}, ¬ net.Queued k x := by
    intro k x hq
    rw [Queued, hstill.mailbox] at hq
    simp at hq
  rcases hp with hv | hall | ⟨n, y, hway, -, -⟩
  · cases hv.pending hreleased with
    | start hq | queued hq => exact absurd hq hqueued
    | flight hd =>
        rw [hstill.flight] at hd
        simp at hd
    | lost hlost => exact absurd (by rw [lost, hstill.mailbox]; rfl) hlost
  · exact hall
  · rcases hway with hq | ⟨d, hd, -⟩
    · exact absurd hq hqueued
    · rw [hstill.flight] at hd
      simp at hd

end ConcuRide.Round
