import ConcuRide.Lib.Replay
import ConcuRide.Network.Ids

set_option autoImplicit false

/-! # Copies of the leader's state

Before any election the registry of a replica changes only when it applies a `pong`, and all `pong`s
come from the leader that was started as such. The copies on their way to a replica, in its mailbox
or on its connection, were taken one after the other: a replica never goes back. -/

namespace ConcuRide

open Lib

/-- The copy that a message brings. -/
def Msg.snapshot : Msg → Option UpdateNetworkState
  | .updateNetworkState state => some state
  | _ => none

namespace Net

variable {N i : ℕ} {net net' : Net} {l : Label}

/-- Leader `i` does not crash, and nobody finds it silent. -/
def calm (i : ℕ) : Label → Bool
  | .crash s => decide (s ≠ i)
  | .silence _ => false
  | _ => true

/-- The messages a replica gets as long as `c` is the leader it connects to. -/
def isReplicaMsg (c : ServerConnection) : Msg → Prop
  | .ping | .sendLeaderId _ | .updateNetworkState _ => True
  | .setLeader m => m.leaderConnection = c
  | _ => False

/-- The registry of leader `i` is `state`. -/
def Leads (i : ℕ) (net : Net) (state : UpdateNetworkState) : Prop :=
  ∃ s, net.srv i = some s ∧ s.networkState = state

/-- The copies of the registry on their way to server `r`, oldest first. -/
def copies (net : Net) (r : ℕ) : List UpdateNetworkState :=
  (net.mailbox r).filterMap Msg.snapshot ++
    (net.pongs.filter fun line => line.dst = r).map PongLine.state

/-! ## Before any election -/

/-- The group before any election. -/
structure Calm (N i : ℕ) (net : Net) : Prop where
  valid : Valid N net
  leader : ∃ s, net.srv i = some s ∧ s.udpSender = false
  leaderBox : ∀ addr, ¬ net.Queued i (.sendLeaderId addr)
  replica : ∀ r s, r ≠ i → net.srv r = some s → s.imLeader = false ∧
    ∀ c, s.leaderConnection = some c → c = ⟨i, net.boots i⟩
  replicaBox : ∀ r m, r ≠ i → net.Queued r m → isReplicaMsg ⟨i, net.boots i⟩ m
  flight : net.flight = []
  pongs : ∀ line ∈ net.pongs, line.src = i

theorem calm_start (hi : i ∈ ring N) : Calm N i (start N i) where
  valid := valid_start hi
  leader := ⟨Server.lider N i, by rw [srv_start, if_pos rfl], rfl⟩
  leaderBox := fun _ => not_queued_start
  replica := fun r s hr hs => by
    rw [srv_start, if_neg hr] at hs
    cases hs
  replicaBox := fun r m _ hm => absurd hm not_queued_start
  flight := rfl
  pongs := nofun

/-- The leader runs, and everybody reaches it. -/
theorem Calm.isUp (hc : Calm N i net) : net.isUp i (net.boots i) = true := by
  obtain ⟨s, hs, -⟩ := hc.leader
  simp [Net.isUp, live_iff.2 ⟨s, hs⟩]

/-- Only the leader listens. -/
theorem Calm.listening (hc : Calm N i net) {k : ℕ} (hk : net.listening k = true) : k = i := by
  obtain ⟨s, hs, him⟩ := listening_iff.1 hk
  by_contra hne
  rw [(hc.replica k s hne hs).1] at him
  cases him

theorem dialLeader_listens {listening : ℕ → Bool} {id k leaderId : ℕ}
    (h : dialLeader N listening id = some (k, leaderId)) : listening k = true := by
  unfold dialLeader at h
  generalize (if 1 = id then 1 + 1 else 1) = first at h
  dsimp only at h
  split at h
  · next hfirst =>
      obtain ⟨rfl, -⟩ := Prod.mk.inj (Option.some.inj h)
      exact hfirst
  · obtain ⟨k', hk', heq⟩ := Option.map_eq_some_iff.1 h
    obtain ⟨rfl, -⟩ := Prod.mk.inj heq
    obtain ⟨hk'', -, -⟩ := connectToServerLeader_listening _ _ _ hk'
    simp only [Bool.and_eq_true] at hk''
    exact hk''.2

/-- What a replica makes of the messages it gets: it applies a copy, or keeps its registry. -/
theorem replica_handles {o : Oracle} {s t : Server} {m : Msg} {effects : List Effect}
    {c : ServerConnection} (hm : isReplicaMsg c m)
    (hconn : ∀ c', s.leaderConnection = some c' → c' = c)
    (hup : m = .ping → o.connected = true ∨ s.leaderConnection = none)
    (h : s.handle N o m = some (t, effects)) :
    t.imLeader = s.imLeader ∧ (∀ c', t.leaderConnection = some c' → c' = c) ∧
      selfMessages effects = [] ∧ datagrams effects = [] ∧
      t.networkState = m.snapshot.getD s.networkState := by
  cases m with
  | ping =>
      simp only [Server.handle, Server.ping, Option.some.injEq] at h
      split at h
      · obtain ⟨rfl, rfl⟩ := Prod.mk.inj h
        exact ⟨rfl, hconn, rfl, rfl, rfl⟩
      · next c' hc' =>
          rw [(hup rfl).resolve_right (by simp [hc'])] at h
          split at h <;>
            · obtain ⟨rfl, rfl⟩ := Prod.mk.inj h
              exact ⟨rfl, hconn, rfl, rfl, rfl⟩
  | sendLeaderId addr =>
      simp only [Server.handle, Server.sendLeaderId] at h
      split at h
      · obtain ⟨rfl, rfl⟩ := Prod.mk.inj (Option.some.inj h)
        exact ⟨rfl, hconn, rfl, rfl, rfl⟩
      · cases h
  | updateNetworkState state =>
      obtain ⟨rfl, rfl⟩ := Prod.mk.inj (Option.some.inj h)
      exact ⟨rfl, hconn, rfl, rfl, rfl⟩
  | setLeader m =>
      obtain ⟨rfl, rfl⟩ := Prod.mk.inj (Option.some.inj h)
      exact ⟨rfl, fun c' hc' => (Option.some.inj hc').symm.trans hm, rfl, rfl, rfl⟩
  | _ => cases hm

/-- No leader asks itself for its leader. -/
theorem sendLeaderId_not_self {o : Oracle} {s t : Server} {m : Msg} {effects : List Effect}
    (hm : m.isQuiet = true) (h : s.handle N o m = some (t, effects)) (addr : String) :
    .sendLeaderId addr ∉ selfMessages effects := by
  intro hmem
  obtain ⟨effect, he, hself⟩ := List.mem_filterMap.1 hmem
  cases effect with
  | trySend x =>
      obtain rfl := Option.some.inj hself
      cases m with
      | newDriver | getDrivers | passengerLogin | updateDriver | busyDriver | reconnectDriver
      | updateDriverSocket | newServerConnection | pong | updateNetworkState =>
          simp only [Server.handle, Server.newDriver, Server.getDrivers, Server.passengerLogin,
            Server.updateDriver, Server.busyDriver, Server.reconnectDriver,
            Server.updateDriverSocket, Server.newServerConnection, Server.pong,
            Server.updateNetworkState, Option.some.injEq] at h
          (repeat' split at h) <;> · obtain ⟨-, rfl⟩ := Prod.mk.inj h; simp at he
      | sendLeaderId =>
          simp only [Server.handle, Server.sendLeaderId] at h
          split at h
          · obtain ⟨-, rfl⟩ := Prod.mk.inj (Option.some.inj h)
            simp at he
          · cases h
      | _ => cases hm
  | _ => cases hself

/-- The leader sends no datagrams, and does not ask itself for its leader. -/
theorem leader_handles {o : Oracle} {s t : Server} {m : Msg} {effects : List Effect}
    (hm : m.isQuiet = true ∨ m = .ping) (hnone : s.leaderConnection = none)
    (h : s.handle N o m = some (t, effects)) :
    datagrams effects = [] ∧ ∀ addr, .sendLeaderId addr ∉ selfMessages effects := by
  rcases hm with hm | rfl
  · refine ⟨?_, sendLeaderId_not_self hm h⟩
    have hh := Server.handle_cases h
    generalize datagrams effects = dgs at hh
    generalize selfMessages effects = self at hh
    cases hh <;> first | rfl | cases hm
  · simp only [Server.handle, Server.ping, hnone, Option.some.injEq] at h
    obtain ⟨-, rfl⟩ := Prod.mk.inj h
    exact ⟨rfl, fun addr => by simp [selfMessages]⟩

theorem Calm.boots (hc : Calm N i net) (h : Step N net l net') : net'.boots i = net.boots i := by
  cases h with
  | @boot s hs =>
      have hne : i ≠ s := by
        rintro rfl
        obtain ⟨t, ht, -⟩ := hc.leader
        rw [live_iff.2 ⟨t, ht⟩] at hs
        cases hs
      simp [boot, hne]
  | _ => rfl

/-- The leader goes on: it neither crashes nor panics, and dials nobody. -/
theorem Calm.leader_step (hc : Calm N i net) (hok : calm i l = true)
    (hstep : net.step N l = some net') : ∃ s, net'.srv i = some s ∧ s.udpSender = false := by
  obtain ⟨s, hs, hudp⟩ := hc.leader
  have stays : ∀ {k : ℕ}, k ≠ i → ∃ s, (net.crash k).srv i = some s ∧ s.udpSender = false :=
    fun hk => ⟨s, by rw [srv_crash, if_neg hk.symm]; exact hs, hudp⟩
  cases step_cases hstep with
  | @recv k o p m rest t effects hp hbox hans hh =>
      have hr := handles hp hbox hans hh
      by_cases hk : i = k
      · subst hk
        refine ⟨t, hr.srvAfter, ?_⟩
        obtain rfl := Option.some.inj (hs.symm.trans hr.srvBefore)
        exact hr.handled.udpSender.trans hudp
      · exact ⟨s, (hr.others i hk).1.trans hs, hudp⟩
  | @panic k o p m rest hp hbox hh =>
      refine stays fun hk => ?_
      subst hk
      have hq : net.Queued k m := by
        rw [Queued, mailbox_of_procs hp, hbox]
        exact List.mem_cons_self
      rcases (hc.valid.noUdp k s hs hudp).2.2 m hq with hm | rfl
      · cases m with
        | sendLeaderId addr => exact hc.leaderBox addr hq
        | _ => first | cases hh | cases hm
      · cases hh
  | crash => exact stays (by simpa [calm] using hok)
  | @dialFailed k =>
      refine stays fun hk => ?_
      subst hk
      obtain ⟨p, hp, rfl⟩ := srv_eq_some.1 hs
      simp [step, dial, hp, hudp] at hstep
  | post | deliverAck | pongArrives | silence => exact ⟨s, srv_enqueue.trans hs, hudp⟩
  | deliverMsg => exact ⟨s, srv_received.trans hs, hudp⟩
  | deliverLost | drop | duplicate | pongLost => exact ⟨s, hs, hudp⟩
  | @boot k hk =>
      have hne : i ≠ k := by
        rintro rfl
        rw [live_iff.2 ⟨s, hs⟩] at hk
        cases hk
      exact ⟨s, by rw [srv_boot, if_neg hne]; exact hs, hudp⟩
  | @dial k p _ _ hp _ hudp' =>
      have hne : i ≠ k := by
        rintro rfl
        obtain ⟨p', hp', rfl⟩ := srv_eq_some.1 hs
        obtain rfl := Option.some.inj (hp.symm.trans hp')
        rw [hudp] at hudp'
        cases hudp'
      obtain ⟨p', hp', rfl⟩ := srv_eq_some.1 hs
      exact ⟨p'.srv, srv_eq_some.2 ⟨p', by simp [hne, hp'], rfl⟩, hudp⟩

/-- A message of a replica, handled before any election. -/
theorem Calm.replica_step (hc : Calm N i net) {r : ℕ} (hr : r ≠ i) {o : Oracle} {s t : Server}
    {m : Msg} {effects : List Effect} (h : Handles N net net' r o s m t effects) :
    t.imLeader = s.imLeader ∧ (∀ c', t.leaderConnection = some c' → c' = ⟨i, net.boots i⟩) ∧
      selfMessages effects = [] ∧ datagrams effects = [] ∧
      t.networkState = m.snapshot.getD s.networkState := by
  obtain ⟨-, hconn⟩ := hc.replica r s hr h.srvBefore
  refine replica_handles (hc.replicaBox r m hr h.queued) hconn ?_ h.result
  rintro rfl
  have hans := h.answers
  simp only [answers, Bool.or_eq_true] at hans
  refine hans.imp_right fun hall => ?_
  cases hlc : s.leaderConnection with
  | none => rfl
  | some c =>
      rw [hlc, Option.all_some, hconn c hlc, hc.isUp] at hall
      cases hall

/-- A message of the leader, handled before any election. -/
theorem Calm.leader_handles (hc : Calm N i net) {o : Oracle} {s t : Server} {m : Msg}
    {effects : List Effect} (h : Handles N net net' i o s m t effects) :
    datagrams effects = [] ∧ ∀ addr, .sendLeaderId addr ∉ selfMessages effects := by
  obtain ⟨s', hs, hudp⟩ := hc.leader
  obtain rfl := Option.some.inj (hs.symm.trans h.srvBefore)
  obtain ⟨-, hnone, hbox⟩ := hc.valid.noUdp i s' hs hudp
  exact Net.leader_handles (hbox m h.queued) hnone h.result

theorem calm_step (hc : Calm N i net) (hok : calm i l = true) (hstep : net.step N l = some net') :
    Calm N i net' := by
  have h := step_cases hstep
  constructor
  case valid => exact valid_step hc.valid hstep
  case leader => exact hc.leader_step hok hstep
  case leaderBox =>
    intro addr hq
    rcases h.queued_cases hq with hq | harr | ⟨o, s, m, t, effects, -, hr, hx⟩
    · exact hc.leaderBox addr hq
    · cases harr with
      | @posted _ _ srv hs hm =>
          obtain ⟨s, hs', hudp⟩ := hc.leader
          obtain rfl := Option.some.inj (hs.symm.trans hs')
          rw [reaches, hudp] at hm
          cases hm
      | @msg _ _ e _ hx => cases e <;> cases hx
    · exact (hc.leader_handles hr).2 addr hx
  case replica =>
    intro r t hne ht
    rw [hc.boots h]
    rcases h.srv_cases ht with hold | ⟨o, s, m, effects, -, hr⟩ | ⟨-, -, -, rfl⟩
    · exact hc.replica r t hne hold
    · obtain ⟨him, hconn, -⟩ := hc.replica_step hne hr
      exact ⟨him.trans (hc.replica r s hne hr.srvBefore).1, hconn⟩
    · exact ⟨rfl, fun c hlc => by cases hlc⟩
  case replicaBox =>
    intro r m hne hq
    rw [hc.boots h]
    rcases h.queued_cases hq with hq | harr | ⟨o, s, m', t, effects, -, hr, hx⟩
    · exact hc.replicaBox r m hne hq
    · cases harr with
      | @posted _ _ srv hs hm =>
          have him := (hc.replica r srv hne hs).1
          cases m <;> first
            | trivial
            | simp [reaches, him] at hm
      | ack hd | msg _ hd =>
          rw [hc.flight] at hd
          cases hd
      | pong => trivial
      | silence => cases hok
      | dial _ _ hk =>
          obtain rfl := hc.listening (dialLeader_listens hk)
          rfl
    · rw [(hc.replica_step hne hr).2.2.1] at hx
      cases hx
  case flight =>
    refine List.eq_nil_iff_forall_not_mem.2 fun d hd => ?_
    rcases h.flight_cases hd with hd | ⟨k, o, s, m, t, effects, -, hr, hd⟩ | ⟨d', e, hd', -⟩
    · rw [hc.flight] at hd
      cases hd
    · obtain ⟨-, -, -, e, -, he⟩ := mem_packets hd
      by_cases hk : k = i
      · subst hk
        rw [(hc.leader_handles hr).1] at he
        cases he
      · rw [(hc.replica_step hk hr).2.2.2.1] at he
        cases he
    · rw [hc.flight] at hd'
      cases hd'
  case pongs =>
    intro line hline
    rcases h.pongs_cases hline with hline | ⟨k, o, s, m, t, effects, -, hr, hline⟩
    · exact hc.pongs line hline
    · obtain ⟨⟨addr, rfl⟩, -⟩ := hr.pongLine hline
      have hsrc : line.src = k := by
        obtain ⟨effect, -, heq⟩ := List.mem_filterMap.1 hline
        split at heq
        · split at heq
          · obtain rfl := Option.some.inj heq
            rfl
          · cases heq
        · cases heq
      rw [hsrc]
      by_contra hne
      exact hc.replicaBox k _ hne hr.queued

/-! ## What happens to the copies -/

/-- The first of the elements with a property is taken out. -/
theorem filter_of_first {α : Type} {p : α → Bool} {xs : List α} {j : ℕ} {x : α}
    (hj : xs[j]? = some x) (hx : p x = true) (hfirst : ∀ y ∈ xs.take j, p y = false) :
    xs.filter p = x :: (xs.eraseIdx j).filter p := by
  obtain ⟨hlt, rfl⟩ := List.getElem?_eq_some_iff.1 hj
  have hnone : (xs.take j).filter p = [] :=
    List.filter_eq_nil_iff.2 fun y hy => by simp [hfirst y hy]
  rw [List.eraseIdx_eq_take_drop_succ, List.filter_append, hnone, List.nil_append]
  conv_lhs => rw [← List.take_append_drop j xs, List.drop_eq_getElem_cons hlt]
  rw [List.filter_append, hnone, List.nil_append, List.filter_cons_of_pos hx]

/-- What a step does to the copies for replica `r`, and to the registry of `r`. -/
inductive Copying (N i r : ℕ) (net net' : Net) : Prop
  | kept (hcopies : (net'.copies r).Sublist (net.copies r))
      (hsrv : ∀ t, net'.srv r = some t → ∃ s, net.srv r = some s ∧ t.networkState = s.networkState)
  | applied (state : UpdateNetworkState) (hcopies : net.copies r = state :: net'.copies r)
      (hsrv : ∀ t, net'.srv r = some t → t.networkState = state)
  | sent (state : UpdateNetworkState) (hcopies : net'.copies r = net.copies r ++ [state])
      (hleads : Leads i net' state) (hsrv : net'.srv r = net.srv r)
  | started (hcopies : (net'.copies r).Sublist (net.copies r)) (hdead : net.srv r = none)
      (hsrv : net'.srv r = some (Server.replica N r))

/-- Nobody but the leader sends copies. -/
theorem Handles.pongLines_eq_nil {k : ℕ} {o : Oracle} {s t : Server} {m : Msg}
    {effects : List Effect} (h : Handles N net net' k o s m t effects)
    (hm : ∀ addr, m ≠ .pong addr) : net.pongLines k effects = [] :=
  List.eq_nil_iff_forall_not_mem.2 fun _ hline => by
    obtain ⟨⟨addr, rfl⟩, -⟩ := h.pongLine hline
    exact hm addr rfl

/-- The leader sends at most one copy at a time, of its registry at that moment. -/
theorem Handles.pongLines_cases {k : ℕ} {o : Oracle} {s t : Server} {m : Msg}
    {effects : List Effect} (h : Handles N net net' k o s m t effects) :
    net.pongLines k effects = [] ∨
      ∃ line, net.pongLines k effects = [line] ∧ line.state = t.networkState := by
  by_cases hm : ∃ addr, m = .pong addr
  · obtain ⟨addr, rfl⟩ := hm
    obtain ⟨rfl, rfl⟩ := Prod.mk.inj (Option.some.inj h.result)
    cases addr with
    | client c => exact .inl rfl
    | server id session =>
        cases hup : net.isUp id session with
        | true => exact .inr ⟨⟨k, id, session, s.networkState⟩, by simp [pongLines, hup], rfl⟩
        | false => exact .inl (by simp [pongLines, hup])
  · exact .inl (h.pongLines_eq_nil fun addr heq => hm ⟨addr, heq⟩)

theorem copies_handled {r k : ℕ} {o : Oracle} {s t : Server} {m : Msg} {effects : List Effect}
    (hc : Calm N i net) (hr : r ≠ i) (h : Handles N net net' k o s m t effects) :
    Copying N i r net net' := by
  by_cases hk : k = i
  · -- the leader may send a copy
    subst hk
    obtain ⟨hsrv, hbox⟩ := h.others r hr
    rcases h.pongLines_cases with hnone | ⟨line, hline, hstate⟩
    · have hcopies : net'.copies r = net.copies r := by
        rw [copies, copies, hbox, h.pongs, hnone, List.append_nil]
      exact .kept (hcopies ▸ .refl _) fun t ht => ⟨t, hsrv ▸ ht, rfl⟩
    · by_cases hdst : line.dst = r
      · refine .sent line.state ?_ ⟨t, h.srvAfter, hstate.symm⟩ hsrv
        rw [copies, copies, hbox, h.pongs, hline, List.filter_append, List.map_append,
          List.append_assoc, List.filter_cons_of_pos (by simp [hdst])]
        rfl
      · have hcopies : net'.copies r = net.copies r := by
          rw [copies, copies, hbox, h.pongs, hline, List.filter_append,
            List.filter_cons_of_neg (by simp [hdst]), List.filter_nil, List.append_nil]
        exact .kept (hcopies ▸ .refl _) fun t ht => ⟨t, hsrv ▸ ht, rfl⟩
  · have hnone : net.pongLines k effects = [] := h.pongLines_eq_nil fun addr heq => by
      subst heq
      exact hc.replicaBox k _ hk h.queued
    by_cases hkr : k = r
    · -- the replica may apply a copy
      subst hkr
      obtain ⟨-, -, hself, -, hstate⟩ := hc.replica_step hk h
      obtain ⟨rest, hbox, hbox'⟩ := h.mailbox
      have hcopies : net.copies k = m.snapshot.toList ++ net'.copies k := by
        rw [copies, copies, hbox, hbox', hself, h.pongs, hnone, List.append_nil, List.append_nil]
        cases hm : m.snapshot <;> simp [hm]
      cases hm : m.snapshot with
      | none =>
          rw [hm] at hcopies hstate
          refine .kept (hcopies ▸ .refl _) fun t' ht' => ⟨s, h.srvBefore, ?_⟩
          obtain rfl := Option.some.inj (ht'.symm.trans h.srvAfter)
          exact hstate
      | some state =>
          rw [hm] at hcopies hstate
          refine .applied state hcopies fun t' ht' => ?_
          obtain rfl := Option.some.inj (ht'.symm.trans h.srvAfter)
          exact hstate
    · obtain ⟨hsrv, hbox⟩ := h.others r (Ne.symm hkr)
      have hcopies : net'.copies r = net.copies r := by
        rw [copies, copies, hbox, h.pongs, hnone, List.append_nil]
      exact .kept (hcopies ▸ .refl _) fun t ht => ⟨t, hsrv ▸ ht, rfl⟩

/-- The lines of a connection arrive in order. -/
theorem copies_pongArrives {r j : ℕ} (hc : Calm N i net)
    (hstep : net.step N (.pongArrives j) = some net') :
    (net'.copies r).Sublist (net.copies r) ∧ net'.srv r = net.srv r := by
  simp only [step, pongArrives] at hstep
  split at hstep
  · cases hstep
  · next line hline =>
      split at hstep
      · cases hstep
      · next hfirst =>
          have hsub : ((net.pongs.eraseIdx j).filter fun line => line.dst = r).Sublist
              (net.pongs.filter fun line => line.dst = r) := (List.eraseIdx_sublist _ _).filter _
          split at hstep
          · next hup =>
              obtain rfl := Option.some.inj hstep
              refine ⟨?_, srv_enqueue⟩
              simp only [isUp, live, Bool.and_eq_true] at hup
              obtain ⟨p, hp⟩ := Option.isSome_iff_exists.1 hup.1
              have hbox : (Net.enqueue { net with pongs := net.pongs.eraseIdx j } line.dst
                  (.updateNetworkState line.state)).mailbox r =
                  if r = line.dst then net.mailbox r ++ [.updateNetworkState line.state]
                  else net.mailbox r :=
                @mailbox_enqueue { net with pongs := net.pongs.eraseIdx j } _ _ _ p hp
              rw [copies, copies, hbox]
              by_cases hdst : r = line.dst
              · subst hdst
                have hmem : ∀ y ∈ net.pongs.take j, decide (y.dst = line.dst) = false := by
                  intro y hy
                  have hsrc : y.src = line.src := (hc.pongs y (List.mem_of_mem_take hy)).trans
                    (hc.pongs line (List.mem_of_getElem? hline)).symm
                  simp only [List.any_eq_true, decide_eq_true_eq, not_exists, not_and] at hfirst
                  simpa using fun hdst => hfirst y hy hsrc hdst
                rw [if_pos rfl, filter_of_first hline (by simp) hmem, List.filterMap_append,
                  List.append_assoc]
                exact .refl _
              · rw [if_neg hdst]
                exact .append_left (hsub.map _) _
          · obtain rfl := Option.some.inj hstep
            exact ⟨.append_left (hsub.map _) _, rfl⟩

theorem copies_enqueue {k r : ℕ} {p : Proc} {m : Msg} (hp : net.procs k = some p)
    (hm : m.snapshot = none) : (net.enqueue k m).copies r = net.copies r := by
  unfold copies
  rw [mailbox_enqueue hp]
  split
  · rw [List.filterMap_append, List.filterMap_cons_none hm, List.filterMap_nil, List.append_nil]
    rfl
  · rfl

theorem copies_crash {k r : ℕ} : ((net.crash k).copies r).Sublist (net.copies r) := by
  unfold copies
  rw [mailbox_crash]
  refine List.Sublist.append ?_ ((List.filter_sublist.filter _).map _)
  split
  · exact List.nil_sublist _
  · exact .refl _

theorem copying_step {r : ℕ} (hc : Calm N i net) (hok : calm i l = true) (hr : r ≠ i)
    (hstep : net.step N l = some net') : Copying N i r net net' := by
  have same : ∀ {a : Net}, a.copies r = net.copies r → a.srv r = net.srv r →
      Copying N i r net a :=
    fun hcopies hsrv => .kept (hcopies ▸ .refl _) fun t ht => ⟨t, hsrv ▸ ht, rfl⟩
  have crashes : ∀ k, Copying N i r net (net.crash k) := fun k =>
    .kept copies_crash fun t ht => by
      rw [srv_crash] at ht
      split at ht
      · cases ht
      · exact ⟨t, ht, rfl⟩
  cases step_cases hstep with
  | recv hp hbox hans hh => exact copies_handled hc hr (handles hp hbox hans hh)
  | panic | crash | dialFailed => exact crashes _
  | @post k m p hp hm =>
      have hnone : m.snapshot = none := by
        cases m <;> first | rfl | simp [reaches, Msg.isExternal] at hm
      exact same (copies_enqueue hp hnone) srv_enqueue
  | deliverLost hd | deliverAck hd | deliverMsg hd =>
      rw [hc.flight] at hd
      cases hd
  | drop | duplicate => exact same rfl rfl
  | pongLost | pongArrives =>
      obtain ⟨hcopies, hsrv⟩ := copies_pongArrives (r := r) hc hstep
      exact .kept hcopies fun t ht => ⟨t, hsrv ▸ ht, rfl⟩
  | silence => cases hok
  | @boot k hk =>
      by_cases hkr : r = k
      · subst hkr
        refine .started ?_ (by simpa [live, srv] using hk) (by rw [srv_boot, if_pos rfl])
        unfold copies
        rw [mailbox_boot, if_pos rfl]
        exact List.sublist_append_right _ _
      · refine same ?_ (by rw [srv_boot, if_neg hkr])
        unfold copies
        rw [mailbox_boot, if_neg hkr]
        rfl
  | @dial k p _ _ hp =>
      by_cases hkr : r = k
      · subst hkr
        exact same (by simp [copies, mailbox, hp, Msg.snapshot]) (by simp [srv, hp])
      · exact same (by simp [copies, mailbox, hkr]) (by simp [srv, hkr])

/-- Replica `r` holds the registry of moment `k`, and the copies on their way to it are no older. -/
structure UpTo (i r k : ℕ) (hist : List Net) (net : Net) : Prop where
  held : ∀ s, net.srv r = some s →
    ∃ earlier, hist[k]? = some earlier ∧ Leads i earlier s.networkState
  copies : Replays (Leads i) hist k (net.copies r)
  le : k ≤ hist.length

/-- A replica never goes back, as long as it runs. -/
theorem upTo_step {r k : ℕ} {hist : List Net} (h : UpTo i r k hist net)
    (hfirst : (hist ++ [net'])[0]? = some (start N i)) (hcopying : Copying N i r net net') :
    ∃ k', UpTo i r k' (hist ++ [net']) net' ∧ k' ≤ hist.length ∧
      (net.live r = true → k ≤ k') := by
  have hlen : hist.length ≤ (hist ++ [net']).length := by simp
  have old : ∀ {j : ℕ} {a : Net}, hist[j]? = some a → (hist ++ [net'])[j]? = some a := by
    intro j a hj
    obtain ⟨hlt, -⟩ := List.getElem?_eq_some_iff.1 hj
    rw [List.getElem?_append_left hlt]
    exact hj
  cases hcopying with
  | kept hcopies hsrv =>
      refine ⟨k, ⟨fun t ht => ?_, (h.copies.sublist hcopies).later net', h.le.trans hlen⟩, h.le,
        fun _ => Nat.le_refl k⟩
      obtain ⟨s, hs, hstate⟩ := hsrv t ht
      obtain ⟨earlier, hk, hleads⟩ := h.held s hs
      exact ⟨earlier, old hk, hstate ▸ hleads⟩
  | applied state hcopies hsrv =>
      have hreplays := h.copies
      rw [hcopies] at hreplays
      cases hreplays with
      | @cons _ j a _ _ hle hj hleads hrest =>
          obtain ⟨hlt, -⟩ := List.getElem?_eq_some_iff.1 hj
          exact ⟨j, ⟨fun t ht => ⟨a, old hj, (hsrv t ht).symm ▸ hleads⟩, hrest.later net',
            (Nat.le_of_lt hlt).trans hlen⟩, Nat.le_of_lt hlt, fun _ => hle⟩
  | sent state hcopies hleads hsrv =>
      refine ⟨k, ⟨fun t ht => ?_, hcopies ▸ h.copies.send h.le hleads, h.le.trans hlen⟩, h.le,
        fun _ => Nat.le_refl k⟩
      obtain ⟨earlier, hk, hleads'⟩ := h.held t (hsrv ▸ ht)
      exact ⟨earlier, old hk, hleads'⟩
  | started hcopies hdead hsrv =>
      refine ⟨0, ⟨fun t ht => ?_, ((h.copies.sublist hcopies).later net').mono (Nat.zero_le k),
        Nat.zero_le _⟩, Nat.zero_le _, fun hlive => ?_⟩
      · -- the leader was started with the same empty registry
        obtain rfl := Option.some.inj (hsrv.symm.trans ht)
        exact ⟨_, hfirst, Server.lider N i, by rw [srv_start, if_pos rfl], rfl⟩
      · obtain ⟨s, hs⟩ := live_iff.1 hlive
        rw [hdead] at hs
        cases hs

/-- `moment t r` is the moment of the registry that replica `r` holds at moment `t`. -/
structure Replicas (N i : ℕ) (moment : ℕ → ℕ → ℕ) (past : List Net) (net : Net) : Prop where
  calm : Calm N i net
  first : (past ++ [net])[0]? = some (start N i)
  now : ∀ r, r ≠ i → UpTo i r (moment past.length r) (past ++ [net]) net
  held : ∀ t r a s, (past ++ [net])[t]? = some a → r ≠ i → a.srv r = some s →
    moment t r ≤ t ∧
      ∃ earlier, (past ++ [net])[moment t r]? = some earlier ∧ Leads i earlier s.networkState
  forward : ∀ t r a b, (past ++ [net])[t]? = some a → (past ++ [net])[t + 1]? = some b →
    r ≠ i → a.live r = true → b.live r = true → moment t r ≤ moment (t + 1) r

theorem replicas_start (hi : i ∈ ring N) : Replicas N i (fun _ _ => 0) [] (start N i) where
  calm := calm_start hi
  first := rfl
  now := fun r hr =>
    { held := fun s hs => by
        rw [srv_start, if_neg hr] at hs
        cases hs
      copies := by
        have hnone : (start N i).copies r = [] := by
          rw [copies, mailbox_start]
          rfl
        rw [hnone]
        exact .nil
      le := Nat.zero_le _ }
  held := fun t r a s ha hr hs => by
    obtain ⟨hlt, rfl⟩ := List.getElem?_eq_some_iff.1 ha
    simp only [List.nil_append, List.length_singleton] at hlt
    obtain rfl : t = 0 := by omega
    rw [show ([] ++ [start N i])[0] = start N i from rfl, srv_start, if_neg hr] at hs
    cases hs
  forward := fun _ _ _ _ _ _ _ _ _ => Nat.le_refl 0

theorem replicas_step {moment : ℕ → ℕ → ℕ} {past : List Net} (h : Replicas N i moment past net)
    (hok : Net.calm i l = true) (hstep : net.step N l = some net') :
    ∃ moment', Replicas N i moment' (past ++ [net]) net' := by
  have hfirst : (past ++ [net] ++ [net'])[0]? = some (start N i) := by
    rw [List.getElem?_append_left (by simp)]
    exact h.first
  have hnext : ∀ r, ∃ k', r ≠ i → UpTo i r k' (past ++ [net] ++ [net']) net' ∧
      k' ≤ (past ++ [net]).length ∧ (net.live r = true → moment past.length r ≤ k') := by
    intro r
    by_cases hr : r = i
    · exact ⟨0, fun hne => absurd hr hne⟩
    · obtain ⟨k', hk'⟩ := upTo_step (h.now r hr) hfirst (copying_step h.calm hok hr hstep)
      exact ⟨k', fun _ => hk'⟩
  choose next hnext using hnext
  -- nothing changes about the moments before
  refine ⟨Function.update moment (past.length + 1) next, calm_step h.calm hok hstep, hfirst,
    fun r hr => ?_, fun t r a s ha hr hs => ?_, fun t r a b ha hb hr hlive hlive' => ?_⟩
  · simpa using (hnext r hr).1
  · obtain ⟨hlt, -⟩ := List.getElem?_eq_some_iff.1 ha
    simp only [List.length_append, List.length_singleton] at hlt
    by_cases ht : t = past.length + 1
    · subst ht
      rw [show past.length + 1 = (past ++ [net]).length by simp, List.getElem?_concat_length] at ha
      obtain rfl := Option.some.inj ha
      rw [Function.update_self]
      obtain ⟨hup, hle, -⟩ := hnext r hr
      exact ⟨by simpa using hle, hup.held s hs⟩
    · rw [Function.update_of_ne ht]
      rw [List.getElem?_append_left (by simp; omega)] at ha
      obtain ⟨hle, earlier, hearlier, hleads⟩ := h.held t r a s ha hr hs
      exact ⟨hle, earlier, by rw [List.getElem?_append_left (by simp; omega)]; exact hearlier,
        hleads⟩
  · obtain ⟨hlt, -⟩ := List.getElem?_eq_some_iff.1 hb
    simp only [List.length_append, List.length_singleton] at hlt
    rw [List.getElem?_append_left (by simp; omega)] at ha
    rw [Function.update_of_ne (by omega : t ≠ past.length + 1)]
    by_cases ht : t + 1 = past.length + 1
    · obtain rfl : t = past.length := by omega
      rw [Function.update_self]
      rw [List.getElem?_concat_length] at ha
      obtain rfl := Option.some.inj ha
      exact (hnext r hr).2.2 hlive
    · rw [Function.update_of_ne ht]
      rw [List.getElem?_append_left (by simp; omega)] at hb
      exact h.forward t r a b ha hb hr hlive hlive'

/-- **Replicas hold consistent prefixes.** As long as leader `i` does not crash and nobody finds it
    silent, at every moment of a run the registry of every replica is the registry that `i` had at
    one moment that is not in the future, and that moment never moves back while the replica runs. -/
theorem replicas_hold_prefixes {past : List Net} (hi : i ∈ ring N)
    (h : Trace (step N) (fun _ l => Net.calm i l = true) (start N i) past net) :
    ∃ moment : ℕ → ℕ → ℕ,
      (∀ t r a s, (past ++ [net])[t]? = some a → r ≠ i → a.srv r = some s →
        moment t r ≤ t ∧ ∃ earlier leader, (past ++ [net])[moment t r]? = some earlier ∧
          earlier.srv i = some leader ∧ s.networkState = leader.networkState) ∧
      ∀ t r a b, (past ++ [net])[t]? = some a → (past ++ [net])[t + 1]? = some b → r ≠ i →
        a.live r = true → b.live r = true → moment t r ≤ moment (t + 1) r := by
  obtain ⟨moment, hreplicas⟩ := h.invariant
    (P := fun past net => ∃ moment, Replicas N i moment past net)
    (fun _ _ _ _ ⟨_, hs⟩ hok hst => replicas_step hs hok hst) ⟨_, replicas_start hi⟩
  refine ⟨moment, fun t r a s ha hr hs => ?_, hreplicas.forward⟩
  obtain ⟨hle, earlier, hearlier, leader, hleader, hstate⟩ := hreplicas.held t r a s ha hr hs
  exact ⟨hle, earlier, leader, hearlier, hleader, hstate.symm⟩

/-- Driver "mario" registers with leader 1, and replica 2 joins and gets the registry. -/
def joins : List Label :=
  [.boot 2, .dial 2, .recv 2 .up, .post 1 (.newDriver ⟨"mario", "127.0.0.1:40000", (5, 3)⟩),
    .post 1 (.newServerConnection ⟨.server 2 1, "127.0.0.1:5002", 2⟩), .recv 1 .up, .recv 1 .up,
    .recv 1 .up, .pongArrives 0, .recv 2 .up]

theorem replicas_hold_prefixes_joins : ∃ (past : List Net) (net : Net) (s : Server) (k : ℕ),
    net.srv 2 = some s ∧ s.idsCount = 1 ∧ ∃ earlier leader, (past ++ [net])[k]? = some earlier ∧
      earlier.srv 1 = some leader ∧ s.networkState = leader.networkState := by
  obtain ⟨net, hrun, hcount⟩ := exists_run_of_exec (fun _ l => Net.calm 1 l) (start 5 1) joins
    (fun (net : Net) => (net.srv 2).any fun (s : Server) => decide (s.idsCount = 1))
    (show (exec (step 5) _ _ _).any _ = true by decide +kernel)
  obtain ⟨past, -, htrace⟩ := hrun.trace
  obtain ⟨s, hs, hids⟩ := Option.any_eq_true _ _ |>.1 hcount
  obtain ⟨moment, hheld, -⟩ := replicas_hold_prefixes (by decide) htrace
  obtain ⟨-, hearlier⟩ := hheld past.length 2 net s List.getElem?_concat_length (by decide) hs
  exact ⟨past, net, s, _, hs, by simpa using hids, hearlier⟩

end Net

end ConcuRide
