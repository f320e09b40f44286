import ConcuRide.Network.Steps
import ConcuRide.Server.Ledger

set_option autoImplicit false

/-! # Ids across failovers

The id counter reaches the replicas in the copies of the registry that `pong` lines carry, and in no
other way. Ids stay distinct as long as a replica becomes leader with a copy from after the last id
was given, and applies no older copy later. -/

namespace ConcuRide

open Lib

/-- A `pong` line carries the registry of the server that sends it. -/
theorem Net.Handles.pongLine {N s : ℕ} {net net' : Net} {o : Oracle} {before after : Server}
    {m : Msg} {effects : List Effect} (hr : Net.Handles N net net' s o before m after effects)
    {line : PongLine} (hline : line ∈ net.pongLines s effects) :
    (∃ addr, m = .pong addr) ∧ line.state = before.networkState := by
  obtain ⟨effect, he, hline⟩ := List.mem_filterMap.1 hline
  split at hline
  · split at hline
    · obtain rfl := Option.some.inj hline
      obtain ⟨hm, hstate⟩ := Server.state_of_pong hr.result he
      exact ⟨⟨_, hm⟩, hstate⟩
    · simp at hline
  · simp at hline

/-- The group of servers and the ledger of the ids its clients were told. -/
structure Books where
  net : Net
  ledger : List (Client × ℕ)

namespace Books

variable {N : ℕ}

/-- The group that consists of `servidor_lider(l)`, before any client has registered. -/
def start (N l : ℕ) : Books := ⟨Net.start N l, []⟩

/-- The ids a step tells clients. -/
def told (net net' : Net) : Label → List (Client × ℕ)
  | .recv s _ =>
    match net.mailbox s, net'.srv s with
    | m :: _, some t => t.told m
    | _, _ => []
  | _ => []

def step (N : ℕ) (b : Books) (l : Label) : Option Books :=
  (b.net.step N l).map fun net' => ⟨net', told b.net net' l ++ b.ledger⟩

/-- A step with which server `s` becomes leader. -/
def becomesLeader (b : Books) (s : ℕ) : Bool :=
  (b.net.srv s).any fun srv =>
    match b.net.mailbox s with
    | .newLeader m :: _ => !srv.imLeader && decide (m.leaderId = s)
    | _ => false

/-- A replica becomes leader only after every leader before it has crashed. -/
def afterCrash (N : ℕ) (b : Books) : Label → Bool
  | .recv s _ => !b.becomesLeader s || (List.range (N + 1)).all fun k => !b.net.listening k
  | _ => true

/-- **The last copy counts**: the copy of the registry that a replica has when it becomes leader is
    from after the last id was given, and a leader applies no copies. -/
def upToDate (b : Books) : Label → Bool
  | .recv s _ =>
    (b.net.srv s).all fun srv =>
      (!b.becomesLeader s || b.ledger.all fun g => decide (g.2 ≤ srv.idsCount)) &&
        match b.net.mailbox s with
        | .updateNetworkState _ :: _ => !srv.imLeader
        | _ => true
  | _ => true

/-- What keeps the ids distinct. -/
structure IdsOk (b : Books) : Prop where
  servers : ∀ k s, b.net.srv k = some s → s.RegistryOk b.ledger
  copies : ∀ k state, b.net.Queued k (.updateNetworkState state) → Server.SnapshotOk b.ledger state
  lines : ∀ line ∈ b.net.pongs, Server.SnapshotOk b.ledger line.state
  /-- clients talk to leaders -/
  clients : ∀ k s m, b.net.srv k = some s → b.net.Queued k m → m.isRegistry = true →
    s.imLeader = true
  leader : ∀ k s, b.net.srv k = some s → s.imLeader = true →
    s.alloc.Reaches b.ledger ∧ ∀ k' s', b.net.srv k' = some s' → s'.imLeader = true → k' = k
  distinct : Alloc.Distinct b.ledger

variable {b b' : Books} {net' : Net} {l : Label} {s : ℕ} {o : Oracle} {before after : Server}
  {m : Msg} {effects : List Effect}

theorem replica_registryOk (k : ℕ) (ledger : List (Client × ℕ)) :
    (Server.replica N k).RegistryOk ledger := by
  have hlider : (Server.lider N k).RegistryOk ledger := by
    refine ⟨(lider_wellFormed N k).drivers, fun c i hi => ?_⟩
    cases c <;> simp [Server.alloc, Server.idOf, Server.driverInfo, Server.lider] at hi
  exact Server.SameRegistry.registryOk (s := Server.lider N k) ⟨rfl, rfl, rfl, rfl⟩ hlider

/-! ## A step in which no server handles a message -/

/-- Messages about the registry reach leaders only, and copies come from `pong` lines. -/
theorem arrives_registry {k : ℕ} {x : Msg} (h : Net.Arrives N b.net net' l k x) :
    (x.isRegistry = true → ∃ srv, b.net.srv k = some srv ∧ srv.imLeader = true) ∧
      ∀ state, x = .updateNetworkState state → ∃ line ∈ b.net.pongs, line.state = state := by
  cases h with
  | posted hs hm =>
      rename_i srv
      cases x with
      | newDriver | getDrivers | passengerLogin | updateDriver | busyDriver | reconnectDriver =>
          have him : srv.imLeader = true := by simpa [Net.reaches, Msg.isExternal] using hm
          exact ⟨fun _ => ⟨srv, hs, him⟩, by simp⟩
      | updateDriverSocket | updateNetworkState => simp [Net.reaches, Msg.isExternal] at hm
      | _ => exact ⟨fun hx => by simp [Msg.isRegistry] at hx, by simp⟩
  | msg hx hd hb hudp hlog =>
      rename_i i d e
      subst hx
      cases e <;> exact ⟨fun hx => by simp [ElectionMsg.toMsg, Msg.isRegistry] at hx,
        by simp [ElectionMsg.toMsg]⟩
  | pong hline =>
      exact ⟨fun hx => by simp [Msg.isRegistry] at hx, fun state heq =>
        ⟨_, hline, Msg.updateNetworkState.inj heq⟩⟩
  | ack | silence | dial => exact ⟨fun hx => by simp [Msg.isRegistry] at hx, by simp⟩

theorem idsOk_still (hi : b.IdsOk) (h : Net.Step N b.net l net')
    (hrecv : ∀ s o before m after effects, l = .recv s o →
      ¬ Net.Handles N b.net net' s o before m after effects) :
    IdsOk ⟨net', b.ledger⟩ := by
  refine ⟨fun k t ht => ?_, fun k state hq => ?_, fun line hline => ?_, fun k t x ht hq hx => ?_,
    fun k t ht him => ?_, hi.distinct⟩
  · rcases h.srv_cases ht with ht | ⟨o, before, m, effects, hl, hr⟩ | ⟨-, -, -, rfl⟩
    · exact hi.servers k t ht
    · exact absurd hr (hrecv _ _ _ _ _ _ hl)
    · exact replica_registryOk k _
  · rcases h.queued_cases hq with hq | hq | ⟨o, before, m, after, effects, hl, hr, -⟩
    · exact hi.copies k state hq
    · obtain ⟨line, hline, rfl⟩ := (arrives_registry hq).2 state rfl
      exact hi.lines line hline
    · exact absurd hr (hrecv _ _ _ _ _ _ hl)
  · rcases h.pongs_cases hline with hold | ⟨s, o, before, m, after, effects, hl, hr, -⟩
    · exact hi.lines line hold
    · exact absurd hr (hrecv _ _ _ _ _ _ hl)
  · rcases h.srv_cases ht with ht | ⟨o, before, m, effects, hl, hr⟩ | ⟨rfl, -, -, -⟩
    · rcases h.queued_cases hq with hq | hq | ⟨o, before, m, after, effects, hl, hr, -⟩
      · exact hi.clients k t x ht hq hx
      · obtain ⟨srv, hs, him⟩ := (arrives_registry hq).1 hx
        obtain rfl := Option.some.inj (hs.symm.trans ht)
        exact him
      · exact absurd hr (hrecv _ _ _ _ _ _ hl)
    · exact absurd hr (hrecv _ _ _ _ _ _ hl)
    · cases h with
      | boot => simp [Net.Queued, Net.mailbox_boot] at hq
  · have hold : ∀ {k : ℕ} {t : Server}, net'.srv k = some t → t.imLeader = true →
        b.net.srv k = some t := by
      intro k t ht him
      rcases h.srv_cases ht with ht | ⟨o, before, m, effects, hl, hr⟩ | ⟨-, -, -, rfl⟩
      · exact ht
      · exact absurd hr (hrecv _ _ _ _ _ _ hl)
      · simp [Server.replica] at him
    obtain ⟨hreach, hunique⟩ := hi.leader k t (hold ht him) him
    exact ⟨hreach, fun k' s' hs' him' => hunique k' s' (hold hs' him') him'⟩

/-! ## A server that handles a message -/

section Recv

variable (hr : Net.Handles N b.net net' s o before m after effects)
include hr

/-- What a server sends itself, and what it sends its replicas. -/
theorem idsOk_sent (hi : b.IdsOk) {x : Msg} (hx : x ∈ selfMessages effects) :
    (x.isRegistry = true → before.imLeader = true) ∧ ∀ state, x ≠ .updateNetworkState state := by
  obtain ⟨hreg, hstate⟩ := Server.isRegistry_of_self hr.result hx
  exact ⟨fun h => hi.clients s before m hr.srvBefore hr.queued (hreg h), hstate⟩

/-- A message about the registry: its server is leader, and keeps the ledger in order. -/
theorem idsOk_registry (hi : b.IdsOk) (hm : m.isRegistry = true) :
    IdsOk ⟨net', after.told m ++ b.ledger⟩ := by
  have him := hi.clients s before m hr.srvBefore hr.queued hm
  obtain ⟨hreach, hunique⟩ := hi.leader s before hr.srvBefore him
  obtain ⟨hok, hreach', hd⟩ := Server.handle_ledger hm (hi.servers s before hr.srvBefore) hreach
    hi.distinct hr.result
  have hafter : after.imLeader = true := hr.handled.imLeader him
  refine ⟨fun k t ht => ?_, fun k state hq => ?_, fun line hline => ?_, fun k t x ht hq hx => ?_,
    fun k t ht himt => ?_, hd⟩
  · rcases hr.srv_cases ht with ⟨rfl, rfl⟩ | ⟨-, ht⟩
    · exact hok
    · exact (hi.servers k t ht).append
  · rcases hr.queued_cases hq with hq | ⟨-, hq⟩
    · exact (hi.copies k state hq).append
    · exact absurd rfl ((idsOk_sent hr hi hq).2 state)
  · rw [hr.pongs] at hline
    rcases List.mem_append.1 hline with hline | hline
    · exact (hi.lines line hline).append
    · rw [(hr.pongLine hline).2]
      exact (hi.servers s before hr.srvBefore).snapshot.append
  · rcases hr.srv_cases ht with ⟨rfl, rfl⟩ | ⟨hks, ht⟩
    · exact hafter
    · rcases hr.queued_cases hq with hq | ⟨rfl, -⟩
      · exact hi.clients k t x ht hq hx
      · exact absurd rfl hks
  · have hk : k = s := by
      rcases hr.srv_cases ht with ⟨rfl, -⟩ | ⟨-, ht⟩
      · rfl
      · exact hunique k t ht himt
    subst hk
    obtain rfl := Option.some.inj (ht.symm.trans hr.srvAfter)
    refine ⟨hreach', fun k' s' hs' him' => ?_⟩
    rcases hr.srv_cases hs' with ⟨rfl, -⟩ | ⟨-, hs'⟩
    · rfl
    · exact hunique k' s' hs' him'

/-- Any other message leaves the registry as it is, or replaces that of a replica by a copy. -/
theorem registryOk_other (hi : b.IdsOk) (hm : m.isRegistry = false) :
    after.RegistryOk b.ledger := by
  by_cases hstate : ∃ state, m = .updateNetworkState state
  · obtain ⟨state, rfl⟩ := hstate
    obtain ⟨rfl, -⟩ := Prod.mk.inj (Option.some.inj hr.result)
    exact hi.copies s state hr.queued before
  · exact (Server.handle_sameRegistry hm (fun state heq => hstate ⟨state, heq⟩)
      hr.result).registryOk (hi.servers s before hr.srvBefore)

/-- A leader that handles a message of another kind was leader before, or takes over. -/
theorem leader_other (hi : b.IdsOk) (hm : m.isRegistry = false)
    (hid : before.id = s) (hcrash : b.afterCrash N (.recv s o) = true)
    (hdate : b.upToDate (.recv s o) = true) (hv : Net.Valid N b.net)
    (him : after.imLeader = true) :
    after.alloc.Reaches b.ledger ∧
      ∀ k' s', k' ≠ s → b.net.srv k' = some s' → s'.imLeader = false := by
  obtain ⟨rest, hbox, -⟩ := hr.mailbox
  simp only [upToDate, hr.srvBefore, Option.all_some, Bool.and_eq_true, Bool.or_eq_true,
    Bool.not_eq_true', List.all_eq_true, decide_eq_true_eq] at hdate
  simp only [afterCrash, Bool.or_eq_true, Bool.not_eq_true', List.all_eq_true] at hcrash
  cases hold : before.imLeader with
  | true =>
      -- a leader applies no copies, so its registry stays as it is
      obtain ⟨hreach, hunique⟩ := hi.leader s before hr.srvBefore hold
      have hstate : ∀ state, m ≠ .updateNetworkState state := by
        rintro state rfl
        have := hdate.2
        simp [hbox, hold] at this
      have hsame := Server.handle_sameRegistry hm hstate hr.result
      refine ⟨hsame.alloc_eq ▸ hreach, fun k' s' hne hs' => ?_⟩
      by_contra him'
      exact hne (hunique k' s' hs' (by simpa using him'))
  | false =>
      rcases hr.handled.imLeader_cases him with h | ⟨e, rfl, heq⟩
      · simp [hold] at h
      have hbecomes : b.becomesLeader s = true := by
        simp [becomesLeader, hr.srvBefore, hbox, hold, heq, hid]
      have hsame := Server.handle_sameRegistry hm (by simp) hr.result
      refine ⟨fun g hg => ?_, fun k' s' _ hs' => ?_⟩
      · rw [hsame.alloc_eq]
        exact (hdate.1.resolve_left (by simp [hbecomes])) g hg
      · have hk' := mem_ring.1 (hv.ids k' s' hs').1
        have hno := (hcrash.resolve_left (by simp [hbecomes])) k' (List.mem_range.2 (by omega))
        by_contra him'
        rw [Net.listening_iff.2 ⟨s', hs', by simpa using him'⟩] at hno
        simp at hno

/-- A message of another kind. -/
theorem idsOk_other (hi : b.IdsOk) (hm : m.isRegistry = false) (hv : Net.Valid N b.net)
    (hcrash : b.afterCrash N (.recv s o) = true) (hdate : b.upToDate (.recv s o) = true) :
    IdsOk ⟨net', b.ledger⟩ := by
  have hid := (hv.ids s before hr.srvBefore).2.1
  have hleader := leader_other hr hi hm hid hcrash hdate hv
  refine ⟨fun k t ht => ?_, fun k state hq => ?_, fun line hline => ?_, fun k t x ht hq hx => ?_,
    fun k t ht himt => ?_, hi.distinct⟩
  · rcases hr.srv_cases ht with ⟨rfl, rfl⟩ | ⟨-, ht⟩
    · exact registryOk_other (b := b) hr hi hm
    · exact hi.servers k t ht
  · rcases hr.queued_cases hq with hq | ⟨-, hq⟩
    · exact hi.copies k state hq
    · exact absurd rfl ((idsOk_sent hr hi hq).2 state)
  · rw [hr.pongs] at hline
    rcases List.mem_append.1 hline with hline | hline
    · exact hi.lines line hline
    · rw [(hr.pongLine hline).2]
      exact (hi.servers s before hr.srvBefore).snapshot
  · rcases hr.srv_cases ht with ⟨rfl, rfl⟩ | ⟨hks, ht⟩
    · have hbefore : before.imLeader = true := by
        rcases hr.queued_cases hq with hq | ⟨-, hq⟩
        · exact hi.clients k before x hr.srvBefore hq hx
        · exact (idsOk_sent hr hi hq).1 hx
      exact hr.handled.imLeader hbefore
    · rcases hr.queued_cases hq with hq | ⟨rfl, -⟩
      · exact hi.clients k t x ht hq hx
      · exact absurd rfl hks
  · rcases hr.srv_cases ht with ⟨rfl, rfl⟩ | ⟨hks, ht⟩
    · obtain ⟨hreach, hothers⟩ := hleader himt
      refine ⟨hreach, fun k' s' hs' him' => ?_⟩
      rcases hr.srv_cases hs' with ⟨rfl, -⟩ | ⟨hne, hs'⟩
      · rfl
      · simp [hothers k' s' hne hs'] at him'
    · obtain ⟨hreach, hunique⟩ := hi.leader k t ht himt
      refine ⟨hreach, fun k' s' hs' him' => ?_⟩
      rcases hr.srv_cases hs' with ⟨rfl, rfl⟩ | ⟨-, hs'⟩
      · obtain ⟨-, hothers⟩ := hleader him'
        simp [hothers k t hks ht] at himt
      · exact hunique k' s' hs' him'

end Recv

/-! ## In every run -/

theorem idsOk_start (i : ℕ) : (start N i).IdsOk := by
  have hsrv : ∀ {k s}, (start N i).net.srv k = some s → k = i ∧ s = Server.lider N i := by
    intro k s hs
    simp only [start, Net.srv_start] at hs
    split at hs
    · next hk => exact ⟨hk, (Option.some.inj hs).symm⟩
    · simp at hs
  refine ⟨fun k s hs => ?_, fun k state hq => absurd hq Net.not_queued_start,
    fun line hline => by simp [start, Net.start] at hline,
    fun k s m _ hq _ => absurd hq Net.not_queued_start, fun k s hs _ => ?_, fun c c' j hc => ?_⟩
  · obtain ⟨-, rfl⟩ := hsrv hs
    exact Server.SameRegistry.registryOk (s := Server.replica N i) ⟨rfl, rfl, rfl, rfl⟩
      (replica_registryOk i _)
  · refine ⟨fun g hg => by simp [start] at hg, fun k' s' hs' _ => ?_⟩
    rw [(hsrv hs).1, (hsrv hs').1]
  · simp [start] at hc

theorem idsOk_step (hv : Net.Valid N b.net) (hi : b.IdsOk) (hcrash : b.afterCrash N l = true)
    (hdate : b.upToDate l = true) (hstep : b.step N l = some b') :
    Net.Valid N b'.net ∧ b'.IdsOk := by
  obtain ⟨net', hnet, rfl⟩ := Option.map_eq_some_iff.1 hstep
  refine ⟨Net.valid_step hv hnet, ?_⟩
  have h := Net.step_cases hnet
  by_cases hrecv : ∃ s o before m after effects,
      l = .recv s o ∧ Net.Handles N b.net net' s o before m after effects
  · obtain ⟨s, o, before, m, after, effects, rfl, hr⟩ := hrecv
    obtain ⟨rest, hbox, -⟩ := hr.mailbox
    have htold : told b.net net' (.recv s o) = after.told m := by
      simp only [told, hbox, hr.srvAfter]
    rw [htold]
    cases hm : m.isRegistry with
    | true => exact idsOk_registry hr hi hm
    | false =>
        have hnone : after.told m = [] := by
          cases m <;> first | rfl | simp [Msg.isRegistry] at hm
        rw [hnone]
        exact idsOk_other hr hi hm hv hcrash hdate
  · have hnone : told b.net net' l = [] := by
      cases h with
      | recv hp hbox hans hh =>
          exact absurd ⟨_, _, _, _, _, _, rfl, Net.handles hp hbox hans hh⟩ hrecv
      | panic =>
          simp only [told, Net.srv_crash, if_true]
          split <;> simp_all
      | _ => rfl
    rw [hnone]
    exact idsOk_still hi h fun s o before m after effects hl hr =>
      hrecv ⟨s, o, before, m, after, effects, hl, hr⟩

/-- The replica 2 of leader 1 is sent a copy of the registry, and applies it. -/
def copyToReplica : List Label :=
  [.post 1 (.pong (.server 2 1)), .recv 1 .up, .pongArrives 0, .recv 2 .up]

/-- A driver registers with leader 1. -/
def registerDriver : List Label :=
  [.post 1 (.newDriver ⟨"mario", "127.0.0.1:40000", (5, 3)⟩), .recv 1 .up]

end Books

end ConcuRide
