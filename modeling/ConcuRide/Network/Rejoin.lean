import Mathlib.Order.Bounds.Defs
import ConcuRide.Network.Agreement

set_option autoImplicit false

/-! # Replicas that come back

A replica that crashed, missed an election and joined the new leader takes part in the next election
if nobody passes it over. Whether its predecessor on the ring does is decided by that server's
`actual_neighbor_id`, which the return of the replica does not turn back: `NewServerConnection` and
the `pong`s that follow only take it off the lists of disconnected servers. -/

namespace ConcuRide.Net

open Lib

/-- Two maps with the same entries are equal, which evaluates. -/
instance {K V : Type} [DecidableEq K] [DecidableEq V] : DecidableEq (HashMap K V) := fun m m' =>
  decidable_of_iff (m.entries = m'.entries) AList.ext_iff.symm

deriving instance DecidableEq for UpdateNetworkState

variable (N : ℕ)

/-! ## The return of a replica -/

def isBoot (r : ℕ) : Label → Bool
  | .boot k => decide (k = r)
  | _ => false

def isCrash : Label → Bool
  | .crash _ => true
  | _ => false

/-- No election is under way. -/
def electionOver (net : Net) : Bool :=
  net.flight.isEmpty && (List.range (N + 1)).all fun k =>
    (net.mailbox k).all fun m => m.electionMsg.isNone

/-- The step in which leader `l` handles the `NewServerConnection` of `r`, which has set its
    connection with `l`. -/
def admits (net : Net) (r l : ℕ) : Label → Bool
  | .recv k _ => decide (k = l) &&
    (net.srv r).any (fun srv => srv.leaderConnection = some ⟨l, net.boots l⟩) &&
    match net.mailbox l with
    | .newServerConnection m :: _ => decide (m.id = r ∧ m.addr = .server r (net.boots r))
    | _ => false
  | _ => false

/-- Along the labels, `x` applies a state that `l` was in, `seen` or from `net` on. -/
def appliesPong (l x : ℕ) : List UpdateNetworkState → Net → List Label → Bool
  | _, _, [] => false
  | seen, net, label :: ls =>
    let seen := seen ++ ((net.srv l).map Server.networkState).toList
    (match label, net.mailbox x with
      | .recv k _, .updateNetworkState state :: _ => decide (k = x) && decide (state ∈ seen)
      | _, _ => false) ||
    (net.step N label).any fun net' => appliesPong l x seen net' ls

/-- Replica `r` has just crashed. -/
def ReplicaCrashed (i r : ℕ) (net : Net) : Prop :=
  ∃ ls a, Run (step N) (fun _ _ => True) (start N i) ls a ∧ a.listening r = false ∧
    a.step N (.crash r) = some net

/-- An election that `r` has missed made `l` the leader, and is over. -/
def Missed (i r l : ℕ) (net : Net) : Prop :=
  ∃ a ls, ReplicaCrashed N i r a ∧
    Run (step N) (fun _ label => isBoot r label = false) a ls net ∧
    a.listening l = false ∧ net.listening l = true ∧ net.electionOver N = true

/-- Replica `r` was started again and has joined `l`. -/
def Admitted (i r l : ℕ) (net : Net) : Prop :=
  ∃ a a' ls b label, Missed N i r l a ∧ a.step N (.boot r) = some a' ∧
    Run (step N) (fun _ label => isCrash label = false) a' ls b ∧
    b.admits r l label = true ∧ b.step N label = some net

/-- **A replica has come back**: it crashed, missed the election of `l`, was started again and
    joined `l`, and every live replica has applied a `pong` since. -/
structure Rejoined (i r l : ℕ) (net : Net) : Prop where
  history : ∃ a ls, Admitted N i r l a ∧
    Run (step N) (fun _ label => isCrash label = false) a ls net ∧
    ∀ x, net.live x = true → x ≠ l → appliesPong N l x [] a ls = true
  alive : net.live r = true
  replica : r ≠ l

variable {N} {i r l : ℕ} {net net₁ net₂ : Net} {ls : List Label}

theorem run_any {ok : Net → Label → Prop} (h : Run (step N) ok net ls net₁) :
    Run (step N) (fun _ _ => True) net ls net₁ :=
  h.mono fun _ _ _ => trivial

theorem Admitted.run (h : Admitted N i r l net) :
    ∃ ls, Run (step N) (fun _ _ => True) (start N i) ls net := by
  obtain ⟨b, b', ls₃, c, label, hmissed, hboot, hjoin, -, hadmit⟩ := h
  obtain ⟨d, ls₂, ⟨ls₁, e, hfirst, -, hcrash⟩, helection, -, -, -⟩ := hmissed
  have hrest := (run_any hjoin).append (.cons trivial hadmit (.nil _))
  have hsecond := (run_any helection).append (.cons trivial hboot hrest)
  exact ⟨_, hfirst.append (.cons trivial hcrash hsecond)⟩

theorem Rejoined.run (h : Rejoined N i r l net) :
    ∃ ls, Run (step N) (fun _ _ => True) (start N i) ls net := by
  obtain ⟨a, ls₂, hadmitted, hpongs, -⟩ := h.history
  obtain ⟨ls₁, hrun⟩ := hadmitted.run
  exact ⟨_, hrun.append (run_any hpongs)⟩

/-! ## When nobody is passed over -/

/-- The list holds every dead server. -/
def KnowsDead (N : ℕ) (net : Net) (ids : List ℕ) : Prop :=
  ∀ x ∈ ring N, net.live x = false → x ∈ ids

/-- **Nobody is passed over when leader `l` crashes**: every other live server follows `l` and is
    connected to it; from its neighbour on, the first live server is the one that follows it on the
    ring; no live server is held for disconnected or named as such in a `pong` under way; no
    election message is under way; and the acknowledged numbers of a server are numbers it gave out,
    or it knows which servers are dead. -/
structure InShape (N l : ℕ) (net : Net) : Prop where
  follows : ∀ s srv, s ≠ l → net.srv s = some srv →
    srv.idLeader = l ∧ srv.imLeader = false ∧ srv.leaderConnection = some ⟨l, net.boots l⟩
  aims : ∀ s srv, s ≠ l → net.srv s = some srv →
    (∀ x, net.live x = true → x ≠ l →
      ringDist N s srv.actualNeighborId ≤ ringDist N s x) ∨
    ((net.live srv.actualNeighborId = true → srv.actualNeighborId = l) ∧
      ∀ x, net.live x = true → x ≠ l → x ≠ s →
        ringDist N s x < ringDist N s srv.actualNeighborId)
  spares : ∀ s srv, s ≠ l → net.srv s = some srv →
    ∀ x ∈ srv.disconnectedServers, net.live x = true → x = l
  numbers : ∀ s srv, s ≠ l → net.srv s = some srv →
    (∀ k ∈ srv.messageReceivedAck, k < srv.sequenceNumber) ∨
    (KnowsDead N net srv.disconnectedServers ∧
      (∀ state, net.Queued s (.updateNetworkState state) →
        KnowsDead N net state.disconnectedServers) ∧
      ∀ line ∈ net.pongs, line.dst = s → KnowsDead N net line.state.disconnectedServers)
  idle : ∀ s m, s ≠ l → net.Queued s m → m = .ping ∨ (∃ addr, m = .sendLeaderId addr) ∨
    ∃ state, m = .updateNetworkState state ∧
      ∀ x ∈ state.disconnectedServers, net.live x = true → x = l
  flight : net.flight = []
  pongs : ∀ line ∈ net.pongs, line.dst ≠ l →
    ∀ x ∈ line.state.disconnectedServers, net.live x = true → x = l

/-- The election after `l` has crashed. -/
def roundAfter (hv : Valid N net) (hr : net.live r = true) (hne : r ≠ l) : Round where
  N := N
  l := l
  L := (Finset.range (N + 1)).filter fun x => net.live x = true ∧ x ≠ l
  nonempty := by
    obtain ⟨srv, hsrv⟩ := live_iff.1 hr
    have := mem_ring.1 (hv.ids r srv hsrv).1
    exact ⟨r, Finset.mem_filter.2 ⟨Finset.mem_range.2 (by omega), hr, hne⟩⟩
  inRing := fun s hs => by
    obtain ⟨srv, hsrv⟩ := live_iff.1 (Finset.mem_filter.1 hs).2.1
    exact (hv.ids s srv hsrv).1
  gone := fun hl => (Finset.mem_filter.1 hl).2.2 rfl

theorem mem_roundAfter (hv : Valid N net) (hr : net.live r = true) (hne : r ≠ l) {x : ℕ} :
    x ∈ (roundAfter hv hr hne).L ↔ net.live x = true ∧ x ≠ l := by
  refine ⟨fun hx => (Finset.mem_filter.1 hx).2, fun hx => Finset.mem_filter.2 ⟨?_, hx⟩⟩
  obtain ⟨srv, hsrv⟩ := live_iff.1 hx.1
  have := mem_ring.1 (hv.ids x srv hsrv).1
  exact Finset.mem_range.2 (by omega)

/-- Whoever knows every dead server knows them after `l` has crashed, but for `l`. -/
theorem KnowsDead.round {ids : List ℕ} (h : KnowsDead N net ids) (hv : Valid N net)
    (hr : net.live r = true) (hne : r ≠ l) : (roundAfter hv hr hne).Knows ids := by
  intro x hx hdead
  by_cases hxl : x = l
  · exact .inl hxl
  · refine .inr (h x hx ?_)
    rw [← Bool.not_eq_true]
    exact fun hlive => hdead ((mem_roundAfter hv hr hne).2 ⟨hlive, hxl⟩)

theorem InShape.ready (h : InShape N l net) (hv : Valid N net) (hr : net.live r = true)
    (hne : r ≠ l) : (roundAfter hv hr hne).Ready (net.crash l) := by
  have hmem := fun {x} => mem_roundAfter hv hr hne (x := x)
  have hsrv : ∀ {s : ℕ} {srv : Server}, (net.crash l).srv s = some srv →
      s ≠ l ∧ net.srv s = some srv := by
    intro s srv hs
    rw [srv_crash] at hs
    split at hs
    · simp at hs
    · next hsl => exact ⟨hsl, hs⟩
  have hmail : ∀ {s : ℕ} {m : Msg}, (net.crash l).Queued s m → s ≠ l ∧ net.Queued s m := by
    intro s m hq
    rw [Queued, mailbox_crash] at hq
    split at hq
    · simp at hq
    · next hsl => exact ⟨hsl, hq⟩
  have hpong : ∀ {line : PongLine}, line ∈ (net.crash l).pongs →
      line ∈ net.pongs ∧ line.dst ≠ l := by
    intro line hline
    obtain ⟨hline, hdst⟩ := List.mem_filter.1 hline
    exact ⟨hline, of_decide_eq_true hdst⟩
  have hdead : ∀ {x : ℕ}, (net.live x = true → x = l) → x ∉ (roundAfter hv hr hne).L :=
    fun hx hin => (hmem.1 hin).2 (hx (hmem.1 hin).1)
  constructor
  case servers =>
    intro s hs
    obtain ⟨hlive, hsl⟩ := hmem.1 hs
    obtain ⟨srv, hsrv⟩ := live_iff.1 hlive
    exact ⟨srv, by rw [srv_crash, if_neg hsl, hsrv]⟩
  case looks =>
    intro s srv hs
    obtain ⟨hsl, hs⟩ := hsrv hs
    obtain ⟨-, hid, hptr⟩ := hv.ids s srv hs
    refine ⟨hmem.2 ⟨live_iff.2 ⟨srv, hs⟩, hsl⟩, hid, ⟨hptr, ?_⟩,
      fun x hx => hdead (h.spares s srv hsl hs x hx)⟩
    rcases h.aims s srv hsl hs with hnear | ⟨hgone, hbeyond⟩
    · exact .inl fun x hx => hnear x (hmem.1 hx).1 (hmem.1 hx).2
    · exact .inr ⟨hdead hgone, fun x hx => hbeyond x (hmem.1 hx).1 (hmem.1 hx).2⟩
  case udpSender =>
    intro s srv hs
    obtain ⟨hsl, hs⟩ := hsrv hs
    cases hudp : srv.udpSender with
    | true => rfl
    | false =>
        have := (hv.noUdp s srv hs hudp).1
        rw [(h.follows s srv hsl hs).2.1] at this
        simp at this
  case follows =>
    intro s srv hs
    obtain ⟨hsl, hs⟩ := hsrv hs
    exact ⟨(h.follows s srv hsl hs).1, (h.follows s srv hsl hs).2.1⟩
  case connected =>
    intro s srv hs
    obtain ⟨hsl, hs⟩ := hsrv hs
    refine ⟨_, (h.follows s srv hsl hs).2.2, ?_⟩
    simp [isUp, live, crash]
  case numbers =>
    intro s srv hs
    obtain ⟨hsl, hs'⟩ := hsrv hs
    refine (h.numbers s srv hsl hs').imp_right fun hknows => ?_
    obtain ⟨hdisc, hqueued, hpongs⟩ := hknows
    refine ⟨fun t ht => ?_, fun state hq => ?_, fun line hline hdst => ?_, ?_⟩
    · obtain rfl := Option.some.inj (ht.symm.trans hs)
      exact hdisc.round hv hr hne
    · exact (hqueued state (hmail hq).2).round hv hr hne
    · exact (hpongs line (hpong hline).1 hdst).round hv hr hne
    · refine List.filterMap_eq_nil_iff.2 fun m hm => ?_
      obtain ⟨-, hq⟩ := hmail hm
      rcases h.idle s m hsl hq with rfl | ⟨addr, rfl⟩ | ⟨state, rfl, -⟩ <;> rfl
  case queued =>
    intro s m hq
    obtain ⟨hsl, hq⟩ := hmail hq
    rcases h.idle s m hsl hq with hm | hm | ⟨state, hm, hstate⟩
    · exact .inl hm
    · exact .inr (.inl hm)
    · exact .inr (.inr ⟨state, hm, fun x hx => hdead (hstate x hx)⟩)
  case flight => simp [crash, h.flight]
  case pongs =>
    intro line hline x hx
    obtain ⟨hline, hdst⟩ := hpong hline
    exact hdead (h.pongs line hline hdst x hx)

/-- **A replica that has come back takes part in the next election**, if nobody is passed over when
    the leader crashes: without other crashes or losses and with timely acknowledgements, whenever
    somebody has taken part and nothing is queued or under way, all live replicas, the one that came
    back included, follow the greatest live server. -/
theorem rejoined_takes_part (hi : i ∈ ring N) (h : Rejoined N i r l net)
    (hshape : InShape N l net) (hcrash : net.step N (.crash l) = some net₁)
    (hrun : Run (step N) (fun net l => net.isSteady l = true) net₁ ls net₂)
    (hstill : Round.Still net₂) {new : List Event} (hlog : net₂.log = new ++ net₁.log)
    (hpart : ∃ s, ∃ e ∈ new, Round.takesPart s e = true) :
    ∀ s srv, net₂.srv s = some srv → IsGreatest {x | net₂.live x = true} srv.idLeader := by
  obtain ⟨ls', hbefore⟩ := h.run
  have hv := valid_run hi hbefore
  obtain rfl : net.crash l = net₁ := by
    cases step_cases hcrash with
    | crash => rfl
  have helecting := (hshape.ready hv h.alive h.replica).electing hrun
  have hagree := helecting.agree hstill hlog hpart
  intro s srv hs
  obtain ⟨t, ht, hleader, -⟩ := hagree s (helecting.holds.mem hs)
  obtain rfl := Option.some.inj (hs.symm.trans ht)
  rw [hleader]
  constructor
  · obtain ⟨t, ht⟩ := helecting.holds.servers _ (Round.greatest_mem _)
    exact live_iff.2 ⟨t, ht⟩
  · intro x hx
    obtain ⟨t, ht⟩ := live_iff.1 hx
    exact Round.le_greatest _ (helecting.holds.mem ht)

/-! ## Concrete runs -/

/-- The parts of a run in which a replica comes back. -/
structure Comeback where
  start : List Label
  election : List Label
  join : List Label
  accept : Label
  pongs : List Label

/-- The run takes place, and ends in a state with property `P`. -/
def Comeback.check (c : Comeback) (N i r l : ℕ) (P : Net → Bool) : Bool :=
  (exec (step N) (fun _ _ => true) (Net.start N i) c.start).any fun a =>
    !a.listening r && (a.step N (.crash r)).any fun a' =>
    (exec (step N) (fun _ label => !isBoot r label) a' c.election).any fun b =>
    !a'.listening l && b.listening l && b.electionOver N && (b.step N (.boot r)).any fun b' =>
    (exec (step N) (fun _ label => !isCrash label) b' c.join).any fun d =>
    d.admits r l c.accept && (d.step N c.accept).any fun d' =>
    (exec (step N) (fun _ label => !isCrash label) d' c.pongs).any fun net =>
    (net.liveServers N).all (fun x => decide (x = l) || appliesPong N l x [] d' c.pongs) &&
    net.live r && P net

theorem Comeback.rejoined {c : Comeback} {P : Net → Bool} (hi : i ∈ ring N) (hne : r ≠ l)
    (h : c.check N i r l P = true) : ∃ net, Rejoined N i r l net ∧ P net = true := by
  have of_any : ∀ {o : Option Net} {Q : Net → Bool}, o.any Q = true →
      ∃ x, o = some x ∧ Q x = true := by
    intro o Q ho
    obtain ⟨x, hx, hQ⟩ := Option.any_eq_true _ _ |>.1 ho
    exact ⟨x, hx, hQ⟩
  have run_of : ∀ {ok : Label → Bool} {x y : Net} {ls : List Label},
      exec (step N) (fun _ label => !ok label) x ls = some y →
      Run (step N) (fun _ label => ok label = false) x ls y :=
    fun h => (run_of_exec h).mono fun _ _ hok => by simpa using hok
  obtain ⟨a, ha, h⟩ := of_any h
  simp only [Bool.and_eq_true, Bool.not_eq_true'] at h
  obtain ⟨hlistening, h⟩ := h
  obtain ⟨a', ha', h⟩ := of_any h
  obtain ⟨b, hb, h⟩ := of_any h
  simp only [Bool.and_eq_true, Bool.not_eq_true'] at h
  obtain ⟨⟨⟨hbefore, hafter⟩, hover⟩, h⟩ := h
  obtain ⟨b', hb', h⟩ := of_any h
  obtain ⟨d, hd, h⟩ := of_any h
  simp only [Bool.and_eq_true] at h
  obtain ⟨hadmits, h⟩ := h
  obtain ⟨d', hd', h⟩ := of_any h
  obtain ⟨net, hnet, h⟩ := of_any h
  simp only [Bool.and_eq_true, List.all_eq_true, Bool.or_eq_true, decide_eq_true_eq] at h
  obtain ⟨⟨hpongs, hlive⟩, hP⟩ := h
  have hadmitted : Admitted N i r l d' :=
    ⟨b, b', c.join, d, c.accept, ⟨a', c.election,
      ⟨c.start, a, run_any (run_of_exec ha), hlistening, ha'⟩, run_of hb, hbefore, hafter, hover⟩,
      hb', run_of hd, hadmits, hd'⟩
  -- only servers of the ring run
  obtain ⟨ls, hrun⟩ := hadmitted.run
  have hv := valid_run hi (hrun.append (run_any (run_of hnet)))
  refine ⟨net, ⟨⟨d', c.pongs, hadmitted, run_of hnet, fun x hx hne => ?_⟩, hlive, hne⟩, hP⟩
  exact (hpongs x ((mem_liveServers hv).2 hx)).resolve_left hne

/-- Server `s` follows `l`, and passes nobody over when `l` has crashed. -/
def passesNobody (N l : ℕ) (net : Net) (s : ℕ) (srv : Server) : Bool :=
  decide (srv.idLeader = l) && !srv.imLeader &&
  decide (srv.leaderConnection = some ⟨l, net.boots l⟩) &&
  ((net.liveServers N).all (fun x => decide (x = l) ||
      decide (ringDist N s srv.actualNeighborId ≤ ringDist N s x)) ||
    (!net.live srv.actualNeighborId || decide (srv.actualNeighborId = l)) &&
    (net.liveServers N).all fun x => decide (x = l) || decide (x = s) ||
      decide (ringDist N s x < ringDist N s srv.actualNeighborId)) &&
  srv.disconnectedServers.all (fun x => !net.live x || decide (x = l)) &&
  srv.messageReceivedAck.keys.all fun k => decide (k < srv.sequenceNumber)

/-- A state in which nobody is passed over, with nothing queued or under way. -/
def plainShape (N l : ℕ) (net : Net) : Bool :=
  net.flight.isEmpty && net.pongs.isEmpty && (net.liveServers N).all fun s =>
    decide (s = l) || (net.mailbox s).isEmpty && (net.srv s).all (passesNobody N l net s)

theorem inShape_of_plainShape (hv : Valid N net) (h : plainShape N l net = true) :
    InShape N l net := by
  simp only [plainShape, Bool.and_eq_true, List.isEmpty_iff, List.all_eq_true, Bool.or_eq_true,
    decide_eq_true_eq, mem_liveServers hv] at h
  obtain ⟨⟨hflight, hpongs⟩, hservers⟩ := h
  have hserver : ∀ s srv, s ≠ l → net.srv s = some srv →
      net.mailbox s = [] ∧ passesNobody N l net s srv = true := by
    intro s srv hsl hs
    obtain ⟨hbox, hshape⟩ := (hservers s (live_iff.2 ⟨srv, hs⟩)).resolve_left hsl
    rw [hs] at hshape
    exact ⟨hbox, hshape⟩
  simp only [passesNobody, Bool.and_eq_true, List.all_eq_true, Bool.or_eq_true,
    decide_eq_true_eq, mem_liveServers hv, Bool.not_eq_true'] at hserver
  constructor
  case follows =>
    intro s srv hsl hs
    obtain ⟨-, ⟨⟨⟨hfollow, hconn⟩, -⟩, -⟩, -⟩ := hserver s srv hsl hs
    exact ⟨hfollow.1, hfollow.2, hconn⟩
  case aims =>
    intro s srv hsl hs
    obtain ⟨-, ⟨⟨-, haims⟩, -⟩, -⟩ := hserver s srv hsl hs
    rcases haims with hnear | ⟨hgone, hbeyond⟩
    · exact .inl fun x hx hxl => (hnear x hx).resolve_left hxl
    · refine .inr ⟨fun hlive => ?_, fun x hx hxl hxs => ?_⟩
      · exact hgone.resolve_left fun hdead => by rw [hdead] at hlive; simp at hlive
      · exact ((hbeyond x hx).resolve_left fun hor => hor.elim hxl hxs)
  case spares =>
    intro s srv hsl hs x hx hlive
    obtain ⟨-, ⟨-, hspares⟩, -⟩ := hserver s srv hsl hs
    exact (hspares x hx).resolve_left fun hdead => by rw [hdead] at hlive; simp at hlive
  case numbers =>
    intro s srv hsl hs
    exact .inl (hserver s srv hsl hs).2.2
  case idle =>
    intro s m hsl hq
    cases hs : net.srv s with
    | none => rw [Queued, mailbox_of_dead hs] at hq; simp at hq
    | some srv => rw [Queued, (hserver s srv hsl hs).1] at hq; simp at hq
  case flight => exact hflight
  case pongs => simp [hpongs]

/-- The run goes on with the crash of `l` and an election, to a state in which nothing is left to do
    and in which `P` holds of it and of what is remembered since the crash. -/
def afterCrash (N l : ℕ) (ls : List Label) (P : Net → List Event → Bool) (net : Net) : Bool :=
  (net.step N (.crash l)).any fun net₁ =>
  (exec (step N) isSteady net₁ ls).any fun net₂ =>
    net₂.flight.isEmpty && (List.range (N + 1)).all (fun k => (net₂.mailbox k).isEmpty) &&
    let new := net₂.log.take (net₂.log.length - net₁.log.length)
    decide (net₂.log = new ++ net₁.log) && P net₂ new

theorem of_afterCrash {P : Net → List Event → Bool} (hv : Valid N net)
    (h : afterCrash N l ls P net = true) : ∃ net₁ net₂ new, net.step N (.crash l) = some net₁ ∧
      Run (step N) (fun net l => net.isSteady l = true) net₁ ls net₂ ∧ Round.Still net₂ ∧
      net₂.log = new ++ net₁.log ∧ P net₂ new = true := by
  obtain ⟨net₁, hcrash, h⟩ := Option.any_eq_true _ _ |>.1 h
  obtain ⟨net₂, hexec, h⟩ := Option.any_eq_true _ _ |>.1 h
  simp only [Bool.and_eq_true, List.isEmpty_iff, List.all_eq_true, List.mem_range,
    decide_eq_true_eq] at h
  obtain ⟨⟨hflight, hboxes⟩, hlog, hP⟩ := h
  have hrun := run_of_exec hexec
  refine ⟨net₁, net₂, _, hcrash, hrun, ⟨fun s => ?_, hflight⟩, hlog, hP⟩
  cases hs : net₂.srv s with
  | none => exact mailbox_of_dead hs
  | some srv =>
      have hv₂ : Valid N net₂ :=
        hrun.invariant (fun _ _ _ hv _ hst => valid_step hv hst) (valid_step hv hcrash)
      have := mem_ring.1 (hv₂.ids s srv hs).1
      exact hboxes s (by omega)

/-- Replica 4 comes back to leader 5, which crashes: replica 3, whose neighbour is 5, meets 4 first
    when it goes round the ring again. -/
def notPassedOver : Comeback where
  start :=
    [.boot 3, .boot 4, .boot 5, .dial 3, .dial 4, .dial 5, .recv 5 .up, .recv 4 .up, .recv 3 .up]
  election :=
    [.crash 1, .post 3 .ping, .recv 3 .down, .recv 3 .up, .recv 3 .up, .recv 3 .up, .deliver 0,
      .deliver 0, .recv 5 .up, .recv 5 .up, .recv 5 .up, .deliver 0, .deliver 0, .recv 5 .up,
      .recv 5 .up, .recv 5 .up, .recv 3 .up, .recv 3 .up, .recv 3 .up, .deliver 0, .deliver 0,
      .recv 5 .up, .deliver 0, .deliver 0, .recv 5 .up, .recv 5 .up, .recv 5 .up, .recv 3 .up,
      .recv 3 .up, .recv 3 .up, .recv 3 .up, .recv 3 .up, .recv 3 ⟨true, some ⟨5, 1⟩⟩]
  join :=
    [.dial 4, .recv 4 .up, .post 5 (.newServerConnection ⟨.server 4 2, "127.0.0.1:5004", 4⟩)]
  accept := .recv 5 .up
  pongs :=
    [.recv 5 .up, .pongArrives 0, .recv 4 .up, .post 5 (.pong (.server 3 1)),
      .post 5 (.pong (.server 4 2)), .recv 5 .up, .pongArrives 0, .recv 5 .up, .pongArrives 0,
      .recv 4 .up, .recv 3 .up]

def electionAfter4 : List Label :=
  [.post 4 .ping, .recv 4 .down, .recv 4 .up, .deliver 0, .deliver 0, .recv 4 .up, .recv 4 .up,
    .recv 4 .up, .recv 3 .up, .deliver 0, .deliver 0, .recv 4 .up, .deliver 0, .deliver 0,
    .recv 4 .up, .recv 4 .up, .recv 4 .up, .recv 3 .up, .recv 3 .up, .recv 3 .up, .deliver 0,
    .deliver 0, .recv 4 .up, .recv 3 .up, .recv 3 .up, .recv 3 ⟨true, some ⟨4, 2⟩⟩, .recv 3 .up,
    .recv 3 .up]

theorem rejoined_takes_part_4 :
    ∃ net net₁ net₂ : Net, Rejoined 5 1 4 5 net ∧ net.step 5 (.crash 5) = some net₁ ∧
      Run (step 5) (fun net l => net.isSteady l = true) net₁ electionAfter4 net₂ ∧
      ∀ s srv, net₂.srv s = some srv → IsGreatest {x | net₂.live x = true} srv.idLeader := by
  obtain ⟨net, hrejoined, hP⟩ := notPassedOver.rejoined (N := 5) (i := 1) (r := 4) (l := 5)
    (P := fun net => plainShape 5 5 net &&
      afterCrash 5 5 electionAfter4 (fun _ new => new.any (Round.takesPart 4)) net)
    (by decide) (by decide) (by decide +kernel)
  rw [Bool.and_eq_true] at hP
  obtain ⟨_, hrun⟩ := hrejoined.run
  have hv := valid_run (by decide) hrun
  obtain ⟨net₁, net₂, new, hcrash, hrun, hstill, hlog, hpart⟩ := of_afterCrash hv hP.2
  refine ⟨net, net₁, net₂, hrejoined, hcrash, hrun, ?_⟩
  exact rejoined_takes_part (by decide) hrejoined (inShape_of_plainShape hv hP.1) hcrash hrun
    hstill hlog ⟨4, List.any_eq_true.1 hpart⟩

/-- Replica 3 crashes and is passed over by 2 in the election of 5, comes back to 5, and starts the
    election when 5 crashes. -/
def passedOver : Comeback where
  start :=
    [.boot 2, .boot 3, .boot 4, .boot 5, .dial 2, .dial 3, .dial 4, .dial 5, .recv 5 .up,
      .recv 4 .up, .recv 3 .up, .recv 2 .up]
  election :=
    [.crash 1, .post 2 .ping, .recv 2 .down, .recv 2 .up, .recv 2 .up, .recv 2 .up, .deliver 0,
      .deliver 0, .recv 4 .up, .deliver 0, .deliver 0, .recv 5 .up, .deliver 0, .deliver 0,
      .recv 5 .up, .recv 5 .up, .recv 5 .up, .recv 4 .up, .recv 4 .up, .recv 4 .up, .recv 2 .up,
      .recv 2 .up, .recv 2 .up, .deliver 0, .deliver 0, .recv 4 .up, .deliver 0, .deliver 0,
      .recv 5 .up, .deliver 0, .deliver 0, .recv 5 .up, .recv 5 .up, .recv 5 .up, .recv 4 .up,
      .recv 4 ⟨true, some ⟨5, 1⟩⟩, .recv 4 .up, .recv 4 .up, .recv 2 .up, .recv 2 .up, .recv 2 .up,
      .recv 2 .up, .recv 2 .up, .recv 2 ⟨true, some ⟨5, 1⟩⟩]
  join :=
    [.dial 3, .recv 3 .up, .post 5 (.newServerConnection ⟨.server 3 2, "127.0.0.1:5003", 3⟩)]
  accept := .recv 5 .up
  pongs :=
    [.recv 5 .up, .pongArrives 0, .recv 3 .up, .post 5 (.pong (.server 2 1)),
      .post 5 (.pong (.server 4 1)), .post 5 (.pong (.server 3 2)), .recv 5 .up, .pongArrives 0,
      .recv 5 .up, .pongArrives 0, .recv 5 .up, .pongArrives 0, .recv 4 .up, .recv 3 .up,
      .recv 2 .up]

def electionAfter3 : List Label :=
  [.post 3 .ping, .recv 3 .down, .recv 3 .up, .deliver 0, .deliver 0, .recv 4 .up, .deliver 0,
    .deliver 0, .recv 4 .up, .recv 4 .up, .recv 4 .up, .recv 3 .up, .recv 3 .up, .recv 3 .up,
    .recv 2 .up, .deliver 0, .deliver 0, .recv 4 .up, .deliver 0, .deliver 0, .recv 4 .up,
    .recv 4 .up, .recv 4 .up, .recv 2 .up, .recv 2 .up, .recv 2 .up, .deliver 0, .deliver 0,
    .recv 4 .up, .recv 2 .up, .recv 2 .up, .recv 2 ⟨true, some ⟨4, 1⟩⟩, .recv 2 .up, .recv 2 .up]

/-- The neighbour of 2 is still 4: the election of 3 goes from 2 to 4, and the announcement of 4
    from 2 back to 4. Replica 3 keeps the leader that has crashed. -/
theorem not_rejoined_takes_part :
    ¬ ∀ (N i r l : ℕ) (net net₁ net₂ : Net) (ls : List Label) (new : List Event), i ∈ ring N →
      Rejoined N i r l net → net.step N (.crash l) = some net₁ →
      Run (step N) (fun net l => net.isSteady l = true) net₁ ls net₂ → Round.Still net₂ →
      net₂.log = new ++ net₁.log → ∀ s srv, net₂.srv s = some srv →
      (∃ e ∈ new, Round.takesPart s e = true) →
      IsGreatest {x | net₂.live x = true} srv.idLeader := by
  intro h
  obtain ⟨net, hrejoined, hP⟩ := passedOver.rejoined (N := 5) (i := 1) (r := 3) (l := 5)
    (P := afterCrash 5 5 electionAfter3 fun (net : Net) new => new.any (Round.takesPart 3) &&
      (net.srv 3).any (fun (srv : Server) => decide (srv.idLeader = 5)) && !net.live 5)
    (by decide) (by decide) (by decide +kernel)
  obtain ⟨_, hrun⟩ := hrejoined.run
  obtain ⟨net₁, net₂, new, hcrash, hrun, hstill, hlog, hlost⟩ :=
    of_afterCrash (valid_run (by decide) hrun) hP
  simp only [Bool.and_eq_true, Bool.not_eq_true'] at hlost
  obtain ⟨⟨hpart, hkeeps⟩, hdead⟩ := hlost
  obtain ⟨srv, hs, hleader⟩ := Option.any_eq_true _ _ |>.1 hkeeps
  have hgreatest := h 5 1 3 5 net net₁ net₂ electionAfter3 new (by decide) hrejoined hcrash hrun
    hstill hlog 3 srv hs (List.any_eq_true.1 hpart)
  have hlive : net₂.live srv.idLeader = true := hgreatest.1
  rw [of_decide_eq_true hleader, hdead] at hlive
  cases hlive

end ConcuRide.Net
