import ConcuRide.Network.Fleet
import ConcuRide.Network.Steps

set_option autoImplicit false

/-! # The updates of drivers survive a failover

A driver that finds its leader gone sends its line again to the new one. What a driver has sent
since the crash is then either handled or still waits somewhere, and the registry of the new leader
is as the last line handled left it: on condition that the driver notices the crash and finds the
new leader, and that this leader knows the driver, handles its lines in the order they were sent and
applies no copy of the old registry after them. -/

namespace ConcuRide

open Lib

namespace Fleet

/-! ## What a failover keeps, and when -/

/-- No line of a driver waits in a mailbox or is under way. -/
def Quiet (N : ℕ) (f : Fleet) : Prop :=
  f.lines = [] ∧ (∀ s ∈ ring N, ∀ m ∈ f.net.mailbox s, m.fromDriver = false) ∧
    ∀ name d mailbox, f.drivers.lookup name = some (d, mailbox) →
      ∀ e ∈ mailbox, e.1.isReconnect = false

/-- Once nothing is under way, the new leader has every driver that has told it something since the
    crash where the driver's own flag says. -/
def UpdatesKept (N : ℕ) (f : Fleet) : Prop :=
  ∀ name d mailbox s srv, f.crashed = true → f.Quiet N →
    f.drivers.lookup name = some (d, mailbox) → f.sent name ≠ [] →
    f.net.srv s = some srv → srv.imLeader = true →
    if d.isAvailable then name ∈ srv.drivers else name ∈ srv.busyDrivers

/-- After the crash, a driver that sends a line on a connection to a server that is gone finds it
    lost, and a driver that sends a line again finds a leader. The new leader handles the lines of a
    driver in the order they were sent and has the driver where they expect it, and after the first
    of them it applies no copies. -/
def keepsUpdates (N : ℕ) (f : Fleet) : Label → Bool
  | .server (.recv s _) =>
    !(f.crashed && f.net.listening s) ||
      (f.nextUpdate s).all (fun u => decide (u.number = f.handled.count u.driver)) &&
        match f.net.mailbox s with
        | .updateNetworkState _ :: _ => f.handled.isEmpty
        | m :: _ => (f.net.srv s).all fun srv => srv.expects m
        | [] => true
  | .driverRecv name o =>
    !f.crashed ||
      match f.drivers.lookup name with
      | some (d, (m, _) :: _) =>
        (!d.tells m || !o.connected || f.net.holds d.serverSender) &&
          (!m.isReconnect || (f.connect N).isSome)
      | _ => true
  | _ => true

/-! ## What holds in every run -/

/-- The line is one its driver has sent. -/
def Written (f : Fleet) (u : Update) : Prop := (f.sent u.driver)[u.number]? = some u.line

/-- The line of the given number of a driver waits: to be sent again, on a connection, or in the
    mailbox of a server. -/
inductive Pending (f : Fleet) (name : String) (k : ℕ) : Prop
  | resend {d : Driver} {mailbox : List (Driver.Msg × ℕ)} {line : Driver.ServerLine}
      (hd : f.drivers.lookup name = some (d, mailbox)) (hm : (.reconnect line, k) ∈ mailbox)
  | line {link : Driver.Link} {line : Driver.ServerLine} (hu : (link, ⟨name, k, line⟩) ∈ f.lines)
  | inbox {s : ℕ} {line : Driver.ServerLine} (hu : ⟨name, k, line⟩ ∈ f.inbox s)

end Fleet

/-- The connection was opened to a leader, which may have crashed since. -/
structure Net.Reached (net : Net) (link : Driver.Link) : Prop where
  session : link.server.session ≤ net.boots link.server.server
  listening : net.holds link = true → net.listening link.server.server = true

namespace Fleet

/-- What holds of every driver. -/
structure DriverOk (f : Fleet) (name : String) (d : Driver) (mailbox : List (Driver.Msg × ℕ)) :
    Prop where
  called : d.name = name
  startUp : Driver.StartUp name d (mailbox.map Prod.fst)
  link : f.net.Reached d.serverSender
  /-- before the crash the connection holds, and nothing is sent again -/
  before : f.crashed = false →
    f.net.holds d.serverSender = true ∧ ∀ e ∈ mailbox, e.1.isReconnect = false
  repeats : ∀ line k, (.reconnect line, k) ∈ mailbox → (f.sent name)[k]? = some line
  /-- the last line says whether the driver is free -/
  status : ∀ line, (f.sent name).getLast? = some line → d.isAvailable = !line.isBusy

/-- What keeps the updates of drivers. -/
structure Kept (N : ℕ) (f : Fleet) : Prop where
  valid : Net.Valid N f.net
  unique : ∀ a b, f.net.listening a = true → f.net.listening b = true → a = b
  inbox : ∀ s, (f.net.mailbox s).filter Msg.fromDriver = (f.inbox s).map fun u => u.line.toMsg
  listens : ∀ s u, u ∈ f.inbox s → f.net.listening s = true
  lines : ∀ x ∈ f.lines, f.net.holds x.1 = true ∧ f.net.listening x.1.server.server = true
  linesWritten : ∀ x ∈ f.lines, f.Written x.2
  inboxWritten : ∀ s, ∀ u ∈ f.inbox s, f.Written u
  about : ∀ name, ∀ line ∈ f.sent name, line.About name
  unsent : ∀ name, name ∉ f.drivers → f.sent name = []
  drivers : ∀ name d mailbox, f.drivers.lookup name = some (d, mailbox) →
    f.DriverOk name d mailbox
  /-- **no line is lost** -/
  noLoss : f.crashed = true → ∀ name k, f.handled.count name ≤ k → k < (f.sent name).length →
    f.Pending name k
  /-- **the last line handled counts** -/
  registry : f.crashed = true → ∀ name, f.handled.count name ≠ 0 → ∃ s srv line,
    f.net.srv s = some srv ∧ srv.imLeader = true ∧
      (f.sent name)[f.handled.count name - 1]? = some line ∧ srv.Lists name line

theorem Kept.aboutInbox {N : ℕ} {f : Fleet} (h : f.Kept N) {s : ℕ} {u : Update}
    (hu : u ∈ f.inbox s) : u.line.About u.driver :=
  h.about _ _ (List.mem_of_getElem? (h.inboxWritten s u hu))

end Fleet

/-! ## Leaders and connections over a step -/

namespace Net

variable {N : ℕ} {net net' : Net} {l : ConcuRide.Label} {k : ℕ} {link : Driver.Link}

theorem holds_iff : net.holds link = true ↔
    net.live link.server.server = true ∧ net.boots link.server.server = link.server.session := by
  simp [holds, isUp]

theorem listening_enqueue {s : ℕ} {m : Msg} :
    (net.enqueue s m).listening k = net.listening k := by
  rw [Bool.eq_iff_iff, listening_iff, listening_iff, srv_enqueue]

theorem holds_enqueue {s : ℕ} {m : Msg} : (net.enqueue s m).holds link = net.holds link := by
  rw [Bool.eq_iff_iff, holds_iff, holds_iff, live_iff, live_iff, srv_enqueue, boots_enqueue]

theorem live_of_listening (h : net.listening k = true) : net.live k = true := by
  obtain ⟨s, hs, -⟩ := listening_iff.1 h
  exact live_iff.2 ⟨s, hs⟩

/-- A leader that still runs is still leader. -/
theorem Step.still_listening (h : Step N net l net') (hk : net.listening k = true)
    (hlive : net'.live k = true) : net'.listening k = true := by
  obtain ⟨s, hs, him⟩ := listening_iff.1 hk
  obtain ⟨t, ht⟩ := live_iff.1 hlive
  refine listening_iff.2 ⟨t, ht, ?_⟩
  rcases h.srv_cases ht with hold | ⟨o, before, m, effects, -, hr⟩ | ⟨-, hnone, -⟩
  · obtain rfl := Option.some.inj (hold.symm.trans hs)
    exact him
  · obtain rfl := Option.some.inj (hr.srvBefore.symm.trans hs)
    exact hr.handled.imLeader him
  · rw [hs] at hnone
    simp at hnone

/-- Unless a leader is gone, all leaders are still there. -/
theorem listening_of_not_gone (hv : Valid N net) (hgone : net.leaderGone N net' = false)
    (hk : net.listening k = true) : net'.listening k = true := by
  obtain ⟨s, hs, -⟩ := listening_iff.1 hk
  have hring := (mem_ring.1 (hv.ids k s hs).1).2
  simp only [leaderGone, List.any_eq_false, List.mem_range] at hgone
  simpa [hk] using hgone k (by omega)

/-- A server is a new leader only if it has just handled a message. -/
theorem Step.listening_cases (h : Step N net l net') (hk : net'.listening k = true) :
    net.listening k = true ∨ ∃ o, l = .recv k o := by
  obtain ⟨t, ht, him⟩ := listening_iff.1 hk
  rcases h.srv_cases ht with hold | ⟨o, before, m, effects, hl, -⟩ | ⟨-, -, -, rfl⟩
  · exact .inl (listening_iff.2 ⟨t, hold, him⟩)
  · exact .inr ⟨o, hl⟩
  · simp [Server.replica] at him

/-- There is one leader after a step, when one is elected only while there is none. -/
theorem Step.unique_leader (h : Step N net l net') (hv' : Valid N net')
    (hunique : ∀ a b, net.listening a = true → net.listening b = true → a = b)
    (helected : net.leaderElected N net' = false ∨ ∀ a, net.listening a = false) (a b : ℕ)
    (ha : net'.listening a = true) (hb : net'.listening b = true) : a = b := by
  rcases helected with hno | hnone
  · have hold : ∀ x, net'.listening x = true → net.listening x = true := by
      intro x hx
      obtain ⟨t, ht, -⟩ := listening_iff.1 hx
      have hring := (mem_ring.1 (hv'.ids x t ht).1).2
      simp only [leaderElected, List.any_eq_false, List.mem_range] at hno
      simpa [hx] using hno x (by omega)
    exact hunique a b (hold a ha) (hold b hb)
  · have hrecv : ∀ x, net'.listening x = true → ∃ o, l = .recv x o := fun x hx =>
      (h.listening_cases hx).resolve_left (by simp [hnone x])
    obtain ⟨o, hl⟩ := hrecv a ha
    obtain ⟨o', hl'⟩ := hrecv b hb
    rw [hl] at hl'
    cases hl'
    rfl

theorem Step.reached (h : Step N net l net') (hr : net.Reached link) : net'.Reached link := by
  constructor
  · rcases h.boots_cases link.server.server with heq | ⟨-, heq, -⟩
    · rw [heq]; exact hr.session
    · rw [heq]; exact Nat.le_succ_of_le hr.session
  · intro hup
    obtain ⟨hlive, hboots⟩ := holds_iff.1 hup
    have hold : net.live link.server.server = true := by
      rcases h.boots_cases link.server.server with heq | ⟨-, heq, -⟩
      · obtain ⟨t, ht⟩ := live_iff.1 hlive
        rcases h.srv_cases ht with hold | ⟨o, before, m, effects, -, hr'⟩ | ⟨rfl, -, -, -⟩
        · exact live_iff.2 ⟨t, hold⟩
        · exact live_iff.2 ⟨before, hr'.srvBefore⟩
        · cases h with
          | boot hs => exact absurd heq (by simp [Net.boot])
      · have := hr.session
        omega
    refine h.still_listening (hr.listening (holds_iff.2 ⟨hold, ?_⟩)) hlive
    rw [← h.boots_eq hold, hboots]

/-- The connections to a leader that is not gone hold. -/
theorem Step.holds (h : Step N net l net') (hlive : net'.listening link.server.server = true)
    (hup : net.holds link = true) : net'.holds link = true := by
  obtain ⟨hk, hboots⟩ := holds_iff.1 hup
  exact holds_iff.2 ⟨live_of_listening hlive, (h.boots_eq hk).trans hboots⟩

/-- A server that is asked to handle a message and survives does so. -/
theorem Step.recv_handles {s : ℕ} {o : Oracle} (h : Step N net (.recv s o) net')
    (hlive : net'.live s = true) :
    ∃ before m after effects, Handles N net net' s o before m after effects := by
  cases h with
  | recv hp hbox hans hh => exact ⟨_, _, _, _, handles hp hbox hans hh⟩
  | panic =>
      obtain ⟨t, ht⟩ := live_iff.1 hlive
      simp [srv_crash] at ht

end Net

namespace Fleet

variable {N : ℕ} {f f' : Fleet} {net' : Net} {s : ℕ}

/-! ## A step of the servers -/

section Server

variable {l : ConcuRide.Label} {m : Msg} {rest : List Msg} {u : Update}

theorem serverStep_cases (h : f.serverStep N l = some f') :
    (∀ s m, l = .post s m → m.fromDriver = false) ∧
      ∃ net', f.net.step N l = some net' ∧ f' = f.served N l net' := by
  unfold serverStep at h
  split at h
  · next s m =>
      split at h
      · simp at h
      · next hm =>
          obtain ⟨net', hnet, rfl⟩ := Option.map_eq_some_iff.1 h
          refine ⟨fun s' m' heq => ?_, net', hnet, rfl⟩
          cases heq
          simpa using hm
  · next hpost =>
      obtain ⟨net', hnet, rfl⟩ := Option.map_eq_some_iff.1 h
      exact ⟨fun s m heq => absurd heq (hpost s m), net', hnet, rfl⟩

/-- The next line of a server is the message it handles next. -/
theorem nextUpdate_some (hbox : f.net.mailbox s = m :: rest)
    (heq : (f.net.mailbox s).filter Msg.fromDriver = (f.inbox s).map fun u => u.line.toMsg)
    (hu : f.nextUpdate s = some u) : m = u.line.toMsg ∧ f.inbox s = u :: f.popped s := by
  simp only [nextUpdate, hbox] at hu
  split at hu
  · next hm =>
      obtain ⟨tail, htail⟩ : ∃ tail, f.inbox s = u :: tail := by
        cases hin : f.inbox s with
        | nil => simp [hin] at hu
        | cons v tail =>
            rw [hin] at hu
            exact ⟨tail, by rw [Option.some.inj hu]⟩
      rw [hbox, List.filter_cons_of_pos hm, htail, List.map_cons] at heq
      refine ⟨(List.cons.inj heq).1, ?_⟩
      simp [popped, hbox, hm, htail]
  · simp at hu

theorem nextUpdate_none (hbox : f.net.mailbox s = m :: rest)
    (heq : (f.net.mailbox s).filter Msg.fromDriver = (f.inbox s).map fun u => u.line.toMsg)
    (hu : f.nextUpdate s = none) : m.fromDriver = false ∧ f.popped s = f.inbox s := by
  simp only [nextUpdate, hbox] at hu
  split at hu
  · next hm =>
      rw [List.head?_eq_none_iff.1 hu, hbox, List.filter_cons_of_pos hm] at heq
      simp at heq
  · next hm => simp [popped, hbox, hm]

theorem served_inbox_subset (hu : u ∈ (f.served N l net').inbox s) :
    net'.live s = true ∧ u ∈ f.inbox s := by
  have hpopped : ∀ {u}, u ∈ f.popped s → u ∈ f.inbox s := by
    intro u hu
    unfold popped at hu
    split at hu
    · split at hu
      · exact List.mem_of_mem_tail hu
      · exact hu
    · exact hu
  simp only [served] at hu
  split at hu
  · next hlive =>
      refine ⟨hlive, ?_⟩
      split at hu
      · split at hu
        · exact hpopped hu
        · exact hu
      · exact hu
  · simp at hu

theorem served_inbox_of_not_recv (hlive : net'.live s = true) (h : ¬ ∃ o, l = .recv s o) :
    (f.served N l net').inbox s = f.inbox s := by
  simp only [served, hlive, if_true]
  split
  · next k o =>
      have hne : s ≠ k := by
        rintro rfl
        exact h ⟨o, rfl⟩
      rw [if_neg hne]
  · rfl

/-- The lines kept for a mailbox are those that are in it. -/
theorem served_mailbox (hk : f.Kept N) (h : Net.Step N f.net l net')
    (hpost : ∀ s m, l = .post s m → m.fromDriver = false) (s : ℕ) :
    (net'.mailbox s).filter Msg.fromDriver
      = ((f.served N l net').inbox s).map fun u => u.line.toMsg := by
  by_cases hlive : net'.live s = true
  · by_cases hrecv : ∃ o, l = .recv s o
    · obtain ⟨o, rfl⟩ := hrecv
      obtain ⟨before, m, after, effects, hr⟩ := h.recv_handles hlive
      obtain ⟨rest, hbox, hbox'⟩ := hr.mailbox
      have hself : (selfMessages effects).filter Msg.fromDriver = [] :=
        List.filter_eq_nil_iff.2 fun x hx => by simp [Server.fromDriver_of_self hr.result hx]
      have hinbox : (f.served N (.recv s o) net').inbox s = f.popped s := by
        simp [served, hlive]
      have heq := hk.inbox s
      rw [hbox', List.filter_append, hself, List.append_nil, hinbox]
      cases hu : f.nextUpdate s with
      | some u =>
          obtain ⟨hm, hin⟩ := nextUpdate_some hbox heq hu
          have hfrom : m.fromDriver = true := hm ▸ Msg.fromDriver_toMsg _
          rw [hbox, List.filter_cons_of_pos hfrom, hin, List.map_cons] at heq
          exact (List.cons.inj heq).2
      | none =>
          obtain ⟨hm, hin⟩ := nextUpdate_none hbox heq hu
          rw [hbox, List.filter_cons_of_neg (by simp [hm])] at heq
          rw [hin, heq]
    · rw [served_inbox_of_not_recv hlive hrecv, ← hk.inbox s]
      rcases h.mailbox_cases s with heq | ⟨heq, hdead | ⟨-, hnone⟩⟩ | ⟨x, hx, heq⟩ |
        ⟨o, before, m, after, effects, hl, -⟩
      · rw [heq]
      · obtain ⟨t, ht⟩ := Net.live_iff.1 hlive
        rw [hdead] at ht
        simp at ht
      · rw [heq, Net.mailbox_of_dead hnone]
      · have hfrom : x.fromDriver = false := by
          cases hx with
          | posted hs hm => exact hpost _ _ rfl
          | msg hx hd hb hudp hlog =>
              rename_i i d e
              subst hx
              cases e <;> rfl
          | _ => rfl
        rw [heq, List.filter_append, List.filter_cons_of_neg (by simp [hfrom]), List.filter_nil,
          List.append_nil]
      · exact absurd ⟨o, hl⟩ hrecv
  · have hdead : net'.srv s = none := by
      cases hs : net'.srv s with
      | none => rfl
      | some t => exact absurd (Net.live_iff.2 ⟨t, hs⟩) hlive
    rw [Net.mailbox_of_dead hdead]
    simp [served, hlive]

/-- The crash of the leader: whatever was under way is lost, and nothing has been sent since. -/
theorem kept_gone (hk : f.Kept N) (h : Net.Step N f.net l net') (hv' : Net.Valid N net')
    (hpost : ∀ s m, l = .post s m → m.fromDriver = false)
    (hunique : ∀ a b, net'.listening a = true → net'.listening b = true → a = b)
    (hcrash : f.crashed = false) (hgone : f.net.leaderGone N net' = true) :
    (f.served N l net').Kept N := by
  -- the leader that is gone was the only one, and its process is dead
  obtain ⟨i, -, hi⟩ := List.any_eq_true.1 hgone
  simp only [Bool.and_eq_true, Bool.not_eq_true'] at hi
  have hdead : ∀ {k}, f.net.listening k = true → net'.live k = true → False := by
    intro k hlisten hlive
    have := h.still_listening hlisten hlive
    rw [hk.unique k i hlisten hi.1, hi.2] at this
    simp at this
  have hinbox : ∀ s u, u ∉ (f.served N l net').inbox s := by
    intro s u hu
    obtain ⟨hlive, hu⟩ := served_inbox_subset hu
    exact hdead (hk.listens s u hu) hlive
  have hlines : ∀ x, x ∉ (f.served N l net').lines := by
    intro x hx
    obtain ⟨hx, hup⟩ := List.mem_filter.1 hx
    exact hdead (hk.lines x hx).2 (Net.holds_iff.1 hup).1
  have hsent : (f.served N l net').sent = fun _ => [] := by simp [served, hgone]
  have hhandled : (f.served N l net').handled = [] := by simp [served, hgone]
  constructor
  · exact hv'
  · exact hunique
  · exact served_mailbox hk h hpost
  · exact fun s u hu => absurd hu (hinbox s u)
  · exact fun x hx => absurd hx (hlines x)
  · exact fun x hx => absurd hx (hlines x)
  · exact fun s u hu => absurd hu (hinbox s u)
  · intro name line hline
    rw [hsent] at hline
    simp at hline
  · intro name _
    rw [hsent]
  · intro name d mailbox hd
    have hok := hk.drivers name d mailbox hd
    refine ⟨hok.called, hok.startUp, h.reached hok.link, fun hno => ?_, fun line k hm => ?_,
      fun line hlast => ?_⟩
    · simp [served, hgone] at hno
    · have := (hok.before hcrash).2 _ hm
      simp [Driver.Msg.isReconnect] at this
    · rw [hsent] at hlast
      simp at hlast
  · intro _ name k _ hlt
    rw [hsent] at hlt
    simp at hlt
  · intro _ name hne
    rw [hhandled] at hne
    simp at hne

/-- What leaders have handled after a step. -/
theorem served_handled (hgone : f.net.leaderGone N net' = false) :
    ((f.served N l net').handled = f.handled ∧ ∀ s o, l = .recv s o → f.nextUpdate s = none) ∨
      ∃ s o u, l = .recv s o ∧ f.nextUpdate s = some u ∧
        (f.served N l net').handled = u.driver :: f.handled := by
  simp only [served, hgone, Bool.false_eq_true, if_false]
  split
  · next s o =>
      cases hu : f.nextUpdate s with
      | none =>
          refine .inl ⟨rfl, fun s' o' heq => ?_⟩
          cases heq
          exact hu
      | some u => exact .inr ⟨s, o, u, rfl, hu, rfl⟩
  · next hrecv => exact .inl ⟨rfl, fun s o heq => absurd heq (hrecv s o)⟩

/-- What `keepsUpdates` says of the new leader when it handles a message. -/
theorem keepsUpdates_recv {o : Oracle} (hkeeps : f.keepsUpdates N (.server (.recv s o)) = true)
    (hcrash : f.crashed = true) (hlisten : f.net.listening s = true) :
    (∀ u, f.nextUpdate s = some u → u.number = f.handled.count u.driver) ∧
      (∀ state rest, f.net.mailbox s = .updateNetworkState state :: rest → f.handled = []) ∧
      ∀ m rest srv, f.net.mailbox s = m :: rest → f.net.srv s = some srv →
        srv.expects m = true := by
  simp only [keepsUpdates, hcrash, hlisten, Bool.and_self, Bool.not_true, Bool.false_or,
    Bool.and_eq_true] at hkeeps
  refine ⟨fun u hu => by simpa [hu] using hkeeps.1, fun state rest hbox => ?_,
    fun m rest srv hbox hsrv => ?_⟩
  · simpa [hbox] using hkeeps.2
  · have hhead := hkeeps.2
    rw [hbox] at hhead
    cases m with
    | updateNetworkState => rfl
    | _ => simpa [hsrv] using hhead

/-- A line that waits still waits after a step of the servers, unless the new leader handles it. -/
theorem pending_served (hk : f.Kept N) (h : Net.Step N f.net l net')
    (hgone : f.net.leaderGone N net' = false) (hcrash : f.crashed = true)
    (hkeeps : f.keepsUpdates N (.server l) = true) {name : String} {k : ℕ}
    (hle : (f.served N l net').handled.count name ≤ k) (hp : f.Pending name k) :
    (f.served N l net').Pending name k := by
  have still : ∀ {k}, f.net.listening k = true → net'.listening k = true :=
    Net.listening_of_not_gone hk.valid hgone
  cases hp with
  | resend hd hm => exact .resend hd hm
  | line hu =>
      refine .line (List.mem_filter.2 ⟨hu, ?_⟩)
      obtain ⟨hup, hlisten⟩ := hk.lines _ hu
      exact h.holds (still hlisten) hup
  | inbox hu =>
      rename_i s line
      have hlisten := hk.listens s _ hu
      have hlive : net'.live s = true := Net.live_of_listening (still hlisten)
      by_cases hrecv : ∃ o, l = .recv s o
      · obtain ⟨o, rfl⟩ := hrecv
        obtain ⟨before, m, after, effects, hr⟩ := h.recv_handles hlive
        obtain ⟨rest, hbox, -⟩ := hr.mailbox
        have hinbox : (f.served N (.recv s o) net').inbox s = f.popped s := by
          simp [served, hlive]
        cases hnext : f.nextUpdate s with
        | none =>
            have hin := (nextUpdate_none hbox (hk.inbox s) hnext).2
            exact .inbox (hinbox.trans hin ▸ hu)
        | some v =>
            have hin := (nextUpdate_some hbox (hk.inbox s) hnext).2
            rw [hin] at hu
            rcases List.mem_cons.1 hu with rfl | hu
            · -- the line that is handled
              have hnum := (keepsUpdates_recv hkeeps hcrash hlisten).1 _ hnext
              simp only [served, hgone, hnext, Option.map_some, Option.toList_some,
                Bool.false_eq_true, if_false, List.singleton_append, List.count_cons_self] at hle
              simp only at hnum
              omega
            · exact .inbox (hinbox ▸ hu)
      · exact .inbox (served_inbox_of_not_recv hlive hrecv ▸ hu)

/-- The registry of the new leader follows the lines it handles. -/
theorem registry_served (hk : f.Kept N) (h : Net.Step N f.net l net')
    (hgone : f.net.leaderGone N net' = false) (hcrash : f.crashed = true)
    (hkeeps : f.keepsUpdates N (.server l) = true) {name : String}
    (hne : (f.served N l net').handled.count name ≠ 0) : ∃ s srv line,
      net'.srv s = some srv ∧ srv.imLeader = true ∧
        (f.sent name)[(f.served N l net').handled.count name - 1]? = some line ∧
        srv.Lists name line := by
  -- a message that is not about the driver leaves its entry alone
  have old : f.handled.count name ≠ 0 →
      (∀ s o u, l = .recv s o → f.nextUpdate s = some u → u.driver ≠ name) →
      ∃ s srv line, net'.srv s = some srv ∧ srv.imLeader = true ∧
        (f.sent name)[f.handled.count name - 1]? = some line ∧ srv.Lists name line := by
    intro hcount hother
    obtain ⟨s, srv, line, hs, him, hline, hlists⟩ := hk.registry hcrash name hcount
    have hlisten := Net.listening_iff.2 ⟨srv, hs, him⟩
    obtain ⟨t, ht, him'⟩ :=
      Net.listening_iff.1 (Net.listening_of_not_gone hk.valid hgone hlisten)
    refine ⟨s, t, line, ht, him', hline, ?_⟩
    rcases h.srv_cases ht with hold | ⟨o, before, m, effects, rfl, hr⟩ | ⟨-, hnone, -⟩
    · obtain rfl := Option.some.inj (hold.symm.trans hs)
      exact hlists
    · obtain rfl := Option.some.inj (hr.srvBefore.symm.trans hs)
      obtain ⟨rest, hbox, -⟩ := hr.mailbox
      refine (Server.handle_lists ?_ ?_ hr.result line).2 hlists
      · cases hu : f.nextUpdate s with
        | none => simp [Msg.moves_eq_none (nextUpdate_none hbox (hk.inbox s) hu).1]
        | some u =>
            obtain ⟨rfl, hin⟩ := nextUpdate_some hbox (hk.inbox s) hu
            rw [Msg.moves_toMsg (hk.aboutInbox (hin ▸ List.mem_cons_self))]
            simpa using hother s o u rfl hu
      · rintro state rfl
        rw [(keepsUpdates_recv hkeeps hcrash hlisten).2.1 state rest hbox] at hcount
        simp at hcount
    · rw [hs] at hnone
      simp at hnone
  rcases served_handled (l := l) hgone with ⟨heq, hnone⟩ | ⟨s, o, u, rfl, hu, heq⟩
  · rw [heq] at hne ⊢
    exact old hne fun s o u hl hu => by simp [hnone s o hl] at hu
  rw [heq] at hne ⊢
  by_cases hname : u.driver = name
  · subst hname
    have hin : u ∈ f.inbox s := by
      unfold nextUpdate at hu
      split at hu
      · split at hu
        · exact List.mem_of_mem_head? hu
        · simp at hu
      · simp at hu
    have hlisten := hk.listens s u hin
    obtain ⟨before, m, after, effects, hr⟩ :=
      h.recv_handles (Net.live_of_listening (Net.listening_of_not_gone hk.valid hgone hlisten))
    obtain ⟨rest, hbox, -⟩ := hr.mailbox
    obtain ⟨hnum, -, hexpects⟩ := keepsUpdates_recv hkeeps hcrash hlisten
    obtain ⟨rfl, -⟩ := nextUpdate_some hbox (hk.inbox s) hu
    obtain ⟨srv, hs, him⟩ := Net.listening_iff.1 hlisten
    obtain rfl := Option.some.inj (hr.srvBefore.symm.trans hs)
    refine ⟨s, after, u.line, hr.srvAfter, hr.handled.imLeader him, ?_, ?_⟩
    · rw [List.count_cons_self, Nat.add_sub_cancel, ← hnum u hu]
      exact hk.inboxWritten s u hin
    · exact Server.handle_line (hk.aboutInbox hin) (hexpects _ _ _ hbox hs) hr.result
  · rw [List.count_cons_of_ne hname] at hne ⊢
    refine old hne fun s' o' u' hl hu' => ?_
    cases hl
    rwa [Option.some.inj (hu'.symm.trans hu)]

theorem kept_served (hk : f.Kept N) (h : Net.Step N f.net l net') (hv' : Net.Valid N net')
    (hpost : ∀ s m, l = .post s m → m.fromDriver = false)
    (hunique : ∀ a b, net'.listening a = true → net'.listening b = true → a = b)
    (hgone : f.net.leaderGone N net' = false)
    (hkeeps : f.keepsUpdates N (.server l) = true) : (f.served N l net').Kept N := by
  have still : ∀ {k}, f.net.listening k = true → net'.listening k = true :=
    Net.listening_of_not_gone hk.valid hgone
  have hsent : (f.served N l net').sent = f.sent := by simp [served, hgone]
  have hcrashed : (f.served N l net').crashed = f.crashed := by simp [served, hgone]
  have hwritten : ∀ {u}, f.Written u → (f.served N l net').Written u := by
    intro u hu
    rw [Written, hsent]
    exact hu
  constructor
  · exact hv'
  · exact hunique
  · exact served_mailbox hk h hpost
  · exact fun s u hu => still (hk.listens s u (served_inbox_subset hu).2)
  · intro x hx
    obtain ⟨hx, hup⟩ := List.mem_filter.1 hx
    exact ⟨hup, still (hk.lines x hx).2⟩
  · exact fun x hx => hwritten (hk.linesWritten x (List.mem_filter.1 hx).1)
  · exact fun s u hu => hwritten (hk.inboxWritten s u (served_inbox_subset hu).2)
  · rw [hsent]
    exact hk.about
  · rw [hsent]
    exact hk.unsent
  · intro name d mailbox hd
    have hok := hk.drivers name d mailbox hd
    refine ⟨hok.called, hok.startUp, h.reached hok.link, fun hno => ?_, ?_, ?_⟩
    · obtain ⟨hup, hbox⟩ := hok.before (hcrashed ▸ hno)
      exact ⟨h.holds (still (hok.link.listening hup)) hup, hbox⟩
    · rw [hsent]
      exact hok.repeats
    · rw [hsent]
      exact hok.status
  · intro hcrash name k hle hlt
    rw [hcrashed] at hcrash
    rw [hsent] at hlt
    refine pending_served hk h hgone hcrash hkeeps hle (hk.noLoss hcrash name k ?_ hlt)
    refine Nat.le_trans ?_ hle
    rcases served_handled (l := l) hgone with ⟨heq, -⟩ | ⟨s, o, u, -, -, heq⟩
    · rw [heq]
    · rw [heq]
      exact List.count_le_count_cons
  · intro hcrash name hne
    rw [hcrashed] at hcrash
    rw [hsent]
    exact registry_served hk h hgone hcrash hkeeps hne

end Server

/-! ## A step of a driver -/

section Drivers

variable {name : String} {d t : Driver} {m : Driver.Msg} {k : ℕ} {rest : List (Driver.Msg × ℕ)}
  {o : Driver.Oracle} {effects : List Driver.Effect}

theorem driverRecv_cases (h : f.driverRecv N name o = some f') : ∃ d m k rest t effects,
    f.drivers.lookup name = some (d, (m, k) :: rest) ∧ f.answers N d m o = true ∧
      d.handle o m = some (t, effects) ∧ f' = f.driverHandled name m k rest t effects := by
  unfold driverRecv at h
  split at h
  · simp at h
  · next d mailbox hd =>
      split at h
      · simp at h
      · next m k rest =>
          split at h
          · next hans =>
              obtain ⟨⟨t, effects⟩, hh, rfl⟩ := Option.map_eq_some_iff.1 h
              exact ⟨d, m, k, rest, t, effects, hd, hans, hh, rfl⟩
          · simp at h

/-- The connection `connect_to_server_leader` opens holds, and leads to a leader. -/
theorem connect_some {link : Driver.Link} (h : f.connect N = some link) :
    f.net.holds link = true ∧ f.net.Reached link := by
  obtain ⟨i, hi, rfl⟩ := Option.map_eq_some_iff.1 h
  obtain ⟨hlisten, -⟩ := connectToServerLeader_listening _ _ _ hi
  exact ⟨Net.holds_iff.2 ⟨Net.live_of_listening hlisten, rfl⟩, le_refl _, fun _ => hlisten⟩

/-- A step of the drivers that touches nothing but driver `name`: what is left to show of it. -/
theorem kept_drivers (hk : f.Kept N) (hnet : f'.net = f.net) (hinbox : f'.inbox = f.inbox)
    (hhandled : f'.handled = f.handled) (hcrashed : f'.crashed = f.crashed)
    {entry : Driver × List (Driver.Msg × ℕ)}
    (hdrivers : f'.drivers = f.drivers.insert name entry)
    {new : List Driver.ServerLine} (hsent : f'.sent name = f.sent name ++ new)
    (hothers : ∀ name', name' ≠ name → f'.sent name' = f.sent name')
    (habout : ∀ line ∈ new, line.About name)
    {lines : List (Driver.Link × Update)} (hlines : f'.lines = f.lines ++ lines)
    (hheld : ∀ x ∈ lines, f.net.holds x.1 = true ∧ f.net.Reached x.1 ∧ f'.Written x.2)
    (hok : f'.DriverOk name entry.1 entry.2)
    (hpending : f.crashed = true → ∀ k, f.handled.count name ≤ k → k < (f'.sent name).length →
      f'.Pending name k) : f'.Kept N := by
  have hgrows : ∀ name', ∃ more, f'.sent name' = f.sent name' ++ more := by
    intro name'
    by_cases hname : name' = name
    · exact ⟨new, hname ▸ hsent⟩
    · exact ⟨[], by rw [hothers name' hname, List.append_nil]⟩
  have hfind : ∀ {name' : String} {k : ℕ} {line : Driver.ServerLine},
      (f.sent name')[k]? = some line → (f'.sent name')[k]? = some line := by
    intro name' k line h
    obtain ⟨more, heq⟩ := hgrows name'
    obtain ⟨hlt, -⟩ := List.getElem?_eq_some_iff.1 h
    rw [heq, List.getElem?_append_left hlt, h]
  have hlookup : ∀ {name' : String}, name' ≠ name →
      f'.drivers.lookup name' = f.drivers.lookup name' := fun hname => by
    rw [hdrivers, AList.lookup_insert_ne hname]
  constructor
  · exact hnet ▸ hk.valid
  · exact hnet ▸ hk.unique
  · rw [hnet, hinbox]
    exact hk.inbox
  · rw [hnet, hinbox]
    exact hk.listens
  · rw [hnet, hlines]
    intro x hx
    rcases List.mem_append.1 hx with hx | hx
    · exact hk.lines x hx
    · obtain ⟨hup, hreached, -⟩ := hheld x hx
      exact ⟨hup, hreached.listening hup⟩
  · rw [hlines]
    intro x hx
    rcases List.mem_append.1 hx with hx | hx
    · exact hfind (hk.linesWritten x hx)
    · exact (hheld x hx).2.2
  · rw [hinbox]
    exact fun s u hu => hfind (hk.inboxWritten s u hu)
  · intro name' line hline
    by_cases hname : name' = name
    · subst hname
      rw [hsent] at hline
      exact (List.mem_append.1 hline).elim (hk.about _ line) (habout line)
    · rw [hothers name' hname] at hline
      exact hk.about name' line hline
  · intro name' hnot
    rw [hdrivers, AList.mem_insert, not_or] at hnot
    rw [hothers name' hnot.1]
    exact hk.unsent name' hnot.2
  · intro name' d mailbox hd
    by_cases hname : name' = name
    · subst hname
      rw [hdrivers, AList.lookup_insert] at hd
      obtain rfl := Option.some.inj hd
      exact hok
    · rw [hlookup hname] at hd
      have hold := hk.drivers name' d mailbox hd
      refine ⟨hold.called, hold.startUp, hnet ▸ hold.link, fun hno => ?_, ?_, ?_⟩
      · rw [hnet]
        exact hold.before (hcrashed ▸ hno)
      · rw [hothers name' hname]
        exact hold.repeats
      · rw [hothers name' hname]
        exact hold.status
  · intro hcrash name' k hle hlt
    rw [hcrashed] at hcrash
    rw [hhandled] at hle
    by_cases hname : name' = name
    · subst hname
      exact hpending hcrash k hle hlt
    · rw [hothers name' hname] at hlt
      cases hk.noLoss hcrash name' k hle hlt with
      | resend hd hm => exact .resend ((hlookup hname).trans hd) hm
      | line hu => exact .line (hlines ▸ List.mem_append_left _ hu)
      | inbox hu => exact .inbox (hinbox ▸ hu)
  · intro hcrash name' hne
    rw [hcrashed] at hcrash
    rw [hhandled] at hne ⊢
    obtain ⟨s, srv, line, hs, him, hline, hlists⟩ := hk.registry hcrash name' hne
    exact ⟨s, srv, line, hnet ▸ hs, him, hfind hline, hlists⟩

/-- A line that waited to be sent again by another driver, or waits elsewhere, still does. -/
theorem Pending.keep {mailbox mailbox' : List (Driver.Msg × ℕ)} {name : String} {k : ℕ}
    (hp : f.Pending name k) (hd : f.drivers.lookup name = some (d, mailbox))
    (hd' : f'.drivers.lookup name = some (t, mailbox'))
    (hbox : ∀ line, (.reconnect line, k) ∈ mailbox → (.reconnect line, k) ∈ mailbox')
    (hlines : ∀ x ∈ f.lines, x ∈ f'.lines) (hinbox : f'.inbox = f.inbox) : f'.Pending name k := by
  cases hp with
  | resend hd₀ hm =>
      obtain ⟨-, rfl⟩ := Prod.mk.inj (Option.some.inj (hd₀.symm.trans hd))
      exact .resend hd' (hbox _ hm)
  | line hu => exact .line (hlines _ hu)
  | inbox hu => exact .inbox (hinbox ▸ hu)

/-- A message that waits behind the one that is handled. -/
theorem mem_of_not_reconnect {line : Driver.ServerLine} {k' : ℕ} (hrec : m.isReconnect = false)
    (h : (.reconnect line, k') ∈ (m, k) :: rest) : (.reconnect line, k') ∈ rest := by
  rcases List.mem_cons.1 h with heq | h
  · obtain ⟨rfl, -⟩ := Prod.mk.inj heq
    simp [Driver.Msg.isReconnect] at hrec
  · exact h

/-- The mailbox after a message was handled, without the numbers. -/
theorem map_fst_mailbox (self : List Driver.Msg) (n : ℕ) :
    (rest ++ self.map fun m => (m, n)).map Prod.fst = rest.map Prod.fst ++ self := by
  simp [Function.comp_def]

/-- A driver that handles a message and tells nobody. -/
theorem kept_silent (hk : f.Kept N) (hd : f.drivers.lookup name = some (d, (m, k) :: rest))
    (hrec : m.isReconnect = false) (hh : Driver.Handled o d m t (Driver.selfMessages effects) [])
    (hlines : Driver.serverLines effects = []) (hname : t.name = d.name)
    (hsender : t.serverSender = d.serverSender) (havail : t.isAvailable = d.isAvailable)
    (hself : ∀ x ∈ Driver.selfMessages effects, x.isReconnect = false) :
    (f.driverHandled name m k rest t effects).Kept N := by
  have hok := hk.drivers name d _ hd
  have hsent : (f.driverHandled name m k rest t effects).sent = f.sent := by
    simp [driverHandled, hrec, hlines]
  refine kept_drivers hk rfl rfl rfl rfl rfl
    (show _ = f.sent name ++ [] by rw [hsent, List.append_nil]) (fun name' _ => by rw [hsent])
    (by simp) (show _ = f.lines ++ [] by simp [driverHandled, hlines]) (by simp) ?_ ?_
  · refine ⟨hname.trans hok.called, ?_, hsender ▸ hok.link, fun hno => ?_, ?_, ?_⟩
    · rw [map_fst_mailbox]
      exact hok.startUp.handled hh
    · obtain ⟨hup, hbox⟩ := hok.before hno
      refine ⟨hsender ▸ hup, fun e he => ?_⟩
      rcases List.mem_append.1 he with he | he
      · exact hbox e (List.mem_cons_of_mem _ he)
      · obtain ⟨x, hx, rfl⟩ := List.mem_map.1 he
        exact hself x hx
    · intro line k' hm
      rw [hsent]
      rcases List.mem_append.1 hm with hm | hm
      · exact hok.repeats line k' (List.mem_cons_of_mem _ hm)
      · obtain ⟨x, hx, heq⟩ := List.mem_map.1 hm
        obtain ⟨rfl, -⟩ := Prod.mk.inj heq
        simpa [Driver.Msg.isReconnect] using hself _ hx
    · rw [hsent, havail]
      exact hok.status
  · intro hcrash k' hle hlt
    rw [hsent] at hlt
    refine (hk.noLoss hcrash name k' hle hlt).keep hd (AList.lookup_insert _) (fun line hm => ?_)
      (fun x hx => List.mem_append_left _ hx) rfl
    exact List.mem_append_left _ (mem_of_not_reconnect hrec hm)

/-- A driver that tells its leader something: the line is under way, or will be sent again. -/
theorem kept_tells (hk : f.Kept N) (hd : f.drivers.lookup name = some (d, (m, k) :: rest))
    (hans : f.answers N d m o = true) (hkeeps : f.keepsUpdates N (.driverRecv name o) = true)
    (hrec : m.isReconnect = false) (htells : d.tells m = true) {line : Driver.ServerLine}
    {more : List Driver.Msg} (hself : Driver.selfMessages effects = d.resend o line ++ more)
    (hmore : ∀ x ∈ more, x.isReconnect = false)
    (hlines : Driver.serverLines effects = [(d.serverSender, line)])
    (hh : Driver.Handled o d m t (Driver.selfMessages effects) (Driver.serverLines effects))
    (habout : line.About name) (hsame : d.SameLink t) (havail : t.isAvailable = !line.isBusy) :
    (f.driverHandled name m k rest t effects).Kept N := by
  have hok := hk.drivers name d _ hd
  -- the receiver reads the connection the line is sent on, and the driver knows if it is lost
  have hreceiver : d.serverReceiver = some d.serverSender := by
    refine Driver.StartUp.receiver hok.startUp fun link heq => ?_
    obtain rfl : m = .setReceiver link := heq
    simp [Driver.tells] at htells
  have hconn : o.connected = f.net.holds d.serverSender := by
    have hup : o.connected = false → f.net.holds d.serverSender = false := fun hno => by
      simpa [answers, hno, hreceiver, hrec] using hans
    cases hc : o.connected with
    | false => exact (hup hc).symm
    | true =>
        cases hcrash : f.crashed with
        | false => exact ((hok.before hcrash).1).symm
        | true =>
            have : f.net.holds d.serverSender = true := by
              simpa [keepsUpdates, hcrash, hd, htells, hc, hrec] using hkeeps
            exact this.symm
  have hresend : d.resend o line
      = if f.net.holds d.serverSender then [] else [.reconnect line] := by
    simp [Driver.resend, hreceiver, hconn]
  let u : Update := { driver := name, number := (f.sent name).length, line := line }
  have hsent : (f.driverHandled name m k rest t effects).sent name = f.sent name ++ [line] := by
    simp [driverHandled, hrec, hlines]
  have hlast : (f.sent name ++ [line])[(f.sent name).length]? = some line := by simp
  have hmailbox : (f.driverHandled name m k rest t effects).drivers.lookup name
      = some (t, rest ++ (d.resend o line ++ more).map fun x => (x, (f.sent name).length)) := by
    simp only [driverHandled, hrec, hself, AList.lookup_insert, Bool.false_eq_true, if_false]
  refine kept_drivers hk rfl rfl rfl rfl rfl hsent (fun name' hname => ?_) (by simpa using habout)
    (show _ = f.lines ++ if f.net.holds d.serverSender then [(d.serverSender, u)] else [] from ?_)
    (fun x hx => ?_) ⟨hsame.name.trans hok.called, ?_, hsame.serverSender ▸ hok.link,
      fun hno => ?_, ?_, ?_⟩ ?_
  · simp [driverHandled, hrec, hname]
  · simp only [driverHandled, hlines, hrec]
    cases hup : f.net.holds d.serverSender <;> simp [u, hup]
  · split at hx
    · next hup =>
        obtain rfl := List.mem_singleton.1 hx
        exact ⟨hup, hok.link, by rw [Written, hsent]; exact hlast⟩
    · simp at hx
  · rw [map_fst_mailbox]
    exact hok.startUp.handled hh
  · obtain ⟨hup, hbox⟩ := hok.before hno
    refine ⟨hsame.serverSender ▸ hup, fun e he => ?_⟩
    rcases List.mem_append.1 he with he | he
    · exact hbox e (List.mem_cons_of_mem _ he)
    · obtain ⟨x, hx, rfl⟩ := List.mem_map.1 he
      rw [hself, hresend, if_pos hup] at hx
      exact hmore x hx
  · intro line' k' hm
    rw [hsent]
    rcases List.mem_append.1 hm with hm | hm
    · have hfind := hok.repeats line' k' (List.mem_cons_of_mem _ hm)
      rw [List.getElem?_append_left (List.getElem?_eq_some_iff.1 hfind).1, hfind]
    · obtain ⟨x, hx, heq⟩ := List.mem_map.1 hm
      obtain ⟨rfl, rfl⟩ := Prod.mk.inj heq
      rw [hself] at hx
      rcases List.mem_append.1 hx with hx | hx
      · obtain rfl := Driver.Msg.reconnect.inj (Driver.mem_resend hx)
        simp [hrec]
      · simpa [Driver.Msg.isReconnect] using hmore _ hx
  · intro line' hline
    rw [hsent, List.getLast?_concat] at hline
    rw [← Option.some.inj hline]
    exact havail
  · intro hcrash k' hle hlt
    rw [hsent, List.length_append, List.length_singleton] at hlt
    by_cases hk' : k' = (f.sent name).length
    · subst hk'
      cases hup : f.net.holds d.serverSender with
      | true =>
          refine .line (show (d.serverSender, u) ∈ _ from ?_)
          simp [driverHandled, hlines, hrec, hup, u]
      | false =>
          refine .resend hmailbox (show (Driver.Msg.reconnect line, _) ∈ _ from ?_)
          simp [hresend, hup]
    · refine (hk.noLoss hcrash name k' hle (by omega)).keep hd hmailbox (fun line' hm => ?_)
        (fun x hx => List.mem_append_left _ hx) rfl
      exact List.mem_append_left _ (mem_of_not_reconnect hrec hm)

/-- A driver that sends a line again does so on a new connection to a leader. -/
theorem kept_reconnect (hk : f.Kept N) {line : Driver.ServerLine}
    (hd : f.drivers.lookup name = some (d, (.reconnect line, k) :: rest))
    (hans : f.answers N d (.reconnect line) o = true)
    (hkeeps : f.keepsUpdates N (.driverRecv name o) = true)
    (hh : d.handle o (.reconnect line) = some (t, effects)) :
    (f.driverHandled name (.reconnect line) k rest t effects).Kept N := by
  have hok := hk.drivers name d _ hd
  have hhandled := Driver.handle_cases (by simp) hh
  have hcrash : f.crashed = true := by
    cases hc : f.crashed with
    | true => rfl
    | false => simpa [Driver.Msg.isReconnect] using (hok.before hc).2 _ List.mem_cons_self
  have hconnect : o.server = f.connect N := by
    simpa [answers, Driver.Msg.isReconnect] using (Bool.and_eq_true_iff.1 hans).2
  obtain ⟨link, hlink⟩ : ∃ link, f.connect N = some link := by
    simpa [keepsUpdates, hcrash, hd, Driver.tells, Driver.Msg.isReconnect,
      Option.isSome_iff_exists] using hkeeps
  obtain ⟨hup, hreached⟩ := connect_some hlink
  obtain ⟨rfl, rfl⟩ : { d with serverReceiver := some link, serverSender := link } = t ∧
      [.server link line] = effects := by
    simp only [Driver.handle, Driver.reconnect, hconnect, hlink, Option.some.injEq] at hh
    exact Prod.mk.inj hh
  let u : Update := { driver := name, number := k, line := line }
  have hfound : (f.sent name)[k]? = some line := hok.repeats line k List.mem_cons_self
  refine kept_drivers hk rfl rfl rfl rfl rfl (show _ = f.sent name ++ [] from ?_)
    (fun name' _ => rfl) (by simp) (show _ = f.lines ++ [(link, u)] from ?_) (fun x hx => ?_)
    ⟨hok.called, ?_, hreached, fun hno => ?_, ?_, hok.status⟩ ?_
  · simp [driverHandled, Driver.Msg.isReconnect]
  · simp [driverHandled, Driver.Msg.isReconnect, Driver.serverLines, hup, u]
  · obtain rfl := List.mem_singleton.1 hx
    exact ⟨hup, hreached, hfound⟩
  · rw [map_fst_mailbox]
    exact hok.startUp.handled hhandled
  · exact absurd hcrash (by simp [show f.crashed = false from hno])
  · intro line' k' hm
    refine hok.repeats line' k' (List.mem_cons_of_mem _ ?_)
    simpa [Driver.selfMessages] using hm
  · intro _ k' hle hlt
    cases hk.noLoss hcrash name k' hle hlt with
    | resend hd₀ hm =>
        obtain ⟨-, rfl⟩ := Prod.mk.inj (Option.some.inj (hd₀.symm.trans hd))
        rcases List.mem_cons.1 hm with heq | hm
        · obtain ⟨-, rfl⟩ := Prod.mk.inj heq
          refine .line (show (link, u) ∈ _ from ?_)
          simp [driverHandled, Driver.Msg.isReconnect, Driver.serverLines, hup, u]
        · exact .resend (AList.lookup_insert _) (List.mem_append_left _ hm)
    | line hu => exact .line (List.mem_append_left _ hu)
    | inbox hu => exact .inbox hu

theorem kept_driverRecv (hk : f.Kept N) (hkeeps : f.keepsUpdates N (.driverRecv name o) = true)
    (h : f.driverRecv N name o = some f') : f'.Kept N := by
  obtain ⟨d, m, k, rest, t, effects, hd, hans, hh, rfl⟩ := driverRecv_cases h
  have hok := hk.drivers name d _ hd
  have hhandled := Driver.handle_cases hok.startUp.not_recovery hh
  have hhandled' := hhandled
  generalize hself : Driver.selfMessages effects = self at hhandled'
  generalize hlines : Driver.serverLines effects = lines at hhandled'
  cases hhandled' with
  | silent hm hrec htells hsame havail hplain =>
      rw [hlines] at hhandled
      refine kept_silent hk hd hrec hhandled hlines hsame.name hsame.serverSender havail ?_
      rw [hself]
      exact fun x hx => (hplain x hx).2
  | setReceiver link =>
      rw [hlines] at hhandled
      exact kept_silent hk hd rfl hhandled hlines rfl rfl rfl (by simp [hself])
  | registers r hsame havail =>
      have hfree : d.isAvailable = true ∧ r.name = name := by
        have hstart := hok.startUp
        generalize hbox : List.map Prod.fst (((.register r, k) :: rest)) = mailbox at hstart
        cases hstart with
        | fresh => simp at hbox
        | connected hr hav =>
            simp only [List.map_cons, List.cons.injEq, Driver.Msg.register.injEq] at hbox
            exact ⟨hav, hbox.1 ▸ hr⟩
        | registered _ hplain =>
            have := hplain (.register r) (by simp [← hbox])
            simp [Driver.Msg.isStartUp] at this
      exact kept_tells hk hd hans hkeeps rfl rfl (hself.trans (List.append_nil _).symm) (by simp)
        hlines hhandled hfree.2 hsame (havail.trans hfree.1)
  | tells hm hrec htells habout hsame havail hplain =>
      exact kept_tells hk hd hans hkeeps hrec htells hself (fun x hx => (hplain x hx).2) hlines
        hhandled (hok.called ▸ habout) hsame havail
  | reconnectFailed | reconnected => exact kept_reconnect hk hd hans hkeeps hh

theorem kept_startDriver {socket : String} {position : Position} (hk : f.Kept N)
    (hnew : name ∉ f.drivers) (h : f.startDriver N name socket position = some f') :
    f'.Kept N := by
  obtain ⟨link, hlink, rfl⟩ := Option.map_eq_some_iff.1 h
  obtain ⟨hup, hreached⟩ := connect_some hlink
  have hunsent := hk.unsent name hnew
  refine kept_drivers hk rfl rfl rfl rfl rfl (List.append_nil _).symm (fun _ _ => rfl) (by simp)
    (List.append_nil _).symm (by simp)
    ⟨rfl, .fresh rfl rfl (by simp), hreached, fun _ => ⟨hup, ?_⟩, ?_, ?_⟩ ?_
  · simp [Driver.Msg.isReconnect]
  · intro line k hm
    simp at hm
  · intro line hlast
    simp [hunsent] at hlast
  · intro _ k _ hlt
    simp [hunsent] at hlt

theorem kept_driverPost (hk : f.Kept N) (hm : m.isExternal = true)
    (h : f.driverPost name m = some f') : f'.Kept N := by
  obtain ⟨⟨d, mailbox⟩, hd, rfl⟩ := Option.map_eq_some_iff.1 h
  have hok := hk.drivers name d mailbox hd
  have hplain : m.isStartUp = false ∧ m.isReconnect = false := by
    cases m <;> first | exact ⟨rfl, rfl⟩ | simp [Driver.Msg.isExternal] at hm
  refine kept_drivers hk rfl rfl rfl rfl rfl (List.append_nil _).symm (fun _ _ => rfl) (by simp)
    (List.append_nil _).symm (by simp)
    ⟨hok.called, ?_, hok.link, fun hno => ⟨(hok.before hno).1, fun e he => ?_⟩, ?_, hok.status⟩ ?_
  · rw [List.map_append]
    exact hok.startUp.append (by simp [hplain.1])
  · rcases List.mem_append.1 he with he | he
    · exact (hok.before hno).2 e he
    · rw [List.mem_singleton.1 he]
      exact hplain.2
  · intro line k hmem
    rcases List.mem_append.1 hmem with hmem | hmem
    · exact hok.repeats line k hmem
    · obtain ⟨rfl, -⟩ := Prod.mk.inj (List.mem_singleton.1 hmem)
      simp [Driver.Msg.isReconnect] at hplain
  · intro hcrash k hle hlt
    exact (hk.noLoss hcrash name k hle hlt).keep hd (AList.lookup_insert _)
      (fun line hm => List.mem_append_left _ hm) (fun x hx => hx) rfl

end Drivers

/-! ## A line that arrives -/

theorem lineArrives_cases {i : ℕ} (h : f.lineArrives i = some f') : ∃ link u,
    f.lines[i]? = some (link, u) ∧ f' = { f with
      net := f.net.enqueue link.server.server u.line.toMsg
      lines := f.lines.eraseIdx i
      inbox := Function.update f.inbox link.server.server
        (f.inbox link.server.server ++ [u]) } := by
  unfold lineArrives at h
  split at h
  · simp at h
  · next link u hx =>
      split at h
      · simp at h
      · exact ⟨link, u, hx, (Option.some.inj h).symm⟩

/-- A leader takes the lines of drivers. -/
theorem step_post {p : Proc} (hp : f.net.procs s = some p) (him : p.srv.imLeader = true)
    (line : Driver.ServerLine) :
    f.net.step N (.post s line.toMsg) = some (f.net.enqueue s line.toMsg) := by
  have hreach : Net.reaches p.srv line.toMsg = true := by
    cases line <;> simpa [Net.reaches, Driver.ServerLine.toMsg, Msg.isExternal] using him
  simp [Net.step, hp, hreach]

theorem mem_inbox_arrived {u v : Update} {k : ℕ} :
    v ∈ Function.update f.inbox s (f.inbox s ++ [u]) k ↔ v ∈ f.inbox k ∨ (v = u ∧ k = s) := by
  by_cases hk : k = s
  · subst hk
    simp
  · simp [hk]

theorem kept_lineArrives {i : ℕ} (hk : f.Kept N) (h : f.lineArrives i = some f') : f'.Kept N := by
  obtain ⟨link, u, hx, rfl⟩ := lineArrives_cases h
  have hmem := List.mem_of_getElem? hx
  obtain ⟨hup, hlisten⟩ := hk.lines _ hmem
  have hwritten := hk.linesWritten _ hmem
  obtain ⟨srv, hs, him⟩ := Net.listening_iff.1 hlisten
  obtain ⟨p, hp, rfl⟩ := Net.srv_eq_some.1 hs
  constructor
  · exact Net.valid_step hk.valid (step_post hp him u.line)
  · simpa only [Net.listening_enqueue] using hk.unique
  · intro s
    simp only [Net.mailbox_enqueue hp]
    by_cases hs : s = link.server.server
    · subst hs
      rw [if_pos rfl, Function.update_self, List.filter_append, List.map_append, hk.inbox,
        List.filter_cons_of_pos (Msg.fromDriver_toMsg _)]
      rfl
    · rw [if_neg hs, Function.update_of_ne hs, hk.inbox]
  · intro s v hv
    simp only [Net.listening_enqueue]
    rcases mem_inbox_arrived.1 hv with hv | ⟨-, rfl⟩
    · exact hk.listens s v hv
    · exact hlisten
  · intro x hx
    simp only [Net.listening_enqueue, Net.holds_enqueue]
    exact hk.lines x (List.mem_of_mem_eraseIdx hx)
  · exact fun x hx => hk.linesWritten x (List.mem_of_mem_eraseIdx hx)
  · intro s v hv
    rcases mem_inbox_arrived.1 hv with hv | ⟨rfl, -⟩
    · exact hk.inboxWritten s v hv
    · exact hwritten
  · exact hk.about
  · exact hk.unsent
  · intro name d mailbox hd
    have hok := hk.drivers name d mailbox hd
    refine ⟨hok.called, hok.startUp, ⟨hok.link.session, fun hup => ?_⟩, fun hno => ?_,
      hok.repeats, hok.status⟩
    · rw [Net.holds_enqueue] at hup
      rw [Net.listening_enqueue]
      exact hok.link.listening hup
    · simp only [Net.holds_enqueue]
      exact hok.before hno
  · intro hcrash name k hle hlt
    cases hk.noLoss hcrash name k hle hlt with
    | resend hd hm => exact .resend hd hm
    | line hu =>
        -- the line that arrives, or one that is still under way
        obtain ⟨j, hj⟩ := List.mem_iff_getElem?.1 hu
        by_cases hij : j = i
        · subst hij
          obtain ⟨-, rfl⟩ := Prod.mk.inj (Option.some.inj (hj.symm.trans hx))
          exact .inbox (mem_inbox_arrived.2 (.inr ⟨rfl, rfl⟩))
        · exact .line (List.mem_eraseIdx_iff_getElem?.2 ⟨j, hij, hj⟩)
    | inbox hu => exact .inbox (mem_inbox_arrived.2 (.inl hu))
  · intro hcrash name hne
    obtain ⟨s, srv, line, hs, him, hline, hlists⟩ := hk.registry hcrash name hne
    exact ⟨s, srv, line, Net.srv_enqueue.trans hs, him, hline, hlists⟩

/-! ## In every run -/

theorem kept_start {i : ℕ} (hi : i ∈ ring N) : (start N i).Kept N := by
  have hlisten : ∀ {a}, (Net.start N i).listening a = true → a = i := by
    intro a ha
    obtain ⟨s, hs, -⟩ := Net.listening_iff.1 ha
    rw [Net.srv_start] at hs
    split at hs
    · assumption
    · simp at hs
  constructor
  · exact Net.valid_start hi
  · exact fun a b ha hb => (hlisten ha).trans (hlisten hb).symm
  · exact fun s => by simp [start]
  · exact fun s u hu => by simp [start] at hu
  · exact fun x hx => by simp [start] at hx
  · exact fun x hx => by simp [start] at hx
  · exact fun s u hu => by simp [start] at hu
  · exact fun name line hline => by simp [start] at hline
  · exact fun name _ => rfl
  · exact fun name d mailbox hd => by simp [start] at hd
  · exact fun hcrash => by simp [start] at hcrash
  · exact fun hcrash => by simp [start] at hcrash

theorem kept_step {l : Label} (hk : f.Kept N) (hone : f.oneFailover N l = true)
    (hkeeps : f.keepsUpdates N l = true) (hstep : f.step N l = some f') : f'.Kept N := by
  cases l with
  | server l =>
      obtain ⟨hpost, net', hnet, rfl⟩ := serverStep_cases hstep
      have h := Net.step_cases hnet
      have hv' := Net.valid_step hk.valid hnet
      simp only [oneFailover, hnet, Option.all_some, Bool.and_eq_true, Bool.or_eq_true,
        Bool.not_eq_true'] at hone
      have hunique := h.unique_leader hv' hk.unique <| hone.1.imp_right fun hall a => by
        cases ha : f.net.listening a with
        | false => rfl
        | true =>
            obtain ⟨s, hs, -⟩ := Net.listening_iff.1 ha
            have hring := (mem_ring.1 (hk.valid.ids a s hs).1).2
            simp only [List.all_eq_true, List.mem_range, Bool.not_eq_true'] at hall
            rw [hall a (by omega)] at ha
            exact absurd ha (by simp)
      cases hgone : f.net.leaderGone N net' with
      | true =>
          refine kept_gone hk h hv' hpost hunique ?_ hgone
          simpa [hgone] using hone.2
      | false => exact kept_served hk h hv' hpost hunique hgone hkeeps
  | startDriver name socket position =>
      simp only [step] at hstep
      split at hstep
      · simp at hstep
      · next hnew => exact kept_startDriver hk hnew hstep
  | driverPost name m =>
      simp only [step] at hstep
      split at hstep
      · next hm => exact kept_driverPost hk hm hstep
      · simp at hstep
  | driverRecv name o => exact kept_driverRecv hk hkeeps hstep
  | lineArrives i => exact kept_lineArrives hk hstep

/-- **No update is lost**: whatever a driver has told since the leader crashed, the new leader has
    it where the driver is, as soon as nothing is under way. -/
theorem Kept.updatesKept (hk : f.Kept N) : f.UpdatesKept N := by
  intro name d mailbox s srv hcrash ⟨hlines, hqueued, hmailboxes⟩ hd hsent hs him
  have hall : (f.sent name).length ≤ f.handled.count name := by
    by_contra hlt
    cases hk.noLoss hcrash name _ (le_refl _) (Nat.lt_of_not_le hlt) with
    | resend hd' hm => simpa [Driver.Msg.isReconnect] using hmailboxes _ _ _ hd' _ hm
    | line hu => simp [hlines] at hu
    | inbox hu =>
        rename_i s' line
        obtain ⟨t, ht, -⟩ := Net.listening_iff.1 (hk.listens s' _ hu)
        have hempty : (f.net.mailbox s').filter Msg.fromDriver = [] :=
          List.filter_eq_nil_iff.2 fun x hx => by
            simp [hqueued s' (hk.valid.ids s' t ht).1 x hx]
        rw [hk.inbox, List.map_eq_nil_iff] at hempty
        rw [hempty] at hu
        simp at hu
  have hpos := List.length_pos_iff.2 hsent
  obtain ⟨s', srv', line, hs', him', hline, hlists⟩ := hk.registry hcrash name (by omega)
  obtain rfl : s' = s :=
    hk.unique s' s (Net.listening_iff.2 ⟨_, hs', him'⟩) (Net.listening_iff.2 ⟨_, hs, him⟩)
  obtain rfl := Option.some.inj (hs'.symm.trans hs)
  have hlast : (f.sent name).getLast? = some line := by
    have := (List.getElem?_eq_some_iff.1 hline).1
    rw [List.getLast?_eq_getElem?, ← hline]
    congr 1
    omega
  have hstatus := (hk.drivers name d mailbox hd).status line hlast
  rw [hstatus]
  cases hb : line.isBusy <;> simpa [Server.Lists, hb] using hlists

/-- **No driver update is lost by a failover** in a run whose steps all meet `keepsUpdates`. -/
theorem updates_kept {i : ℕ} {ls : List Label} (hi : i ∈ ring N)
    (h : Run (step N) (fun f l => f.oneFailover N l = true ∧ f.keepsUpdates N l = true)
      (start N i) ls f) : f.UpdatesKept N :=
  (h.invariant (P := fun f : Fleet => f.Kept N)
    (fun _ _ _ hk hok hst => kept_step hk hok.1 hok.2 hst) (kept_start hi)).updatesKept

/-! ### Two runs -/

/-- `Quiet`, as it is checked. -/
def isQuiet (N : ℕ) (f : Fleet) : Bool :=
  f.lines.isEmpty &&
    ((List.range (N + 1)).all fun s => (f.net.mailbox s).all fun m => !m.fromDriver) &&
      f.drivers.entries.all fun e => e.2.2.all fun m => !m.1.isReconnect

theorem quiet_of_isQuiet (h : f.isQuiet N = true) : f.Quiet N := by
  simp only [isQuiet, Bool.and_eq_true, List.all_eq_true, List.isEmpty_iff, List.mem_range,
    Bool.not_eq_true'] at h
  obtain ⟨⟨hlines, hqueued⟩, hmailboxes⟩ := h
  refine ⟨hlines, fun s hs m hm => ?_, fun name d mailbox hd e he => ?_⟩
  · have := (mem_ring.1 hs).2
    exact hqueued s (by omega) m hm
  · exact hmailboxes ⟨name, d, mailbox⟩ (AList.mem_lookup_iff.1 hd) e he

/-- Replica 2 joins leader 1. -/
def joinReplica : List Label := [.server (.boot 2), .server (.dial 2), .server (.recv 2 .up)]

/-- Leader 1 sends replica 2 a copy of its registry. -/
def copyToReplica : List Label :=
  [.server (.post 1 (.pong (.server 2 1))), .server (.recv 1 .up), .server (.pongArrives 0),
    .server (.recv 2 .up)]

/-- A driver registers with leader 1. -/
def registerDriver : List Label :=
  [.startDriver "mario" "127.0.0.1:40000" (5, 3),
    .driverRecv "mario" { connected := true, server := none },
    .driverRecv "mario" { connected := true, server := none }, .lineArrives 0,
    .server (.recv 1 .up)]

/-- Leader 1 crashes, replica 2 takes over, and the driver takes a ride: it finds leader 1 gone and
    sends its line again to leader 2. -/
def rideAfterCrash : List Label :=
  [.server (.crash 1), .server (.post 2 .ping), .server (.recv 2 .down), .server (.recv 2 .up),
    .server (.recv 2 .up), .driverPost "mario" (.requestRide ⟨1, (6, 4), (8, 6), 0⟩),
    .driverRecv "mario" { connected := false, server := none },
    .driverRecv "mario" { connected := true, server := some ⟨⟨2, 1⟩, 1⟩ }, .lineArrives 0,
    .server (.recv 2 .up)]

/-- Nothing is under way, and the driver has told leader 2 that it is busy. -/
def toldBusy (f : Fleet) : Bool :=
  f.isQuiet 2 && f.crashed && decide (f.sent "mario" = [.busyDriver "mario"]) &&
    (f.drivers.lookup "mario").any (fun entry => !entry.1.isAvailable)

theorem updates_kept_rideAfterCrash : ∃ f : Fleet, f.UpdatesKept 2 ∧ f.toldBusy = true := by
  obtain ⟨f, hrun, htold⟩ := exists_run_of_exec
    (fun f l => f.oneFailover 2 l && f.keepsUpdates 2 l) (start 2 1)
    (joinReplica ++ registerDriver ++ copyToReplica ++ rideAfterCrash) toldBusy
    (show (exec (step 2) _ _ _).any _ = true by decide +kernel)
  exact ⟨f, updates_kept (by decide) (hrun.mono fun _ _ h => by simpa using h), htold⟩

/-- The driver registers after the last copy: leader 2 does not know it, and ignores its line. -/
theorem not_updates_kept : ¬ ∀ (N i : ℕ) (ls : List Label) (f : Fleet), i ∈ ring N →
    Run (step N) (fun f l => f.oneFailover N l = true) (start N i) ls f →
    f.UpdatesKept N := by
  intro h
  obtain ⟨f, hrun, hlost⟩ := exists_run_of_exec (fun f l => f.oneFailover 2 l) (start 2 1)
    (joinReplica ++ copyToReplica ++ registerDriver ++ rideAfterCrash)
    (fun f => f.toldBusy && (f.net.srv 2).any fun srv : Server =>
      srv.imLeader && decide ("mario" ∉ srv.busyDrivers))
    (show (exec (step 2) _ _ _).any _ = true by decide +kernel)
  have hkept := h 2 1 _ f (by decide) hrun
  simp only [toldBusy, Bool.and_eq_true, decide_eq_true_eq, Option.any_eq_true,
    Bool.not_eq_true'] at hlost
  obtain ⟨⟨⟨⟨hquiet, hcrash⟩, hsent⟩, ⟨d, mailbox⟩, hd, hbusy⟩, srv, hs, him, hnot⟩ := hlost
  have := hkept "mario" d mailbox 2 srv hcrash (quiet_of_isQuiet hquiet) hd
    (by simp [hsent]) hs him
  rw [hbusy] at this
  exact hnot this

end Fleet

end ConcuRide
