import ConcuRide.Rides.Cab

set_option autoImplicit false

/-! # Driver and leader in step

What a running driver takes itself to be is what the leader will know once it has handled all the
lines that are on their way, and what the file says; while the driver starts up, the state it is
about to read takes the place of its own. -/

namespace ConcuRide

open Lib

namespace StatusFile

variable {file : StatusFile} {states : List Json} {st : Standing}

/-- The file after a handler that leaves the driver at `st`. -/
theorem standing_write (hstates : ∀ status ∈ states, Driver.savedStanding status = some st)
    (hfile : states = [] → file.standing = some st) : (file.write states).standing = some st := by
  unfold write
  cases hlast : states.getLast? with
  | none => exact hfile (List.getLast?_eq_none_iff.1 hlast)
  | some status => exact hstates status (List.mem_of_getLast? hlast)

/-- The state in the file is a new one or the old one. -/
theorem write_eq_saved {status : Json} (h : file.write states = .saved status) :
    status ∈ states ∨ file = .saved status := by
  unfold write at h
  cases hlast : states.getLast? with
  | none => rw [hlast] at h; exact .inr h
  | some last =>
      rw [hlast] at h
      injection h with h
      exact .inl (h ▸ List.mem_of_getLast? hlast)

end StatusFile

namespace Cab

/-- No message of `main` waits any more, and no line that has to be sent again. -/
def Started (mailbox : List Driver.Msg) : Prop :=
  ∀ m ∈ mailbox, m.isStartUp = false ∧ m.isReconnect = false

/-- How far a driver is, by its mailbox, and how that compares to what the leader is told and to
    what the file says. -/
inductive Phase (name : String) (told : Option Standing) (file : StatusFile) :
    Driver → List Driver.Msg → Prop
  | connects {d : Driver} {link : Driver.Link} {rest : List Driver.Msg}
      (h : Phase name told file { d with serverReceiver := some link } rest) :
      Phase name told file d (.setReceiver link :: rest)
  | reads {d x : Driver} {socket : String} {rest : List Driver.Msg}
      (h : ∀ t, d.restore x.status = some t → Phase name told file t rest) :
      Phase name told file d (.recovery x.status socket :: rest)
  | registers {d : Driver} {r : Driver.Register} {rest : List Driver.Msg}
      (hconn : d.serverReceiver.isSome = true) (hname : d.name = name) (hr : r.name = name)
      (htold : told.getD (.free r.position) = d.standing)
      (hfile : ∀ saved ∈ file.standing, saved = d.standing) (hrest : Started rest) :
      Phase name told file d (.register r :: rest)
  | running {d : Driver} {mailbox : List Driver.Msg}
      (hconn : d.serverReceiver.isSome = true) (hname : d.name = name)
      (htold : told = some d.standing) (hfile : file.standing = some d.standing)
      (hmailbox : Started mailbox) : Phase name told file d mailbox

/-- The driver is in step with the leader and with its file. -/
def LifeOk (name : String) (w : Cab) : Prop :=
  match w.life with
  | .running d mailbox =>
    Phase name (w.told name) w.file d mailbox ∧ ∃ ride, Driver.Underway ride d mailbox
  | _ => w.agrees name = true

/-- The invariant of the runs that keep the driver in step. -/
structure InStep (name : String) (w : Cab) : Prop where
  drivers : w.srv.DriversOk
  mailbox : ∀ m ∈ w.mailbox, ∀ state, m ≠ .updateNetworkState state
  saved : ∀ status, w.file = .saved status → ∃ ride, Driver.SavedOn ride status
  life : w.LifeOk name

variable {N : ℕ} {name : String} {w w' : Cab} {l : Label} {d t : Driver} {m : Driver.Msg}
  {rest mailbox new : List Driver.Msg} {effects : List Driver.Effect} {told : Option Standing}
  {file : StatusFile}

theorem Started.append (h : Started mailbox) (hnew : Started new) : Started (mailbox ++ new) :=
  fun m hm => (List.mem_append.1 hm).elim (h m) (hnew m)

theorem Started.tail (h : Started (m :: rest)) : Started rest := fun x hx =>
  h x (List.mem_cons_of_mem m hx)

theorem Phase.append (h : Phase name told file d mailbox) (hnew : Started new) :
    Phase name told file d (mailbox ++ new) := by
  induction h with
  | connects _ ih => exact .connects ih
  | reads _ ih => exact .reads ih
  | registers hconn hname hr htold hfile hrest =>
      exact .registers hconn hname hr htold hfile (hrest.append hnew)
  | running hconn hname htold hfile hmailbox =>
      exact .running hconn hname htold hfile (hmailbox.append hnew)

/-- A driver without a message of `main` in its mailbox has started up. -/
theorem Phase.told_eq (h : Phase name told file d mailbox)
    (hstarted : ∀ m ∈ mailbox, m.isStartUp = false) : told = some d.standing := by
  cases h with
  | running _ _ htold => exact htold
  | connects | reads | registers => cases hstarted _ List.mem_cons_self

/-! ## What is told -/

theorem agrees_iff : w.agrees name = true ↔
    ∀ st ∈ w.told name, ∀ saved ∈ w.file.standing, st = saved := by
  unfold agrees
  cases w.told name <;> cases w.file.standing <;> simp

theorem told_emit : (w.emit effects).told name =
    ((Driver.notices effects).map Driver.ServerLine.toMsg).foldl (Standing.hear name)
      (w.told name) := by
  simp only [Cab.told, pending, emit, List.map_append, List.foldl_append]

/-- The messages of others make no difference to what the leader is told. -/
theorem told_post {m : Msg} (hm : m.moves ≠ some name) :
    { w with mailbox := w.mailbox ++ [m] }.told name = w.told name := by
  simp only [Cab.told, pending, List.foldl_append, List.foldl_cons, List.foldl_nil,
    Server.hear_other hm]

/-- Nor does it matter when the leader handles them. -/
theorem told_handle {o : Oracle} {m : Msg} {others : List Msg} {srv : Server}
    {sent : List Effect} (hd : w.srv.DriversOk) (hmailbox : w.mailbox = m :: others)
    (hstate : ∀ state, m ≠ .updateNetworkState state)
    (h : w.srv.handle N o m = some (srv, sent)) :
    { w with srv := srv, mailbox := others ++ selfMessages sent }.told name = w.told name := by
  simp only [Cab.told, pending, hmailbox, List.cons_append, List.foldl_cons, List.foldl_append,
    Server.handle_standing hd hstate h, Server.foldl_hear_others (Server.moves_of_self h)]

/-! ## The driver's own steps -/

/-- Lines that do not move the driver leave what is told as it is. -/
theorem foldl_hear_quiet {lines : List Driver.ServerLine}
    (h : ∀ line ∈ lines, line.toMsg.moves = none) (told : Option Standing) :
    (lines.map Driver.ServerLine.toMsg).foldl (Standing.hear name) told = told := by
  refine Server.foldl_hear_others (fun m hm => ?_) told
  obtain ⟨line, hline, rfl⟩ := List.mem_map.1 hm
  rw [h line hline]
  simp

/-- The file after a handler that has saved nothing. -/
theorem write_nil : file.write [] = file := rfl

/-- **A handler keeps a driver in step.** -/
theorem Phase.recv (h : Phase name told file d (m :: rest))
    (hride : m.isRide = true → d.isAvailable = false) (hfollows : d.follows m = true)
    (hh : handler d m = some (t, effects)) :
    Phase name
      (((Driver.notices effects).map Driver.ServerLine.toMsg).foldl (Standing.hear name) told)
      (file.write (Driver.saves effects)) t (rest ++ Driver.selfMessages effects) := by
  cases h with
  | connects h =>
      obtain ⟨rfl, rfl⟩ := Prod.mk.inj (Option.some.inj hh)
      exact h.append (by simp [Started, Driver.selfMessages])
  | reads h =>
      obtain ⟨hrestore, hsaves, hquiet, hself⟩ := Driver.recovery_quiet hh
      rw [hsaves, write_nil, foldl_hear_quiet hquiet]
      exact (h t hrestore).append hself
  | @registers d r rest hconn hname hr htold hfile hrest =>
      obtain ⟨rfl, hlines, hsaves, hself⟩ := Driver.register_up hconn rfl hh
      rw [hlines, hsaves, hself, List.append_nil]
      refine .running hconn hname ?_ ?_ hrest
      · exact (Server.hear_newDriver hr told).trans (congrArg some htold)
      · refine StatusFile.standing_write (fun status hstatus => ?_) (by simp)
        rw [List.mem_singleton.1 hstatus]
        exact Driver.savedStanding_status _
  | running hconn hname htold hfile hmailbox =>
      obtain ⟨hstart, hrec⟩ := hmailbox m List.mem_cons_self
      have hnotes := Driver.handle_notes hconn rfl hstart hrec hfollows hride hh
      have hself := Driver.self_up hconn rfl hstart hrec hh
      have hlink := Driver.handle_link hstart hrec hh
      obtain ⟨hstates, hnone⟩ := hnotes.saved
      refine .running (hlink.serverReceiver ▸ hconn) (hlink.name.trans hname) ?_ ?_
        (hmailbox.tail.append hself)
      · rw [htold]
        exact hnotes.heard hname
      · exact StatusFile.standing_write hstates fun hempty => (hnone hempty).symm ▸ hfile

theorem saves_beforePanic :
    Driver.saves (beforePanic d m) = Driver.Process.savedBeforePanic d m := by
  unfold beforePanic
  induction Driver.Process.savedBeforePanic d m with
  | nil => rfl
  | cons status states ih => exact congrArg (status :: ·) ih

theorem notices_beforePanic : Driver.notices (beforePanic d m) = [] := by
  unfold beforePanic
  induction Driver.Process.savedBeforePanic d m with
  | nil => rfl
  | cons _ _ ih => exact ih

/-- A driver that panics has started up, and saves nothing new before. -/
theorem Phase.panics (h : Phase name told file d (m :: rest)) (hh : handler d m = none) :
    told = some d.standing ∧
      (file.write (Driver.saves (beforePanic d m))).standing = some d.standing := by
  cases h with
  | connects => cases hh
  | registers => cases hh
  | reads =>
      simp only [handler, Driver.handle, Driver.recovery, Driver.restore_status,
        Option.bind_eq_bind, Option.bind_some] at hh
      split at hh <;> cases hh
  | running hconn hname htold hfile hmailbox =>
      refine ⟨htold, StatusFile.standing_write (fun status hstatus => ?_) fun _ => hfile⟩
      rw [saves_beforePanic] at hstatus
      cases m with
      | rideToDestination =>
          rw [List.mem_singleton.1 hstatus]
          exact Driver.savedStanding_status d
      | _ => cases hstatus

/-! ## Steps -/

/-- Only what is told, the file and the process matter. -/
theorem LifeOk.congr (h : w.LifeOk name) (htold : w'.told name = w.told name)
    (hfile : w'.file = w.file) (hlife : w'.life = w.life) : w'.LifeOk name := by
  have hagrees : w'.agrees name = w.agrees name := by rw [agrees, agrees, htold, hfile]
  unfold LifeOk at h ⊢
  rw [hlife, htold, hfile, hagrees]
  exact h

theorem toMsg_ne_copy (line : Driver.ServerLine) (state : UpdateNetworkState) :
    line.toMsg ≠ .updateNetworkState state := fun heq => by
  have hfrom := Msg.fromDriver_toMsg line
  rw [heq] at hfrom
  cases hfrom

/-- A message for the leader that makes no difference to what it is told. -/
theorem InStep.enqueue {m : Msg} (h : InStep name w) (hmailbox : w'.mailbox = w.mailbox ++ [m])
    (hm : ∀ state, m ≠ .updateNetworkState state) (hsrv : w'.srv = w.srv)
    (htold : w'.told name = w.told name) (hfile : w'.file = w.file) (hlife : w'.life = w.life) :
    InStep name w' where
  drivers := hsrv ▸ h.drivers
  mailbox := fun x hx => by
    rw [hmailbox] at hx
    rcases List.mem_append.1 hx with hx | hx
    · exact h.mailbox x hx
    · exact List.mem_singleton.1 hx ▸ hm
  saved := hfile ▸ h.saved
  life := h.life.congr htold hfile hlife

theorem inStep_post {m : Msg} (h : InStep name w) (hst : step N name w (.post m) = some w') :
    InStep name w' := by
  simp only [step] at hst
  split at hst
  · cases hst
  · next hm =>
      obtain rfl := Option.some.inj hst
      refine h.enqueue rfl (fun state heq => hm (.inr ?_)) rfl (told_post fun heq => hm (.inl heq))
        rfl rfl
      rw [heq]
      rfl

theorem inStep_handle {o : Oracle} (h : InStep name w)
    (hst : step N name w (.handle o) = some w') : InStep name w' := by
  simp only [step] at hst
  split at hst
  · cases hst
  · next m others hmailbox =>
      obtain ⟨⟨srv, sent⟩, hh, rfl⟩ := Option.map_eq_some_iff.1 hst
      have hcopy := h.mailbox m (hmailbox ▸ List.mem_cons_self)
      constructor
      case drivers => exact Server.handle_driversOk h.drivers hcopy hh
      case mailbox =>
        intro x hx
        rcases List.mem_append.1 hx with hx | hx
        · exact h.mailbox x (hmailbox ▸ List.mem_cons_of_mem m hx)
        · exact (Server.isRegistry_of_self hh hx).2
      case saved => exact h.saved
      case life => exact h.life.congr (told_handle h.drivers hmailbox hcopy hh) rfl rfl

theorem inStep_deliver (h : InStep name w) (hok : w.keepsInStep name .deliver = true)
    (hst : w.deliver = some w') : InStep name w' := by
  simp only [keepsInStep, hst, Option.all_some, decide_eq_true_eq] at hok
  unfold deliver at hst
  split at hst
  · cases hst
  · next line rest _ =>
      obtain rfl := Option.some.inj hst
      exact h.enqueue rfl (toMsg_ne_copy line) rfl hok rfl rfl

theorem inStep_deliverOlder {i : ℕ} (h : InStep name w)
    (hok : w.keepsInStep name (.deliverOlder i) = true) (hst : w.deliverOlder i = some w') :
    InStep name w' := by
  simp only [keepsInStep, hst, Option.all_some, decide_eq_true_eq] at hok
  unfold deliverOlder at hst
  split at hst
  · next line rest _ =>
      obtain rfl := Option.some.inj hst
      exact h.enqueue rfl (toMsg_ne_copy line) rfl hok rfl rfl
  · cases hst

theorem inStep_arrives (h : InStep name w) (hst : step N name w (.arrives m) = some w') :
    InStep name w' := by
  simp only [step] at hst
  split at hst
  · next d mailbox hlife =>
      split at hst
      · next hm =>
          obtain rfl := Option.some.inj hst
          have hlifeOk := h.life
          rw [LifeOk, hlife] at hlifeOk
          obtain ⟨hphase, ride, hunder⟩ := hlifeOk
          refine ⟨h.drivers, h.mailbox, h.saved, hphase.append fun x hx => ?_, ride, ?_⟩
          · rw [List.mem_singleton.1 hx]
            cases m <;> first | exact ⟨rfl, rfl⟩ | cases hm
          · refine hunder.append ?_ ?_ <;> cases m <;> first | rfl | cases hm
      · cases hst
  · cases hst

/-- Whoever handles a message of the ride is on a ride. -/
theorem busy_of_ride {ride : Option Driver.RequestRide} (h : Driver.Underway ride d (m :: rest))
    (hm : m.isRide = true) : d.isAvailable = false := by
  have hlen := h.length_eq
  rw [Driver.rideMessages_cons_ride hm] at hlen
  cases hav : d.isAvailable with
  | false => rfl
  | true => simp [hav] at hlen

theorem inStep_recv (h : InStep name w) (hok : w.keepsInStep name .recv = true)
    (hst : w.recv = some w') : InStep name w' := by
  unfold recv at hst
  split at hst
  · next d m rest hlife =>
      have hlifeOk := h.life
      rw [LifeOk, hlife] at hlifeOk
      obtain ⟨hphase, ride, hunder⟩ := hlifeOk
      simp only [keepsInStep, hlife] at hok
      split at hst
      · next t effects hh =>
          obtain rfl := Option.some.inj hst
          obtain ⟨hunder', hsaved⟩ := hunder.handled hh
          refine ⟨h.drivers, h.mailbox, fun status hfile => ?_, ?_, _, hunder'⟩
          · rcases StatusFile.write_eq_saved hfile with hmem | hold
            · exact ⟨_, hsaved status hmem⟩
            · exact h.saved status hold
          · have hrecv := hphase.recv (busy_of_ride hunder) hok hh
            rw [← told_emit] at hrecv
            exact hrecv
      · next hh =>
          obtain rfl := Option.some.inj hst
          obtain ⟨htold, hfile⟩ := hphase.panics hh
          refine ⟨h.drivers, h.mailbox, fun status hsaved => ?_,
            agrees_iff.2 fun st hst saved hs => ?_⟩
          · rcases StatusFile.write_eq_saved hsaved with hmem | hold
            · rw [saves_beforePanic] at hmem
              exact ⟨ride, hunder.panics status hmem⟩
            · exact h.saved status hold
          · have hemit : (w.emit (beforePanic d m)).told name = w.told name := by
              rw [told_emit, notices_beforePanic]
              rfl
            have hst' : (w.emit (beforePanic d m)).told name = some st := hst
            rw [hemit, htold] at hst'
            exact (Option.some.inj hst').symm.trans (Option.some.inj (hfile.symm.trans hs))
  · cases hst

/-- Whatever the next handler saves is a state of a ride. -/
theorem nextEffects_saved (h : InStep name w) :
    ∀ status ∈ Driver.saves w.nextEffects, ∃ ride, Driver.SavedOn ride status := by
  intro status hstatus
  unfold nextEffects at hstatus
  split at hstatus
  · next d m rest hlife =>
      have hlifeOk := h.life
      rw [LifeOk, hlife] at hlifeOk
      obtain ⟨-, ride, hunder⟩ := hlifeOk
      cases hh : handler d m with
      | none =>
          rw [hh, Option.map_none, Option.getD_none, saves_beforePanic] at hstatus
          exact ⟨ride, hunder.panics status hstatus⟩
      | some result =>
          obtain ⟨t, effects⟩ := result
          rw [hh] at hstatus
          exact ⟨_, (hunder.handled hh).2 status hstatus⟩
  · simp [Driver.saves] at hstatus

theorem inStep_crash {k : ℕ} {torn : Bool} {kept : ℕ} (h : InStep name w)
    (hok : w.keepsInStep name (.crash k torn kept) = true)
    (hst : step N name w (.crash k torn kept) = some w') : InStep name w' := by
  have hw : w' = w.crash k torn kept := by
    simp only [step] at hst
    split at hst
    · cases hst
    · exact (Option.some.inj hst).symm
  subst hw
  refine ⟨h.drivers, h.mailbox, fun status hfile => ?_, hok⟩
  simp only [crash] at hfile
  split at hfile
  · cases hfile
  · rcases StatusFile.write_eq_saved hfile with hmem | hold
    · have hsub : (Driver.saves (w.nextEffects.take k)).Sublist (Driver.saves w.nextEffects) :=
        (List.take_sublist k _).filterMap _
      exact nextEffects_saved h status (hsub.subset hmem)
    · exact h.saved status hold

/-- A driver that starts takes itself to be where its file says, or at its argument, and the leader
    will know the same. -/
theorem phase_launched (h : w.agrees name = true) (at_ : Driver.Launch)
    (hok : w.keepsInStep name (.start at_) = true) (status : Option Json)
    (hstatus : ∀ x ∈ status, ∃ ride, Driver.SavedOn ride x)
    (hfile : w.file.standing = status.bind Driver.savedStanding) :
    Phase name (w.told name) w.file (Driver.Process.launched name at_ status).1
      (Driver.Process.launched name at_ status).2 := by
  simp only [keepsInStep] at hok
  have hagrees := agrees_iff.1 h
  refine .connects ?_
  cases status with
  | none =>
      rw [hfile] at hok
      refine .registers rfl rfl rfl ?_ (by rw [hfile]; simp) (by simp [Started])
      cases htold : w.told name with
      | none => rfl
      | some st =>
          rw [htold] at hok
          exact of_decide_eq_true hok
  | some status =>
      obtain ⟨ride, hride⟩ := hstatus status rfl
      obtain ⟨x, rfl, -⟩ := id hride
      rw [Option.bind_some, Driver.savedStanding_status] at hfile
      rw [hfile] at hok
      refine .reads fun t ht => ?_
      have hstanding := Driver.standing_restore hride ht
      rw [Driver.savedStanding_status] at hstanding
      have ht' := ht
      rw [Driver.restore_status] at ht'
      obtain rfl := Option.some.inj ht'
      refine .registers rfl rfl rfl ?_ (fun saved hs => ?_) (by simp [Started])
      · rw [Option.some.inj hstanding]
        cases htold : w.told name with
        | none =>
            rw [htold] at hok
            exact (of_decide_eq_true hok).symm
        | some st => exact hagrees st htold x.standing hfile
      · rw [hfile] at hs
        exact (Option.some.inj hs).symm.trans (Option.some.inj hstanding).symm

theorem inStep_start {at_ : Driver.Launch} (h : InStep name w)
    (hok : w.keepsInStep name (.start at_) = true) (hst : w.start name at_ = some w') :
    InStep name w' := by
  have hagrees : w.life = .off → w.agrees name = true := fun hlife => by
    have := h.life
    rw [LifeOk, hlife] at this
    exact this
  -- the lines of the last connection are those of an earlier one from now on
  have launched : ∀ status : Option Json, w.life = .off →
      (∀ x ∈ status, ∃ ride, Driver.SavedOn ride x) →
      w.file.standing = status.bind Driver.savedStanding →
      InStep name { w with
        older := w.older ++ [w.wire]
        wire := []
        life := .running (Driver.Process.launched name at_ status).1
          (Driver.Process.launched name at_ status).2 } := by
    intro status hlife hstatus hfile
    have htold : { w with
        older := w.older ++ [w.wire]
        wire := []
        life := .running (Driver.Process.launched name at_ status).1
          (Driver.Process.launched name at_ status).2 }.told name = w.told name := by
      simp [Cab.told, pending]
    refine ⟨h.drivers, h.mailbox, h.saved, ?_, ?_⟩
    · rw [htold]
      exact phase_launched (hagrees hlife) at_ hok status hstatus hfile
    · cases status with
      | none => exact ⟨none, Driver.Process.underway_launched at_⟩
      | some x =>
          obtain ⟨ride, hride⟩ := hstatus x rfl
          exact ⟨ride, Driver.Process.underway_recovered at_ hride⟩
  unfold start at hst
  split at hst
  · next hlife hfile =>
      obtain rfl := Option.some.inj hst
      exact launched none hlife (by simp) (by rw [hfile]; rfl)
  · next status hlife hfile =>
      obtain rfl := Option.some.inj hst
      refine launched (some status) hlife (fun x hx => ?_) (by rw [hfile]; rfl)
      obtain rfl := Option.some.inj hx
      exact h.saved status hfile
  · cases hst

/-- **Every step that does not bring the two apart keeps them in step.** -/
theorem inStep_step (h : InStep name w) (hok : w.keepsInStep name l = true)
    (hst : step N name w l = some w') : InStep name w' := by
  cases l with
  | post m => exact inStep_post h hst
  | handle o => exact inStep_handle h hst
  | deliver => exact inStep_deliver h hok hst
  | deliverOlder i => exact inStep_deliverOlder h hok hst
  | arrives m => exact inStep_arrives h hst
  | recv => exact inStep_recv h hok hst
  | crash k torn kept => exact inStep_crash h hok hst
  | start at_ => exact inStep_start h hok hst

theorem inStep_init (N id : ℕ) : InStep name (init N id) where
  drivers := (lider_wellFormed N id).drivers
  mailbox := by simp [init]
  saved := by simp [init]
  life := agrees_iff.2 (by simp [init, StatusFile.standing])

/-! ## Where a crash brings them apart -/

/-- The next handler has saved that the driver is busy and has not told the leader yet, or it has
    told the leader that the driver is free and has not saved it yet. -/
def splits (w : Cab) (k : ℕ) : Bool :=
  match w.life with
  | .running d (.requestRide _ :: _) => d.isAvailable && decide (k = 2)
  | .running _ (.endRide _ :: _) => decide (k = 1)
  | _ => false

theorem Phase.agrees (h : Phase name told file d mailbox) :
    ∀ st ∈ told, ∀ saved ∈ file.standing, st = saved := by
  induction h with
  | connects _ ih => exact ih
  | @reads d x socket rest _ ih => exact ih _ (Driver.restore_status d x)
  | @registers d r rest _ _ _ htold hfile =>
      intro st hst saved hsaved
      rw [Option.mem_def.1 hst, Option.getD_some] at htold
      exact htold.trans (hfile saved hsaved).symm
  | running _ _ htold hfile =>
      intro st hst saved hsaved
      exact (Option.some.inj (htold.symm.trans hst)).symm.trans
        (Option.some.inj (hfile.symm.trans hsaved))

/-- What is told and what is saved after a crash that loses no line. -/
theorem agrees_crash {k kept : ℕ}
    (hkept : (w.wire ++ Driver.notices (w.nextEffects.take k)).length ≤ kept) :
    (w.crash k false kept).agrees name = true ↔
      ∀ st ∈ ((Driver.notices (w.nextEffects.take k)).map Driver.ServerLine.toMsg).foldl
          (Standing.hear name) (w.told name),
        ∀ saved ∈ (w.file.write (Driver.saves (w.nextEffects.take k))).standing, st = saved := by
  have htold : (w.crash k false kept).told name = (w.emit (w.nextEffects.take k)).told name := by
    have hwire : (w.crash k false kept).wire = (w.emit (w.nextEffects.take k)).wire :=
      List.take_of_length_le hkept
    simp only [Cab.told, pending, hwire]
    rfl
  rw [agrees_iff, htold, told_emit]
  exact Iff.rfl

/-- A crash in a handler that tells the leader nothing about the driver, and saves where it is. -/
theorem agrees_crash_quiet {k kept : ℕ}
    (hkept : (w.wire ++ Driver.notices (w.nextEffects.take k)).length ≤ kept)
    (htold : w.told name = some d.standing) (hfile : w.file.standing = some d.standing)
    (hnotices : Driver.notices w.nextEffects = [])
    (hsaves : ∀ status ∈ Driver.saves w.nextEffects,
      Driver.savedStanding status = some d.standing) :
    (w.crash k false kept).agrees name = true := by
  have hsub := List.take_sublist k w.nextEffects
  have hlines : (Driver.notices (w.nextEffects.take k)).Sublist (Driver.notices w.nextEffects) :=
    (hsub.filterMap _).map _
  have hsaved : (Driver.saves (w.nextEffects.take k)).Sublist (Driver.saves w.nextEffects) :=
    hsub.filterMap _
  rw [hnotices, List.sublist_nil] at hlines
  rw [agrees_crash hkept, hlines, htold, StatusFile.standing_write (fun status hstatus =>
    hsaves status (hsaved.subset hstatus)) fun _ => hfile]
  intro st hst saved hs
  exact (Option.some.inj hst).symm.trans (Option.some.inj hs)

/-- A crash while the driver accepts a ride: the state is saved before the leader is told. -/
theorem agrees_crash_accepts {k kept : ℕ} {r : Driver.RequestRide}
    (hkept : (w.wire ++ Driver.notices (w.nextEffects.take k)).length ≤ kept)
    (hlife : w.life = .running d (.requestRide r :: rest)) (hfree : d.isAvailable = true)
    (hconn : d.serverReceiver.isSome = true) (hname : d.name = name)
    (htold : w.told name = some d.standing) (hfile : w.file.standing = some d.standing) :
    (w.crash k false kept).agrees name = true ↔ k ≠ 2 := by
  have heffects : w.nextEffects = [.passenger r.addr (.ok d.driverSocket), (d.take r).saveState,
      .server d.serverSender (.busyDriver d.name), .trySend .startRide] := by
    have hsend := Driver.sendToServer_up (d := d.take r) hconn (o := Driver.Process.up) rfl
      (.busyDriver d.name)
    rw [Driver.take] at hsend
    simp only [nextEffects, hlife, handler, Driver.handle, Driver.requestRide, hfree, Bool.not_true,
      Bool.false_eq_true, if_false, hsend, Option.map_some, Option.getD_some]
    rfl
  have htaken : (w.file.write [(d.take r).status]).standing = some .busy :=
    Driver.savedStanding_status (d.take r)
  have hbusy : Standing.hear name (some d.standing) (.busyDriver ⟨d.name⟩) = some .busy := by
    subst hname
    exact if_pos rfl
  have hwhole : ∀ n, Driver.notices (List.take (n + 3) w.nextEffects) = [.busyDriver d.name] ∧
      Driver.saves (List.take (n + 3) w.nextEffects) = [(d.take r).status] := by
    intro n
    rw [heffects]
    cases n with
    | zero => exact ⟨rfl, rfl⟩
    | succ n =>
        simp only [List.take_succ_cons, List.take_nil]
        exact ⟨rfl, rfl⟩
  rw [agrees_crash hkept, htold]
  by_cases hlt : k < 2
  · -- nothing is saved and nothing is told
    have hnothing : Driver.notices (List.take k w.nextEffects) = [] ∧
        Driver.saves (List.take k w.nextEffects) = [] := by
      rw [heffects]
      rcases k with _ | _ | k
      · exact ⟨rfl, rfl⟩
      · exact ⟨rfl, rfl⟩
      · omega
    rw [hnothing.1, hnothing.2]
    refine iff_of_true (fun st hst saved hsaved => ?_) (by omega)
    exact (Option.some.inj hst).symm.trans (Option.some.inj (hfile.symm.trans hsaved))
  · by_cases hk : k = 2
    · subst hk
      rw [heffects]
      refine iff_of_false (fun hall => ?_) (by omega)
      have heq := hall d.standing rfl .busy htaken
      rw [Driver.standing_free hfree] at heq
      cases heq
    · obtain ⟨n, rfl⟩ := Nat.exists_eq_add_of_le' (show 3 ≤ k by omega)
      rw [(hwhole n).1, (hwhole n).2]
      refine iff_of_true (fun st hst saved hsaved => ?_) hk
      exact (Option.some.inj (hbusy.symm.trans hst)).symm.trans
        (Option.some.inj (htaken.symm.trans hsaved))

/-- A crash while the driver ends a ride: the leader is told before the state is saved. -/
theorem agrees_crash_ends {k kept : ℕ} {dst : Position}
    (hkept : (w.wire ++ Driver.notices (w.nextEffects.take k)).length ≤ kept)
    (hlife : w.life = .running d (.endRide dst :: rest)) (hbusy : d.isAvailable = false)
    (hconn : d.serverReceiver.isSome = true) (hname : d.name = name)
    (htold : w.told name = some d.standing) (hfile : w.file.standing = some d.standing) :
    (w.crash k false kept).agrees name = true ↔ k ≠ 1 := by
  have heffects : w.nextEffects = [.server d.serverSender (.availableDriver d.name dst),
      (d.free dst).saveState] := by
    have hsend := Driver.sendToServer_up (d := { d with position := dst }) hconn
      (o := Driver.Process.up) rfl (.availableDriver d.name dst)
    simp only [nextEffects, hlife, handler, Driver.handle, Driver.endRide, hsend, Option.map_some,
      Option.getD_some]
    rfl
  have hfreed : (w.file.write [(d.free dst).status]).standing = some (.free dst) :=
    Driver.savedStanding_status (d.free dst)
  have hheard : Standing.hear name (some d.standing) (.updateDriver ⟨dst, d.name⟩)
      = some (.free dst) := by
    subst hname
    rw [Driver.standing_busy hbusy]
    exact if_pos rfl
  rw [agrees_crash hkept, heffects, htold]
  by_cases hk : k = 1
  · subst hk
    refine iff_of_false (fun hall => ?_) (by omega)
    have heq := hall (.free dst) hheard d.standing hfile
    rw [Driver.standing_busy hbusy] at heq
    cases heq
  · refine iff_of_true (fun st hst saved hsaved => ?_) hk
    rcases Nat.eq_zero_or_pos k with rfl | hpos
    · exact (Option.some.inj hst).symm.trans (Option.some.inj (hfile.symm.trans hsaved))
    · rw [List.take_of_length_le (show 2 ≤ k by omega)] at hst hsaved
      exact (Option.some.inj (hheard.symm.trans hst)).symm.trans
        (Option.some.inj (hfreed.symm.trans hsaved))

/-- The other handlers tell the leader nothing, and save where the driver is. -/
theorem nextEffects_quiet (hlife : w.life = .running d (m :: rest))
    (hconn : d.serverReceiver.isSome = true) (hstart : m.isStartUp = false)
    (hrec : m.isReconnect = false) (hfollows : d.follows m = true)
    (hride : m.isRide = true → d.isAvailable = false) (hrequest : ∀ r, m ≠ .requestRide r)
    (hend : ∀ dst, m ≠ .endRide dst) :
    Driver.notices w.nextEffects = [] ∧
      ∀ status ∈ Driver.saves w.nextEffects, Driver.savedStanding status = some d.standing := by
  simp only [nextEffects, hlife]
  cases hh : handler d m with
  | none =>
      rw [Option.map_none, Option.getD_none, notices_beforePanic, saves_beforePanic]
      refine ⟨rfl, fun status hstatus => ?_⟩
      cases m with
      | rideToDestination =>
          rw [List.mem_singleton.1 hstatus]
          exact Driver.savedStanding_status d
      | _ => cases hstatus
  | some result =>
      obtain ⟨t, effects⟩ := result
      rw [Option.map_some, Option.getD_some]
      have hnotes := Driver.handle_notes hconn rfl hstart hrec hfollows hride hh
      generalize Driver.notices effects = lines at hnotes ⊢
      generalize Driver.saves effects = states at hnotes ⊢
      cases hnotes with
      | quiet _ hsaved => exact ⟨rfl, hsaved⟩
      | takes r => exact absurd rfl (hrequest r)
      | ends dst => exact absurd rfl (hend dst)

/-- **A crash that loses no line brings a driver and the leader apart exactly between the two parts
    of a notice.** -/
theorem keepsInStep_crash (h : InStep name w) (hlife : w.life = .running d mailbox)
    (hstarted : ∀ m ∈ mailbox, m.isStartUp = false) {k kept : ℕ}
    (hkept : (w.wire ++ Driver.notices (w.nextEffects.take k)).length ≤ kept) :
    w.keepsInStep name (.crash k false kept) = !w.splits k := by
  have hlifeOk := h.life
  rw [LifeOk, hlife] at hlifeOk
  obtain ⟨hphase, ride, hunder⟩ := hlifeOk
  cases hphase with
  | connects | reads | registers => cases hstarted _ List.mem_cons_self
  | running hconn hname htold hfile hmailbox =>
      have quiet : Driver.notices w.nextEffects = [] →
          (∀ status ∈ Driver.saves w.nextEffects,
            Driver.savedStanding status = some d.standing) →
          w.splits k = false → w.keepsInStep name (.crash k false kept) = !w.splits k :=
        fun hnotices hsaves hsplits => by
          rw [hsplits]
          exact agrees_crash_quiet hkept htold hfile hnotices hsaves
      cases mailbox with
      | nil =>
          have heffects : w.nextEffects = [] := by rw [nextEffects, hlife]
          rw [heffects] at quiet
          exact quiet rfl (by simp [Driver.saves]) (by rw [splits, hlife])
      | cons m rest =>
          cases m with
          | requestRide r =>
              cases hav : d.isAvailable with
              | true =>
                  rw [keepsInStep, Bool.eq_iff_iff,
                    agrees_crash_accepts hkept hlife hav hconn hname htold hfile]
                  simp [splits, hlife, hav]
              | false =>
                  have heffects : w.nextEffects = [.passenger r.addr .no] := by
                    simp [nextEffects, hlife, handler, Driver.handle, Driver.requestRide, hav]
                  rw [heffects] at quiet
                  exact quiet rfl (by simp [Driver.saves]) (by simp [splits, hlife, hav])
          | endRide dst =>
              rw [keepsInStep, Bool.eq_iff_iff, agrees_crash_ends hkept hlife
                (busy_of_ride hunder rfl) hconn hname htold hfile]
              simp [splits, hlife]
          | reconnectPassenger addr position =>
              have heffects : w.nextEffects = [] := by rw [nextEffects, hlife]; rfl
              rw [heffects] at quiet
              exact quiet rfl (by simp [Driver.saves]) (by rw [splits, hlife])
          | _ =>
              obtain ⟨hstart, hrec⟩ := hmailbox _ List.mem_cons_self
              obtain ⟨hnotices, hsaves⟩ := nextEffects_quiet hlife hconn hstart hrec rfl
                (busy_of_ride hunder) (by simp) (by simp)
              exact quiet hnotices hsaves (by rw [splits, hlife])

/-! ## Runs -/

theorem moves_ne {m : Msg} (h : m.client ≠ some (.driver name)) : m.moves ≠ some name := by
  intro hm
  refine h ?_
  cases m with
  | newDriver | busyDriver | updateDriver => exact congrArg some (congrArg _ (Option.some.inj hm))
  | _ => cases hm

/-- A driver in step that has started up, and all of whose messages the leader has handled. -/
theorem InStep.agree (h : InStep name w) (hlife : w.life = .running d mailbox)
    (hstarted : ∀ m ∈ mailbox, m.isStartUp = false)
    (hqueued : ∀ m ∈ w.mailbox, m.client ≠ some (.driver name)) (holder : w.older.flatten = [])
    (hwire : w.wire = []) :
    (name ∈ w.srv.busyDrivers ↔ d.isAvailable = false) ∧
      (d.isAvailable = true →
        (w.srv.driverInfo name).map DriverInfo.position = some d.position) := by
  have hlifeOk := h.life
  rw [LifeOk, hlife] at hlifeOk
  -- nothing is pending, so the leader knows what it is told
  have htold : w.told name = w.srv.standing name := by
    rw [Cab.told, pending, holder, hwire, List.append_nil, List.map_nil, List.append_nil]
    exact Server.foldl_hear_others (fun m hm => moves_ne (hqueued m hm)) _
  have hstanding : w.srv.standing name = some d.standing :=
    htold.symm.trans (hlifeOk.1.told_eq hstarted)
  obtain ⟨hbusy, hfree⟩ := Server.standing_maps h.drivers hstanding
  constructor
  · rw [hbusy, Driver.standing]
    cases d.isAvailable <;> simp
  · exact fun hav => hfree d.position (Driver.standing_free hav)

/-- **Leader and driver agree despite crashes of the driver.** In every run of a leader and a driver
    that may crash at any point of its handlers and is started again, in which every step keeps the
    two in step: once the driver has started up and the leader has handled all its messages, the
    driver is in `busy_drivers` exactly if it is not available, and the leader has an available
    driver where it is. -/
theorem leader_and_driver_agree {id : ℕ} {ls : List Label}
    (h : Run (step N name) (fun w l => w.keepsInStep name l = true) (init N id) ls w)
    (hlife : w.life = .running d mailbox) (hstarted : ∀ m ∈ mailbox, m.isStartUp = false)
    (hqueued : ∀ m ∈ w.mailbox, m.client ≠ some (.driver name)) (holder : w.older.flatten = [])
    (hwire : w.wire = []) :
    (name ∈ w.srv.busyDrivers ↔ d.isAvailable = false) ∧
      (d.isAvailable = true →
        (w.srv.driverInfo name).map DriverInfo.position = some d.position) := by
  have hinStep := h.invariant (P := InStep name) (fun _ _ _ => inStep_step) (inStep_init N id)
  exact hinStep.agree hlife hstarted hqueued holder hwire

/-- A crash hits a driver that has started up, loses none of its lines, leaves the file whole, and
    does not come between the two parts of a notice. -/
def crashesClean (name : String) (w : Cab) : Label → Bool
  | .crash k torn kept =>
    match w.life with
    | .running _ mailbox =>
      mailbox.all (fun m => !m.isStartUp) && !torn &&
        decide ((w.wire ++ Driver.notices (w.nextEffects.take k)).length ≤ kept) && !w.splits k
    | _ => false
  | l => w.keepsInStep name l

theorem InStep.keepsInStep_of_clean (h : InStep name w) (hclean : w.crashesClean name l = true) :
    w.keepsInStep name l = true := by
  cases l with
  | crash k torn kept =>
      rw [crashesClean] at hclean
      split at hclean
      · next d mailbox hlife =>
          simp only [Bool.and_eq_true, List.all_eq_true, Bool.not_eq_true', decide_eq_true_eq]
            at hclean
          obtain ⟨⟨⟨hstarted, rfl⟩, hkept⟩, hsplits⟩ := hclean
          rw [keepsInStep_crash h hlife hstarted hkept, hsplits]
          rfl
      · cases hclean
  | _ => exact hclean

/-- **Leader and driver agree despite clean crashes**: what a crash has to avoid is to be seen from
    the driver alone. -/
theorem agree_of_clean {id : ℕ} {ls : List Label}
    (h : Run (step N name) (fun w l => w.crashesClean name l = true) (init N id) ls w)
    (hlife : w.life = .running d mailbox) (hstarted : ∀ m ∈ mailbox, m.isStartUp = false)
    (hqueued : ∀ m ∈ w.mailbox, m.client ≠ some (.driver name)) (holder : w.older.flatten = [])
    (hwire : w.wire = []) :
    (name ∈ w.srv.busyDrivers ↔ d.isAvailable = false) ∧
      (d.isAvailable = true →
        (w.srv.driverInfo name).map DriverInfo.position = some d.position) := by
  have hinStep := h.invariant (P := InStep name)
    (fun _ _ _ hs hok hst => inStep_step hs (hs.keepsInStep_of_clean hok) hst) (inStep_init N id)
  exact hinStep.agree hlife hstarted hqueued holder hwire

/-- Nothing of `main` and nothing for the leader is left to handle, and `P` holds of the driver. -/
def settled (name : String) (w : Cab) (P : Driver → Bool) : Bool :=
  (match w.life with
    | .running d mailbox => mailbox.all (fun m => !m.isStartUp) && P d
    | _ => false) &&
  w.mailbox.all (fun m => decide (m.client ≠ some (.driver name))) &&
  decide (w.older.flatten = []) && decide (w.wire = [])

theorem settled_iff {P : Driver → Bool} : w.settled name P = true ↔ ∃ d mailbox,
    w.life = .running d mailbox ∧ (∀ m ∈ mailbox, m.isStartUp = false) ∧ P d = true ∧
      (∀ m ∈ w.mailbox, m.client ≠ some (.driver name)) ∧ w.older.flatten = [] ∧ w.wire = [] := by
  unfold settled
  cases w.life <;> simp [and_assoc]

/-- Driver "mario" registers and is asked for a ride. It does what `accept` says, ends with a crash,
    and is started again. -/
def acceptance (accept : List Label) : List Label :=
  [.start ⟨(5, 3), "127.0.0.1:40000", ⟨⟨1, 1⟩, 0⟩⟩, .recv, .recv, .deliver, .handle .up,
    .arrives (.requestRide ⟨7, (6, 4), (7, 5), 1⟩)] ++ accept ++
  [.start ⟨(5, 3), "127.0.0.1:40000", ⟨⟨1, 1⟩, 1⟩⟩, .recv, .recv, .recv, .deliver, .handle .up,
    .deliver, .handle .up, .handle .up, .handle .up]

/-- The driver has told the leader that it is busy when it crashes, and that it is free after the
    ride. -/
theorem leader_and_driver_agree_ride : ∃ (w : Cab) (d : Driver) (mailbox : List Driver.Msg),
    w.life = .running d mailbox ∧ d.position = (7, 5) ∧
      ("mario" ∈ w.srv.busyDrivers ↔ d.isAvailable = false) ∧
      (d.isAvailable = true →
        (w.srv.driverInfo "mario").map DriverInfo.position = some d.position) := by
  obtain ⟨w, hrun, hsettled⟩ := exists_run_of_exec
    (fun (w : Cab) (l : Label) => w.keepsInStep "mario" l) (init 3 1)
    (acceptance [.recv, .deliver, .handle .up, .crash 0 false 0] ++
      [.recv, .recv, .recv, .deliver, .handle .up])
    (fun (w : Cab) => w.settled "mario" fun (d : Driver) => decide (d.position = (7, 5)))
    (show (exec (step 3 "mario") _ _ _).any _ = true by decide +kernel)
  obtain ⟨d, mailbox, hlife, hstarted, hposition, hqueued, holder, hwire⟩ := settled_iff.1 hsettled
  exact ⟨w, d, mailbox, hlife, of_decide_eq_true hposition,
    leader_and_driver_agree hrun hlife hstarted hqueued holder hwire⟩

/-- The driver crashes between `save_state` and `busy_driver`: it takes the ride up again, and the
    leader goes on to offer it to passengers. -/
theorem not_leader_and_driver_agree : ¬ ∀ (ls : List Label) (w : Cab) (d : Driver)
    (mailbox : List Driver.Msg), Run (step 3 "mario") (fun _ _ => True) (init 3 1) ls w →
    w.life = .running d mailbox → (∀ m ∈ mailbox, m.isStartUp = false) →
    (∀ m ∈ w.mailbox, m.client ≠ some (.driver "mario")) → w.older.flatten = [] → w.wire = [] →
    ("mario" ∈ w.srv.busyDrivers ↔ d.isAvailable = false) ∧
      (d.isAvailable = true →
        (w.srv.driverInfo "mario").map DriverInfo.position = some d.position) := by
  intro hall
  obtain ⟨w, hrun, hend⟩ := exists_run_of_exec (fun (_ : Cab) (_ : Label) => true) (init 3 1)
    (acceptance [.crash 2 false 1])
    (fun (w : Cab) => (w.settled "mario" fun (d : Driver) => !d.isAvailable) &&
      decide ("mario" ∉ w.srv.busyDrivers))
    (show (exec (step 3 "mario") _ _ _).any _ = true by decide +kernel)
  rw [Bool.and_eq_true, decide_eq_true_eq] at hend
  obtain ⟨d, mailbox, hlife, hstarted, hbusy, hqueued, holder, hwire⟩ := settled_iff.1 hend.1
  have hagree := hall _ w d mailbox (hrun.mono fun _ _ _ => trivial) hlife hstarted hqueued holder
    hwire
  exact hend.2 (hagree.1.2 (by simpa using hbusy))

end Cab

end ConcuRide
