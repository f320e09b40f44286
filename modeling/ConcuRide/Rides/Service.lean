import ConcuRide.Rides.Town

set_option autoImplicit false

/-! # The service, while nothing goes wrong

The registry is a little behind the drivers, and the list a passenger looks through is a little
behind the registry. The token of the search tells where that list is: it is asked for, it is on its
way, or it is the passenger's own. At every moment the drivers that the passenger may still dial,
and those it has dialled, are all the free ones that the leader knew when it answered. -/

namespace ConcuRide

open Lib

/-! ## Lists -/

namespace Passenger

def Msg.isGetDrivers : Msg → Bool
  | .getDrivers => true
  | _ => false

/-- The message is a list of drivers. -/
def Msg.isList : Msg → Bool
  | .drivers _ => true
  | _ => false

def Msg.isKeepLooking : Msg → Bool
  | .keepLooking => true
  | _ => false

theorem countP_search (box : List Msg) :
    box.countP Msg.isGetDrivers + box.countP Msg.isList + box.countP Msg.isKeepLooking ≤
      box.countP Msg.isToken := by
  induction box with
  | nil => exact Nat.le_refl 0
  | cons m box ih =>
      have hone : m.isGetDrivers.toNat + m.isList.toNat + m.isKeepLooking.toNat ≤
          m.isToken.toNat := by
        cases m <;> first | exact Nat.zero_le _ | exact Nat.le_refl 1
      simp only [countP_cons_toNat]
      omega

theorem getDrivers_asks {distance : Position → Position → ℕ} {o : Oracle} {p t : Passenger}
    {m : Msg} {effects : List Effect} (h : p.handle distance o m = some (t, effects)) :
    m.isGetDrivers.toNat ≤ (serverLines effects).countP ServerLine.isGetDrivers := by
  cases m with
  | getDrivers =>
      obtain ⟨rfl, rfl⟩ := Prod.mk.inj (Option.some.inj h)
      unfold sendToServer
      split <;> exact Nat.le_refl 1
  | _ => exact Nat.zero_le _

end Passenger

/-- A free driver of the registry is in the list that the leader writes. -/
theorem Server.mem_offered {s : Server} {name socket : String} {position : Position}
    (h : s.profile name = some ⟨socket, position, false⟩) :
    (⟨socket, position⟩ : Passenger.DriverInfo) ∈
      s.drivers.values.map DriverInfo.forPassenger := by
  cases hfree : s.drivers.lookup name with
  | none =>
      rw [profile, hfree] at h
      cases hbusy : s.busyDrivers.lookup name <;> rw [hbusy] at h <;> cases h
  | some d =>
      rw [profile, hfree] at h
      obtain ⟨rfl, rfl⟩ : d.socket = socket ∧ d.position = position := by simpa using h
      refine List.mem_map.2 ⟨d, List.mem_map.2 ⟨⟨name, d⟩, AList.mem_lookup_iff.1 hfree, rfl⟩, rfl⟩

namespace Town

/-- The mailbox of the passenger. -/
def box (w : Town) : List Passenger.Msg := w.trip.world.passenger.elim [] Prod.snd

/-- How often the passenger asks for the drivers without having been answered. -/
def asking (me : Addr) (w : Town) : ℕ :=
  w.box.countP Passenger.Msg.isGetDrivers + w.requests.countP Passenger.ServerLine.isGetDrivers +
    w.mailbox.countP (Msg.isQuery me)

/-- How many lists are on their way to the passenger, or wait in its mailbox. -/
def lists (w : Town) : ℕ :=
  w.replies.countP Line.isDrivers + w.box.countP Passenger.Msg.isList

/-- The list is on its way to the passenger, or waits in its mailbox. -/
def Listed (w : Town) (driversInfo : List Passenger.DriverInfo) : Prop :=
  (∃ infos, .drivers infos ∈ w.replies ∧ infos.map DriverInfo.forPassenger = driversInfo) ∨
    .drivers driversInfo ∈ w.box

/-- The list of the passenger, wherever it is, and the drivers it has dialled are all the free ones
    that the leader knew in `w₀`. -/
structure Informed (w₀ w : Town) (p : Passenger) : Prop where
  listed : ∀ driversInfo, w.Listed driversInfo → w₀.CoveredBy (driversInfo ++ w.dialled)
  own : (∀ driversInfo, ¬ w.Listed driversInfo) → w₀.CoveredBy (p.driversInfo ++ w.dialled)

/-- The invariant of the leader and the passenger. -/
structure Answered (me : Addr) (past : List Town) (w : Town) : Prop where
  asks : w.trip.world.asks.length = w.requests.countP Passenger.ServerLine.isGetDrivers +
    w.mailbox.countP (Msg.isQuery me) + w.replies.countP Line.isDrivers
  replies : ∀ socket, .reconnectDriver socket ∉ w.replies
  informed : ∀ p box, w.trip.world.passenger = some (p, box) → w.asking me = 0 →
    ∃ w₀, LastAnswer me past w₀ ∧ w₀.Informed w p

variable {N : ℕ} {me : Addr} {distance : Position → Position → ℕ} {own : ℕ → Bool} {name : String}
  {w w₀ w' : Town} {past : List Town} {d : String} {p t : Passenger}
  {mailbox : List Passenger.Msg} {driversInfo new : List Passenger.DriverInfo}

/-! ## Where the list is -/

theorem CoveredBy.mono (h : w.CoveredBy driversInfo) (hsub : ∀ e ∈ driversInfo, e ∈ new) :
    w.CoveredBy new := fun d a hknows hfree => hsub _ (h d a hknows hfree)

theorem lists_pos (h : w.Listed driversInfo) : 1 ≤ w.lists := by
  rcases h with ⟨infos, hmem, -⟩ | hmem
  · exact Nat.le_add_right_of_le (List.countP_pos_iff.2 ⟨_, hmem, rfl⟩)
  · exact Nat.le_add_left_of_le (List.countP_pos_iff.2 ⟨_, hmem, rfl⟩)

/-- There is one token of the search. -/
theorem Answered.one (h : w.Answered me past) (htrip : w.trip.Sound distance own) :
    w.asking me + w.lists + w.box.countP Passenger.Msg.isKeepLooking ≤ 1 := by
  have hone : w.trip.searches own none ≤ 1 := htrip.search.atMost.le_one none
  have htokens := Passenger.countP_search w.box
  have hasks := h.asks
  simp only [Trip.searches, World.search] at hone
  simp only [asking, lists, box] at htokens ⊢
  omega

theorem Informed.congr {q : Passenger} (h : w₀.Informed w q)
    (hlisted : ∀ driversInfo, w'.Listed driversInfo ↔ w.Listed driversInfo)
    (hdialled : w'.dialled = w.dialled) (hlist : p.driversInfo = q.driversInfo) :
    w₀.Informed w' p where
  listed := fun driversInfo hl => hdialled ▸ h.listed driversInfo ((hlisted driversInfo).1 hl)
  own := fun hnone => by
    rw [hdialled, hlist]
    exact h.own fun driversInfo hl => hnone driversInfo ((hlisted driversInfo).2 hl)

theorem not_answers (h : w.asking me = 0) : ¬ w.Answers me := by
  rintro ⟨rest, hmailbox⟩
  rw [asking, hmailbox, List.countP_cons] at h
  simp [Msg.isQuery] at h

theorem LastAnswer.snoc (h : LastAnswer me past w₀) (hw : ¬ w.Answers me) :
    LastAnswer me (past ++ [w]) w₀ := by
  obtain ⟨before, after, rfl, hfirst, hafter⟩ := h
  refine ⟨before, after ++ [w], by simp, hfirst, ?_⟩
  exact List.forall_mem_append.2 ⟨hafter, List.forall_mem_singleton.2 hw⟩

/-- A step that the search only gets on with. -/
theorem Answered.keeps (hs : w.Answered me past)
    (hasks : w'.trip.world.asks.length =
      w'.requests.countP Passenger.ServerLine.isGetDrivers + w'.mailbox.countP (Msg.isQuery me) +
        w'.replies.countP Line.isDrivers)
    (hreplies : ∀ socket, .reconnectDriver socket ∉ w'.replies)
    (hinformed : ∀ p box, w'.trip.world.passenger = some (p, box) → w'.asking me = 0 →
      w.asking me = 0 ∧ ∃ q old, w.trip.world.passenger = some (q, old) ∧
        ∀ w₀ : Town, w₀.Informed w q → w₀.Informed w' p) :
    w'.Answered me (past ++ [w]) where
  asks := hasks
  replies := hreplies
  informed := fun p box hp hnone => by
    obtain ⟨hbefore, q, old, hq, himp⟩ := hinformed p box hp hnone
    obtain ⟨w₀, hlast, hw₀⟩ := hs.informed q old hq hbefore
    exact ⟨w₀, hlast.snoc (not_answers hbefore), himp w₀ hw₀⟩

/-! ## What the leader knows -/

theorem Knows.standing {a : Driver} (h : w.Knows d a) (hs : w.Registry) :
    w.srv.standing d = some a.standing := by
  obtain ⟨box, hactor, hstarted⟩ := h.running
  obtain ⟨file, hphase⟩ := (hs.follows d a box hactor).phase
  rw [← hphase.told_eq hstarted, told, pending, h.wire, List.map_nil, List.append_nil]
  exact (Server.foldl_hear_others h.mailbox _).symm

/-- The leader has a free driver that it knows where the driver is. -/
theorem Knows.profile {a : Driver} (h : w.Knows d a) (hs : w.Registry)
    (hfree : a.isAvailable = true) :
    w.srv.profile d = some ⟨a.driverSocket, a.position, false⟩ := by
  have hstanding := h.standing hs
  obtain ⟨box, hactor, -⟩ := h.running
  rw [Driver.standing_free hfree, Server.standing] at hstanding
  obtain ⟨⟨socket, position, busy⟩, hp, hfree'⟩ := Option.map_eq_some_iff.1 hstanding
  have hsocket : socket = a.driverSocket :=
    (hs.follows d a box hactor).socket socket (.inl ⟨_, hp, rfl⟩)
  cases busy with
  | true => cases hfree'
  | false =>
      obtain rfl : position = a.position := Standing.free.inj hfree'
      rw [hp, hsocket]

/-- **The list that the leader writes** has every free driver that it knows. -/
theorem coveredBy_values (hs : w.Registry) :
    w.CoveredBy (w.srv.drivers.values.map DriverInfo.forPassenger) := fun _ _ hknows hfree =>
  Server.mem_offered (hknows.profile hs hfree)

/-! ## Steps of the leader -/

/-- The leader answers the passenger. -/
theorem answered_query {o : Oracle} {rest : List Msg} {srv : Server} {effects : List Effect}
    (hs : w.Answered me past) (hregistry : w.Registry) (htrip : w.trip.Sound distance own)
    (hmailbox : w.mailbox = .getDrivers me :: rest)
    (hh : w.srv.handle N o (.getDrivers me) = some (srv, effects)) : Answered me (past ++ [w])
      { w with
        srv := srv
        mailbox := rest ++ selfMessages effects
        replies := w.replies ++ Server.linesTo me effects
        dialled := [] } := by
  obtain ⟨rfl, rfl⟩ := Prod.mk.inj (Option.some.inj hh)
  have hline : Server.linesTo me [.tcp me (.drivers w.srv.drivers.values)] =
      [.drivers w.srv.drivers.values] := by simp [Server.linesTo]
  have hquery : w.mailbox.countP (Msg.isQuery me) = rest.countP (Msg.isQuery me) + 1 := by
    rw [hmailbox, List.countP_cons_of_pos (by simp [Msg.isQuery])]
  -- the token is with the question, so that no other list is on its way
  have hnone : ∀ driversInfo, ¬ w.Listed driversInfo := fun driversInfo hl => by
    have hone := hs.one htrip
    have hpos := lists_pos hl
    simp only [asking, hquery] at hone
    omega
  constructor
  case asks =>
    have hasks := hs.asks
    simp only [hline, List.countP_append, hquery, selfMessages] at hasks ⊢
    simp only [List.filterMap_cons, List.filterMap_nil, List.countP_nil, List.countP_cons,
      Line.isDrivers, if_true]
    omega
  case replies =>
    intro socket hmem
    rw [hline] at hmem
    rcases List.mem_append.1 hmem with hold | hnew
    · exact hs.replies socket hold
    · cases List.mem_singleton.1 hnew
  case informed =>
    intro p box _ _
    refine ⟨w, ⟨past, [], rfl, ⟨rest, hmailbox⟩, by simp⟩, fun driversInfo hl => ?_, fun hno => ?_⟩
    · have hnew : w.srv.drivers.values.map DriverInfo.forPassenger = driversInfo := by
        rcases hl with ⟨infos, hmem, hinfos⟩ | hmem
        · rw [hline] at hmem
          rcases List.mem_append.1 hmem with hold | hnew
          · exact absurd (.inl ⟨infos, hold, hinfos⟩) (hnone driversInfo)
          · rw [Line.drivers.inj (List.mem_singleton.1 hnew)] at hinfos
            exact hinfos
        · exact absurd (.inr hmem) (hnone driversInfo)
      rw [← hnew, List.append_nil]
      exact coveredBy_values hregistry
    · refine absurd (.inl ⟨_, ?_, rfl⟩) (hno (w.srv.drivers.values.map DriverInfo.forPassenger))
      rw [hline]
      exact List.mem_append_right _ List.mem_cons_self

/-- The leader handles another message. -/
theorem answered_handle {o : Oracle} {m : Msg} {rest : List Msg} {srv : Server}
    {effects : List Effect} (hs : w.Answered me past) (hregistry : w.Registry)
    (hmailbox : w.mailbox = m :: rest) (hm : m.isQuery me = false)
    (hh : w.srv.handle N o m = some (srv, effects)) : Answered me (past ++ [w])
      { w with
        srv := srv
        mailbox := rest ++ selfMessages effects
        replies := w.replies ++ Server.linesTo me effects } := by
  have hlines : (Server.linesTo me effects).countP Line.isDrivers = 0 := by
    rw [Server.countP_drivers hh, hm]
    rfl
  have hself : (selfMessages effects).countP (Msg.isQuery me) = 0 :=
    List.countP_eq_zero.2 fun x hx hquery => by
      cases x with
      | getDrivers =>
          obtain ⟨u, hu, -⟩ := Server.self_of_registry hh hx rfl
          cases hu
      | _ => cases hquery
  have hqueries : (rest ++ selfMessages effects).countP (Msg.isQuery me) =
      w.mailbox.countP (Msg.isQuery me) := by
    rw [List.countP_append, hself, hmailbox, List.countP_cons_of_neg (by simp [hm])]
    rfl
  have hdrivers : (w.replies ++ Server.linesTo me effects).countP Line.isDrivers =
      w.replies.countP Line.isDrivers := by rw [List.countP_append, hlines]; rfl
  refine hs.keeps ?_ (fun socket hmem => ?_) fun p old hp hnone =>
    ⟨?_, p, old, hp, fun w₀ hw₀ => hw₀.congr (fun driversInfo => ?_) rfl rfl⟩
  · simp only [hqueries, hdrivers]
    exact hs.asks
  · rcases List.mem_append.1 hmem with hold | hnew
    · exact hs.replies socket hold
    · generalize hline : Line.reconnectDriver socket = line at hnew
      cases Server.handle_writes hh (Server.mem_linesTo hnew) with
      | reconnects e => exact hregistry.comebacks _ (hmailbox ▸ List.mem_cons_self) e rfl
      | drivers | id | copy => cases hline
  · simpa only [asking, hqueries, box] using hnone
  · refine or_congr_left (exists_congr fun infos => and_congr_left fun _ => ?_)
    rw [List.mem_append]
    refine or_iff_left fun hmem => ?_
    exact List.countP_eq_zero.1 hlines _ hmem rfl

/-- Another message reaches the leader. -/
theorem answered_post {m : Msg} (hs : w.Answered me past) (hm : m.isQuery me = false)
    (htrip : w'.trip = w.trip) (hmailbox : w'.mailbox = w.mailbox ++ [m])
    (hrequests : w'.requests = w.requests) (hreplies : w'.replies = w.replies)
    (hdialled : w'.dialled = w.dialled) : w'.Answered me (past ++ [w]) := by
  have hqueries : w'.mailbox.countP (Msg.isQuery me) = w.mailbox.countP (Msg.isQuery me) := by
    rw [hmailbox, List.countP_append, List.countP_cons_of_neg (by simp [hm])]
    rfl
  refine hs.keeps ?_ (hreplies ▸ hs.replies) fun p old hp hnone =>
    ⟨?_, p, old, htrip ▸ hp, fun w₀ hw₀ => hw₀.congr (fun driversInfo => ?_) hdialled rfl⟩
  · rw [hqueries, htrip, hrequests, hreplies]
    exact hs.asks
  · rwa [asking, hqueries, box, htrip, hrequests] at hnone
  · rw [Listed, Listed, box, box, htrip, hreplies]

/-- The question of the passenger reaches the leader. -/
theorem answered_asks {line : Passenger.ServerLine} {rest : List Passenger.ServerLine}
    (hs : w.Answered me past) (hrequests : w.requests = line :: rest) :
    Answered me (past ++ [w]) { w with
      mailbox := w.mailbox ++ [line.toMsg me]
      requests := rest } := by
  have hquery : (line.toMsg me).isQuery me = line.isGetDrivers := by
    cases line with
    | getDrivers => exact decide_eq_true rfl
    | login => rfl
  have hmoves : rest.countP Passenger.ServerLine.isGetDrivers +
        (w.mailbox ++ [line.toMsg me]).countP (Msg.isQuery me) =
      w.requests.countP Passenger.ServerLine.isGetDrivers +
        w.mailbox.countP (Msg.isQuery me) := by
    simp only [List.countP_append, hrequests, countP_cons_toNat, List.countP_nil, hquery]
    omega
  refine hs.keeps ?_ hs.replies fun p old hp hnone =>
    ⟨?_, p, old, hp, fun w₀ hw₀ => hw₀.congr (fun driversInfo => Iff.rfl) rfl rfl⟩
  · simp only [hmoves]
    exact hs.asks
  · simp only [asking] at hnone ⊢
    simp only [box] at hnone ⊢
    omega

/-! ## Steps of the passenger -/

/-- Messages that have nothing to do with lists reach the passenger, or nothing does. -/
theorem answered_quiet (hs : w.Answered me past) (ms : List Passenger.Msg)
    (hpassenger : w'.trip.world.passenger = w.trip.world.passenger.map fun a => (a.1, a.2 ++ ms))
    (hms : ∀ m ∈ ms, m.isGetDrivers = false ∧ m.isList = false)
    (hasks : w'.trip.world.asks = w.trip.world.asks) (hrequests : w'.requests = w.requests)
    (hmailbox : w'.mailbox = w.mailbox) (hlines : ∀ line ∈ w'.replies, line ∈ w.replies)
    (hdrivers : w'.replies.filter Line.isDrivers = w.replies.filter Line.isDrivers)
    (hdialled : w'.dialled = w.dialled) : w'.Answered me (past ++ [w]) := by
  have hcount : w'.replies.countP Line.isDrivers = w.replies.countP Line.isDrivers := by
    rw [List.countP_eq_length_filter, hdrivers, ← List.countP_eq_length_filter]
  have hreply : ∀ infos, .drivers infos ∈ w'.replies ↔ .drivers infos ∈ w.replies := fun infos => by
    have hmem : .drivers infos ∈ w'.replies.filter Line.isDrivers ↔
        .drivers infos ∈ w.replies.filter Line.isDrivers := by rw [hdrivers]
    simpa [List.mem_filter, Line.isDrivers] using hmem
  refine hs.keeps ?_ (fun socket hmem => hs.replies socket (hlines _ hmem)) fun p new hp hnone => ?_
  · rw [hasks, hrequests, hmailbox, hcount]
    exact hs.asks
  · rw [hpassenger] at hp
    obtain ⟨⟨q, old⟩, hq, heq⟩ := Option.map_eq_some_iff.1 hp
    obtain ⟨rfl, rfl⟩ := Prod.mk.inj heq
    have hbox : w'.box = w.box ++ ms := by
      rw [box, box, hpassenger, hq]
      rfl
    refine ⟨?_, q, old, hq, fun w₀ hw₀ => hw₀.congr (fun driversInfo => ?_) hdialled rfl⟩
    · rw [asking, hbox, hrequests, hmailbox, List.countP_append] at hnone
      rw [asking]
      omega
    · rw [Listed, Listed, hbox, List.mem_append]
      refine or_congr (exists_congr fun infos => and_congr_left fun _ => hreply infos) ?_
      exact or_iff_left fun hmem => Bool.noConfusion (hms _ hmem).2

/-- A list reaches the passenger. -/
theorem answered_list {infos : List DriverInfo} {rest : List Line} (hs : w.Answered me past)
    (hreplies : w.replies = .drivers infos :: rest)
    (hactor : w.trip.world.passenger = some (p, mailbox))
    (hactor' : w'.trip.world.passenger =
      some (p, mailbox ++ [.drivers (infos.map DriverInfo.forPassenger)]))
    (hasks : w'.trip.world.asks = w.trip.world.asks.eraseIdx 0)
    (hrequests : w'.requests = w.requests) (hmailbox : w'.mailbox = w.mailbox)
    (hreplies' : w'.replies = rest) (hdialled : w'.dialled = w.dialled) : w'.Answered me (past ++ [w]) := by
  have hbox : w'.box = w.box ++ [.drivers (infos.map DriverInfo.forPassenger)] := by
    rw [box, box, hactor, hactor']
    rfl
  have hbefore := hs.asks
  rw [hreplies, List.countP_cons_of_pos (by rfl)] at hbefore
  refine hs.keeps ?_ (fun socket hmem => ?_) fun q new hq hnone => ?_
  · rw [hasks, hrequests, hmailbox, hreplies', List.length_eraseIdx_of_lt (by omega)]
    omega
  · exact hs.replies socket (hreplies ▸ List.mem_cons_of_mem _ (hreplies' ▸ hmem))
  · obtain ⟨rfl, rfl⟩ := Prod.mk.inj (Option.some.inj (hactor'.symm.trans hq))
    refine ⟨?_, p, mailbox, hactor, fun w₀ hw₀ => hw₀.congr (fun driversInfo => ?_) hdialled rfl⟩
    · rw [asking, hbox, hrequests, hmailbox, List.countP_append] at hnone
      rw [asking]
      omega
    · rw [Listed, Listed, hbox, hreplies', hreplies]
      simp only [List.mem_cons, List.mem_append, List.not_mem_nil, or_false,
        Passenger.Msg.drivers.injEq, Line.drivers.injEq]
      constructor
      · rintro (⟨x, hx, rfl⟩ | hold | rfl)
        · exact .inl ⟨x, .inr hx, rfl⟩
        · exact .inr hold
        · exact .inl ⟨infos, .inl rfl, rfl⟩
      · rintro (⟨x, rfl | hx, rfl⟩ | hold)
        · exact .inr (.inr rfl)
        · exact .inl ⟨x, hx, rfl⟩
        · exact .inr (.inl hold)

/-- The passenger handles a message. -/
theorem answered_recv {o : Passenger.Oracle} {m : Passenger.Msg} {rest : List Passenger.Msg}
    {effects : List Passenger.Effect} (hs : w.Answered me past) (htrip : w.trip.Sound distance own)
    (hactor : w.trip.world.passenger = some (p, m :: rest))
    (hh : p.handle distance o m = some (t, effects))
    (hactor' : w'.trip.world.passenger = some (t, rest ++ Passenger.selfMessages effects))
    (hasks : w'.trip.world.asks.length = w.trip.world.asks.length + Passenger.asks effects)
    (hrequests : w'.requests = w.requests ++ Passenger.serverLines effects)
    (hmailbox : w'.mailbox = w.mailbox) (hreplies : w'.replies = w.replies)
    (hdialled : w'.dialled = w.dialled ++ p.contacts distance m) :
    w'.Answered me (past ++ [w]) := by
  have hbox : w.box = m :: rest := by rw [box, hactor]; rfl
  have hbox' : w'.box = rest ++ Passenger.selfMessages effects := by rw [box, hactor']; rfl
  have hask := Passenger.getDrivers_asks hh
  refine hs.keeps ?_ (hreplies ▸ hs.replies) fun q new hq hnone => ?_
  · have hbefore := hs.asks
    rw [hasks, hrequests, hmailbox, hreplies, List.countP_append, Passenger.asks_eq]
    omega
  · obtain ⟨rfl, rfl⟩ := Prod.mk.inj (Option.some.inj (hactor'.symm.trans hq))
    have hbefore : w.asking me = 0 := by
      rw [asking, hbox', hrequests, hmailbox, List.countP_append, List.countP_append] at hnone
      rw [asking, hbox, countP_cons_toNat]
      omega
    refine ⟨hbefore, p, _, hactor, fun w₀ hw₀ => ?_⟩
    have hgrows : ∀ {driversInfo}, w₀.CoveredBy (driversInfo ++ w.dialled) →
        w₀.CoveredBy (driversInfo ++ w'.dialled) := fun {driversInfo} h => h.mono fun e he => by
      rw [hdialled]
      rcases List.mem_append.1 he with he | he
      · exact List.mem_append_left _ he
      · exact List.mem_append_right _ (List.mem_append_left _ he)
    by_cases hm : ∃ infos, m = .drivers infos
    · obtain ⟨infos, rfl⟩ := hm
      have hpicks := Passenger.drivers_picks hh
      have hcover : w₀.CoveredBy (t.driversInfo ++ w'.dialled) := by
        refine (hw₀.listed infos (.inr (hbox ▸ List.mem_cons_self))).mono fun e he => ?_
        rw [hdialled]
        rcases List.mem_append.1 he with he | he
        · rcases List.mem_append.1 (hpicks.perm.mem_iff.2 he) with hnow | hleft
          · exact List.mem_append_right _ (List.mem_append_right _ hnow)
          · exact List.mem_append_left _ hleft
        · exact List.mem_append_right _ (List.mem_append_left _ he)
      refine ⟨fun driversInfo hl => ?_, fun _ => hcover⟩
      rcases hl with ⟨x, hx, rfl⟩ | hmem
      · exact hgrows (hw₀.listed _ (.inl ⟨x, hreplies ▸ hx, rfl⟩))
      · rw [hbox'] at hmem
        rcases List.mem_append.1 hmem with hold | hnew
        · exact hgrows (hw₀.listed _ (.inr (hbox ▸ List.mem_cons_of_mem _ hold)))
        · exact hpicks.queued driversInfo hnew ▸ hcover
    · have hm : ∀ infos, m ≠ .drivers infos := fun infos heq => hm ⟨infos, heq⟩
      have hlist := Passenger.handle_driversInfo hh hm
      have hsearches := Passenger.handle_searches hh
      refine ⟨fun driversInfo hl => ?_, fun hno => ?_⟩
      · rcases hl with ⟨x, hx, rfl⟩ | hmem
        · exact hgrows (hw₀.listed _ (.inl ⟨x, hreplies ▸ hx, rfl⟩))
        · rw [hbox'] at hmem
          rcases List.mem_append.1 hmem with hold | hnew
          · exact hgrows (hw₀.listed _ (.inr (hbox ▸ List.mem_cons_of_mem _ hold)))
          · -- the token is with the `KeepLooking`, so that no list is on its way
            obtain ⟨rfl, rfl⟩ := hsearches.drivers hm hnew
            refine hgrows (hw₀.own fun driversInfo hl => ?_)
            have hone := hs.one htrip
            have hpos := lists_pos hl
            have hkeep : 1 ≤ w.box.countP Passenger.Msg.isKeepLooking :=
              List.countP_pos_iff.2 ⟨_, hbox ▸ List.mem_cons_self, rfl⟩
            omega
      · rw [hlist]
        refine hgrows (hw₀.own fun driversInfo hl => hno driversInfo ?_)
        rcases hl with ⟨x, hx, rfl⟩ | hmem
        · exact .inl ⟨x, hreplies.symm ▸ hx, rfl⟩
        · rw [hbox] at hmem
          rcases List.mem_cons.1 hmem with rfl | hold
          · exact absurd rfl (hm driversInfo)
          · exact .inr (hbox' ▸ List.mem_append_left _ hold)

/-- A step of the passenger and the drivers. -/
theorem answered_ride {l : World.Label} (hs : w.Answered me past)
    (htrip : w.trip.Sound distance own) (hl : l.isReply = false)
    (hok : w.trip.world.undisturbed own l = true) (h : w.ride distance own name l = some w')
    (hhealthy : w'.trip.world.Healthy) : w'.Answered me (past ++ [w]) := by
  obtain ⟨world, hworld, hw'⟩ := ride_eq h
  -- a step of a driver, or of what is on its way between the passenger and the drivers
  have quiet : (∀ o x, l ≠ .recv o x) → ∀ ms : List Passenger.Msg,
      w'.trip.world.passenger = w.trip.world.passenger.map (fun a => (a.1, a.2 ++ ms)) →
      (∀ m ∈ ms, m.isGetDrivers = false ∧ m.isList = false) →
      w'.trip.world.asks = w.trip.world.asks → w'.Answered me (past ++ [w]) :=
    fun hne ms hpassenger hms hasks => by
      have hnothing : w.trip.world.effects distance l = [] ∧
          w.trip.world.contacts distance l = [] := by
        cases l with
        | recv o x => exact absurd rfl (hne o x)
        | _ => exact ⟨rfl, rfl⟩
      have hrequests : w'.requests = w.requests := by
        rw [hw', hnothing.1]
        exact List.append_nil _
      have hdialled : w'.dialled = w.dialled := by
        rw [hw', hnothing.2]
        exact List.append_nil _
      have hreplies : w'.replies = w.replies := by rw [hw']
      exact answered_quiet hs ms hpassenger hms hasks hrequests (by rw [hw'])
        (fun line hline => hreplies ▸ hline) (by rw [hreplies]) hdialled
  have same : w.trip.world.passenger =
      w.trip.world.passenger.map fun a => (a.1, a.2 ++ []) := by
    cases w.trip.world.passenger <;> simp
  cases World.step_cases hworld with
  | handles hactor hlink hh =>
      subst hw'
      refine answered_recv hs htrip hactor hh rfl ?_ ?_ rfl rfl ?_
      · simp [World.handled, htrip.dead]
      · rw [Trip.effects_recv hactor hh]
      · simp only [World.contacts, hactor]
  | panics =>
      rw [hw'] at hhealthy
      exact absurd hhealthy World.not_healthy_panicked
  | notice | answer => cases hl
  | @gateway isAuthorized _ _ hnext =>
      obtain ⟨⟨p, old⟩, hactor, rfl⟩ := Option.map_eq_some_iff.1 hnext
      have hactor : w.trip.world.passenger = some (p, old) := hactor
      refine quiet (by simp) (Passenger.paymentAuthorizationStatus isAuthorized) ?_ ?_ (by rw [hw'])
      · rw [hw', hactor]
        rfl
      · cases isAuthorized <;>
          simp [Passenger.paymentAuthorizationStatus, Passenger.Msg.isGetDrivers,
            Passenger.Msg.isList]
  | @toPassenger _ _ line p old _ hactor =>
      refine quiet (by simp) [line.toMsg] ?_ ?_ (by rw [hw'])
      · rw [hw', hactor]
        rfl
      · cases line <;> exact List.forall_mem_singleton.2 ⟨rfl, rfl⟩
  | toDriver | drives | foreign | startDriver =>
      exact quiet (by simp) [] (by rw [hw']; exact same) (by simp) (by rw [hw']; rfl)
  | linkDies | crashPassenger | restartPassenger | crashDriver => cases hok

/-- A line of the leader reaches the passenger. -/
theorem answered_hears {line : Line} {rest : List Line} {l : World.Label}
    (hs : w.Answered me past) (hreplies : w.replies = line :: rest) (hline : line.label = some l)
    (h : { w with replies := rest }.ride distance own name l = some w') :
    w'.Answered me (past ++ [w]) := by
  obtain ⟨world, hworld, rfl⟩ := ride_eq h
  have hrest : ∀ x ∈ rest, x ∈ w.replies := fun x hx => hreplies ▸ List.mem_cons_of_mem line hx
  cases line with
  | drivers infos =>
      obtain rfl := Option.some.inj hline
      cases World.step_cases hworld with
      | answer _ hnext =>
          obtain ⟨⟨p, old⟩, hactor, rfl⟩ := Option.map_eq_some_iff.1 hnext
          exact answered_list hs hreplies hactor rfl rfl (List.append_nil _) rfl rfl
            (List.append_nil _)
  | identificador id =>
      obtain rfl := Option.some.inj hline
      cases World.step_cases hworld with
      | notice _ hnext =>
          obtain ⟨⟨p, old⟩, hactor, rfl⟩ := Option.map_eq_some_iff.1 hnext
          refine answered_quiet hs [.completeLogin id] ?_
            (List.forall_mem_singleton.2 ⟨rfl, rfl⟩) rfl (List.append_nil _) rfl hrest ?_
            (List.append_nil _)
          · rw [show w.trip.world.passenger = some (p, old) from hactor]
            rfl
          · rw [hreplies, List.filter_cons_of_neg (by simp [Line.isDrivers])]
  | reconnectDriver socket => exact absurd (hreplies ▸ List.mem_cons_self) (hs.replies socket)
  | pong => cases hline

/-- The passenger drops a line. -/
theorem answered_drops {line : Line} {rest : List Line} (hs : w.Answered me past)
    (hreplies : w.replies = line :: rest) (hline : line.label = none) :
    Answered me (past ++ [w]) { w with replies := rest } := by
  have hdrivers : line.isDrivers = false := by
    cases line with
    | drivers => cases hline
    | _ => rfl
  refine answered_quiet hs [] ?_ (by simp) rfl rfl rfl
    (fun x hx => hreplies ▸ List.mem_cons_of_mem line hx) ?_ rfl
  · cases w.trip.world.passenger <;> simp
  · rw [hreplies, List.filter_cons_of_neg (by simp [hdrivers])]

/-! ## Runs -/

/-- The invariant of an undisturbed run. -/
structure Sound (distance : Position → Position → ℕ) (own : ℕ → Bool) (me : Addr)
    (past : List Town) (w : Town) : Prop where
  world : w.trip.world.Sound own
  trip : w.trip.Sound distance own
  registry : w.Registry
  answered : w.Answered me past

/-- The line of a leader changes nothing but the mailbox of the passenger. -/
theorem healthy_of_reply {world : World} {l : World.Label} (hl : l.isReply = true)
    (h : w.trip.world.step distance own name l = some world) (hhealthy : world.Healthy) :
    w.trip.world.Healthy := by
  cases World.step_cases h with
  | notice _ hnext | answer _ hnext =>
      have hruns := World.enqueue_isSome hnext
      obtain ⟨a, -, rfl⟩ := Option.map_eq_some_iff.1 hnext
      exact ⟨hruns, hhealthy.drivers⟩
  | _ => cases hl

theorem isReply_of_label {line : Line} {l : World.Label} (h : line.label = some l) :
    l.isReply = true := by
  cases line with
  | pong => cases h
  | _ =>
      obtain rfl := Option.some.inj h
      rfl

/-- Nobody who has stopped runs again. -/
theorem healthy_of_step {l : Label} (hok : w.undisturbed own l = true)
    (h : step N me distance own name w l = some w') (hhealthy : w'.trip.world.Healthy) :
    w.trip.world.Healthy := by
  cases step_cases h with
  | ride _ h =>
      obtain ⟨world, hworld, rfl⟩ := ride_eq h
      simp only [undisturbed, Bool.and_eq_true] at hok
      exact World.healthy_of_step hok.1 hworld hhealthy
  | hears _ hline h =>
      obtain ⟨world, hworld, rfl⟩ := ride_eq h
      exact healthy_of_reply (w := w) (isReply_of_label hline) hworld hhealthy
  | _ => exact hhealthy

/-- **An undisturbed step keeps everybody in step.** -/
theorem sound_step {l : Label} (hs : w.Sound distance own me past)
    (hok : w.undisturbed own l = true) (h : step N me distance own name w l = some w')
    (hhealthy : w'.trip.world.Healthy) : w'.Sound distance own me (past ++ [w]) := by
  cases step_cases h with
  | ride hl h =>
      simp only [undisturbed, Bool.and_eq_true] at hok
      have hregistry := registry_ride hs.registry hs.trip hok.1 hok.2 h hhealthy
      have hanswered := answered_ride hs.answered hs.trip hl hok.1 h hhealthy
      obtain ⟨world, hworld, rfl⟩ := ride_eq h
      exact ⟨World.sound_step hs.world hworld,
        Trip.sound_step hs.trip hs.world hok.1 hworld hhealthy, hregistry, hanswered⟩
  | @tells d line rest hwire =>
      refine ⟨hs.world, hs.trip, registry_tells hs.registry hwire,
        answered_post hs.answered ?_ rfl rfl rfl rfl rfl⟩
      cases line <;> rfl
  | @asks line _ hrequests =>
      refine ⟨hs.world, hs.trip, registry_post hs.registry rfl rfl rfl rfl ?_ ?_ ?_,
        answered_asks hs.answered hrequests⟩ <;> cases line <;> simp [Passenger.ServerLine.toMsg,
          Msg.fromDriver, Msg.socketOf]
  | drops hreplies hline =>
      exact ⟨hs.world, hs.trip, hs.registry.congr rfl rfl rfl rfl rfl,
        answered_drops hs.answered hreplies hline⟩
  | @hears line rest l w' hreplies hline h =>
      have hanswered := answered_hears hs.answered hreplies hline h
      have hplain : w.trip.world.undisturbed own l = true := by
        cases line with
        | reconnectDriver socket =>
            exact absurd (hreplies ▸ List.mem_cons_self) (hs.answered.replies socket)
        | pong => cases hline
        | drivers | identificador =>
            obtain rfl := Option.some.inj hline
            rfl
      have hup : l.connected = true := by
        have hreply := isReply_of_label hline
        cases l <;> first | rfl | cases hreply
      have hregistry := registry_ride (w := { w with replies := rest })
        (hs.registry.congr rfl rfl rfl rfl rfl) hs.trip hplain hup h hhealthy
      obtain ⟨world, hworld, rfl⟩ := ride_eq h
      exact ⟨World.sound_step hs.world hworld,
        Trip.sound_step hs.trip hs.world hplain hworld hhealthy, hregistry, hanswered⟩
  | @post m hm =>
      have hquery : m.isQuery me = false := by
        cases m with
        | getDrivers => simpa [Msg.isOther, Msg.isQuery] using hm
        | _ => rfl
      refine ⟨hs.world, hs.trip, registry_post hs.registry rfl rfl rfl rfl ?_ (fun d => ?_) ?_,
        answered_post hs.answered hquery rfl rfl rfl rfl rfl⟩
      · cases m <;> first | rfl | cases hm
      · cases m <;> first | rfl | cases hm
      · rintro state rfl
        cases hm
  | @handle o m rest srv effects hmailbox hh =>
      refine ⟨hs.world, hs.trip, registry_handle hs.registry hmailbox hh rfl rfl rfl rfl, ?_⟩
      cases hquery : m.isQuery me with
      | true =>
          cases m with
          | getDrivers addr =>
              obtain rfl : addr = me := of_decide_eq_true hquery
              exact answered_query hs.answered hs.registry hs.trip hmailbox hh
          | _ => cases hquery
      | false => exact answered_handle hs.answered hs.registry hmailbox hquery hh

theorem registry_init (N id : ℕ) (name : String) (position destination : Position) (k : ℕ) :
    (init N id name position destination k).Registry where
  drivers := (lider_wellFormed N id).drivers
  copies := by simp [init]
  comebacks := by simp [init]
  lines := by simp [init]
  follows := fun d a box hactor => by cases hactor
  unknown := fun d _ => ⟨rfl, by simp [TellsSocket, pending, init, Server.lider, Server.profile]⟩

theorem answered_init (N id : ℕ) (name : String) (position destination : Position) (k : ℕ) :
    (init N id name position destination k).Answered me [] where
  asks := rfl
  replies := by simp [init]
  informed := fun p box _ hnone => by
    -- the passenger has yet to ask
    simp [asking, Town.box, init, Trip.init, World.init, World.launched,
      Passenger.Msg.isGetDrivers] at hnone

theorem sound_init (N id : ℕ) (name : String) (position destination : Position) (k : ℕ) :
    (init N id name position destination k).Sound distance own me [] :=
  ⟨World.sound_init name position destination k, Trip.sound_init name position destination k,
    registry_init N id name position destination k, answered_init N id name position destination k⟩

/-- A run that has only started drivers that still run has kept everybody in step. -/
theorem sound_trace {id k : ℕ} {position destination : Position}
    (h : Trace (step N me distance own name) (fun w l => w.undisturbed own l = true)
      (init N id name position destination k) past w) (hhealthy : w.trip.world.Healthy) :
    w.Sound distance own me past := by
  have hkeeps : w.trip.world.Healthy → w.Sound distance own me past :=
    h.invariant (P := fun past w => w.trip.world.Healthy → w.Sound distance own me past)
      (fun past s l t hs hok hst hhealthy =>
        sound_step (hs (healthy_of_step hok hst hhealthy)) hok hst hhealthy)
      fun _ => sound_init N id name position destination k
  exact hkeeps hhealthy

/-- The registry of the leader is up to date: it has nobody but the drivers that run, all of them
    free, and each where it is. -/
def UpToDate (w : Town) : Prop :=
  ∀ d, (w.trip.world.starts d = 0 → w.srv.profile d = none) ∧
    ∀ a box, (w.trip.world.drivers d).actor = some (a, box) → a.isAvailable = true ∧
      w.srv.profile d = some ⟨a.driverSocket, a.position, false⟩

theorem upToDate_of_rest (hs : w.Sound distance own me past) (hrest : w.AtRest)
    (hfree : ∀ d a box, (w.trip.world.drivers d).actor = some (a, box) → a.isAvailable = true) :
    w.UpToDate := by
  refine fun d => ⟨fun hzero => ?_, fun a box hactor => ⟨hfree d a box hactor, ?_⟩⟩
  · refine Option.eq_none_iff_forall_ne_some.2 fun p hp => ?_
    exact (hs.registry.unknown d hzero).2 p.socket (.inl ⟨p, hp, rfl⟩)
  · have hstarted : w.trip.world.starts d ≠ 0 := fun hzero => by
      rw [hs.trip.fresh d hzero] at hactor
      cases hactor
    obtain ⟨a', hactor'⟩ := hrest.drivers d hstarted
    obtain ⟨rfl, rfl⟩ := Prod.mk.inj (Option.some.inj (hactor.symm.trans hactor'))
    have hknows : w.Knows d a :=
      ⟨⟨[], hactor, by simp⟩, hrest.wires d hstarted, by simp [hrest.mailbox]⟩
    exact hknows.profile hs.registry (hfree d a [] hactor)

/-- **A town at rest has served the passenger, or has turned it away for a reason.** If a run in
    which nobody crashes and no connection is lost is at rest, the registry of the leader is up to
    date, and the passenger has reached its destination with the one driver that has accepted it,
    and has paid once, or nobody has accepted it: then it has since dialled every free driver that
    the leader knew when it answered the passenger last, except for those that are out of
    `MAX_RANGE`. -/
theorem at_rest_served {id k : ℕ} {position destination : Position}
    (h : Trace (step N me distance own name) (fun w l => w.undisturbed own l = true)
      (init N id name position destination k) past w) (hrest : w.AtRest) :
    w.UpToDate ∧ ∃ p, w.trip.world.passenger = some (p, []) ∧
      (w.trip.paid = 1 ∧ w.trip.world.accepted = 1 ∧ w.trip.world.arrivals = 1 ∧
          p.info.position = p.info.destination ∨
        w.trip.paid = 0 ∧ w.trip.world.accepted = 0 ∧ w.trip.world.arrivals = 0 ∧
          ∃ w₀, LastAnswer me past w₀ ∧ ∀ d a, w₀.Knows d a → a.isAvailable = true →
            ⟨a.driverSocket, a.position⟩ ∈ w.dialled ∨
              Passenger.MAX_RANGE < p.away distance ⟨a.driverSocket, a.position⟩) := by
  obtain ⟨p₀, hp₀⟩ := hrest.passenger
  have hs := sound_trace h ⟨by rw [hp₀]; rfl, fun d hd => by
    obtain ⟨a, ha⟩ := hrest.drivers d hd
    rw [ha]
    rfl⟩
  have hasks : w.trip.world.asks = [] := by
    rw [← List.length_eq_zero_iff, hs.answered.asks, hrest.requests, hrest.mailbox, hrest.replies]
    rfl
  have hworld : w.trip.world.AtRest :=
    ⟨⟨p₀, hp₀⟩, hrest.drivers, hasks, hrest.auths, hrest.up, hrest.down⟩
  obtain ⟨hfree, p, hp, hends⟩ := hs.trip.ends hworld
  refine ⟨upToDate_of_rest hs hrest hfree, p, hp, hends.imp_right ?_⟩
  rintro ⟨hpaid, haccepted, harrivals, hexhausted⟩
  refine ⟨hpaid, haccepted, harrivals, ?_⟩
  have hbox : w.box = [] := by
    rw [box, hp]
    rfl
  have hnone : w.asking me = 0 := by simp [asking, hbox, hrest.requests, hrest.mailbox]
  obtain ⟨w₀, hlast, hinformed⟩ := hs.answered.informed p [] hp hnone
  refine ⟨w₀, hlast, fun d a hknows hav => ?_⟩
  have hcovered := hinformed.own (by simp [Listed, hbox, hrest.replies]) d a hknows hav
  exact (List.mem_append.1 hcovered).symm.imp_right (hexhausted _)

/-- Only a driver of the labels has been started. -/
theorem starts_of_run {id k : ℕ} {position destination : Position} {ls : List Label}
    {ok : Town → Label → Prop}
    (h : Run (step N me distance own name) ok (init N id name position destination k) ls w)
    (hd : w.trip.world.starts d ≠ 0) : ∃ at_, .ride (.startDriver d at_) ∈ ls := by
  refine h.invariant_labels (P := fun ls w => w.trip.world.starts d ≠ 0 →
      ∃ at_, .ride (.startDriver d at_) ∈ ls) (fun ls s l s' ih _ hst hd => ?_)
    (fun hd => absurd rfl hd) hd
  have hold : s.trip.world.starts d ≠ 0 → ∃ at_, .ride (.startDriver d at_) ∈ ls ++ [l] :=
    fun hne => by
      obtain ⟨at_, hmem⟩ := ih hne
      exact ⟨at_, List.mem_append_left _ hmem⟩
  cases step_cases hst with
  | ride _ h =>
      obtain ⟨world, hworld, rfl⟩ := ride_eq h
      rcases World.starts_of_step hworld hd with hne | ⟨at_, rfl⟩
      · exact hold hne
      · exact ⟨at_, List.mem_append_right _ List.mem_cons_self⟩
  | hears _ hline h =>
      obtain ⟨world, hworld, rfl⟩ := ride_eq h
      rcases World.starts_of_step hworld hd with hne | ⟨at_, rfl⟩
      · exact hold hne
      · cases isReply_of_label hline
  | _ => exact hold hd

/-- Driver "mario" is taken by somebody else before passenger "peach" asks it, and driver "luigi" is
    too far away. -/
def turnedAway : List Label :=
  [.ride (.startDriver "mario" ⟨(1, 1), "127.0.0.1:40000", ⟨⟨1, 1⟩, 0⟩⟩),
    .ride (.startDriver "luigi" ⟨(2000, 1), "127.0.0.1:40001", ⟨⟨1, 1⟩, 1⟩⟩),
    .ride (.drives "mario" Driver.Process.up), .ride (.drives "mario" Driver.Process.up),
    .ride (.drives "luigi" Driver.Process.up), .ride (.drives "luigi" Driver.Process.up),
    .tells "mario", .tells "luigi", .handle .up, .handle .up,
    .ride (.recv .up ""), .ride (.recv .up ""), .ride (.recv .up ""), .asks, .asks,
    .handle .up, .handle .up, .hears, .hears, .ride (.recv .up ""),
    .ride (.recv { connected := true, driver := some 1, server := none } "mario"),
    .ride (.gateway true), .ride (.recv .up ""), .ride (.recv .up ""),
    .ride (.foreign "mario" (.requestRide ⟨9, (2, 2), (3, 3), 2⟩)), .ride (.toDriver 0),
    .ride (.drives "mario" Driver.Process.up), .ride (.drives "mario" Driver.Process.up),
    .ride (.toPassenger 0), .ride (.recv .up ""), .ride (.recv .up ""),
    .ride (.drives "mario" Driver.Process.up), .ride (.drives "mario" Driver.Process.up),
    .ride (.drives "mario" Driver.Process.up), .ride (.drives "mario" Driver.Process.up),
    .tells "mario", .tells "mario", .handle .up, .handle .up]

/-- Nothing waits in a mailbox and nothing is on its way. -/
def silent (w : Town) : Bool :=
  w.trip.world.passenger.any (fun a => a.2.isEmpty) && decide (w.trip.world.auths = 0) &&
    w.trip.world.up.isEmpty && w.trip.world.down.isEmpty && w.mailbox.isEmpty &&
    w.requests.isEmpty && w.replies.isEmpty &&
    ["mario", "luigi"].all fun d =>
      (w.wires d).isEmpty && (w.trip.world.drivers d).actor.any fun a => a.2.isEmpty

theorem atRest_of_silent (h : w.silent = true)
    (hstarts : ∀ d, w.trip.world.starts d ≠ 0 → d ∈ ["mario", "luigi"]) : w.AtRest := by
  simp only [silent, Bool.and_eq_true, Option.any_eq_true, List.isEmpty_iff, decide_eq_true_eq,
    List.all_eq_true, and_assoc] at h
  obtain ⟨⟨p, hp, hnil⟩, hauths, hup, hdown, hmailbox, hrequests, hreplies, hdrivers⟩ := h
  refine ⟨⟨p.1, hp.trans (by rw [← hnil])⟩, fun d hd => ?_, hauths, hup, hdown, hmailbox,
    fun d hd => (hdrivers d (hstarts d hd)).1, hrequests, hreplies⟩
  obtain ⟨a, ha, hbox⟩ := (hdrivers d (hstarts d hd)).2
  exact ⟨a.1, ha.trans (by rw [← hbox])⟩

theorem at_rest_served_turnedAway : ∃ (past : List Town) (w : Town),
    w.trip.gaveUp = 1 ∧ w.dialled.length = 1 ∧ w.UpToDate ∧
      ∃ p, w.trip.world.passenger = some (p, []) ∧
        (w.trip.paid = 1 ∧ w.trip.world.accepted = 1 ∧ w.trip.world.arrivals = 1 ∧
            p.info.position = p.info.destination ∨
          w.trip.paid = 0 ∧ w.trip.world.accepted = 0 ∧ w.trip.world.arrivals = 0 ∧
            ∃ w₀, LastAnswer (.client 0) past w₀ ∧ ∀ d a, w₀.Knows d a → a.isAvailable = true →
              ⟨a.driverSocket, a.position⟩ ∈ w.dialled ∨ Passenger.MAX_RANGE <
                p.away (fun p q => p.1 - q.1 + (q.1 - p.1)) ⟨a.driverSocket, a.position⟩) := by
  obtain ⟨w, hrun, hend⟩ := exists_run_of_exec
    (fun (w : Town) l => w.undisturbed (fun n => decide (n = 1)) l)
    (init 5 1 "peach" (2, 2) (3, 3) 0) turnedAway
    (fun w => decide (w.trip.gaveUp = 1) && decide (w.dialled.length = 1) && w.silent)
    (show (exec (step 5 (.client 0) (fun p q => p.1 - q.1 + (q.1 - p.1))
      (fun n => decide (n = 1)) "peach") _ _ _).any _ = true by decide +kernel)
  simp only [Bool.and_eq_true, decide_eq_true_eq] at hend
  obtain ⟨⟨hgaveUp, hdialled⟩, hsilent⟩ := hend
  have hrest : w.AtRest := atRest_of_silent hsilent fun d hd => by
    obtain ⟨at_, hmem⟩ := starts_of_run hrun hd
    simp only [turnedAway, List.mem_cons, Label.ride.injEq, World.Label.startDriver.injEq,
      reduceCtorEq, or_false, List.not_mem_nil] at hmem ⊢
    exact hmem.imp And.left And.left
  obtain ⟨past, -, htrace⟩ := hrun.trace
  exact ⟨past, w, hgaveUp, hdialled, at_rest_served htrace hrest⟩

end Town

end ConcuRide
