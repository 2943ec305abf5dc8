import ResourceHive.Notifications.Realtime

/-!
# Notifications/TenantIsolation — who receives a booking event

Nothing the gateway does asks whose university a room is of, and the handlers of the `watch` messages
ask nothing about the socket either.  So an event reaches whoever watches its resource or its
organization: also a socket whose verification has not settled, and one verified for a user of
another university (`foreign_socket_receives`).  A run keeps events inside their universities exactly
if nobody of that kind is watching whenever one is emitted (`isolated_iff`).

What the rooms hold is read off the messages alone: a socket is in a topic's room if its latest
message about the topic was to watch it, and in a user's room once it is verified for the user
(`Faithful`).
-/

namespace ResourceHive.Notifications

open Gateway

variable {σ : Type*} {R : Rooms σ ℕ String} {s t : Gateway σ} {l : Label} {i : ℕ}
  {belongs : AuthenticatedUser → String → Prop} {past : List Occurrence}

/-! ## Isolation, and the condition for it -/

/-- The socket is verified, for a user who belongs to the root organization. -/
def MemberOf (belongs : AuthenticatedUser → String → Prop) (rootOrganizationId : String) (i : ℕ)
    (past : List Occurrence) : Prop :=
  ∃ user, .verified i user ∈ past ∧ belongs user rootOrganizationId

/-- **Isolation**: whoever received an event was by then verified, for a user of its university. -/
def Isolated (belongs : AuthenticatedUser → String → Prop) : List Occurrence → Prop
  | [] => True
  | .received i message :: past =>
    MemberOf belongs message.payload.rootOrganizationId i past ∧ Isolated belongs past
  | .verified _ _ :: past | .watched _ _ :: past | .unwatched _ _ :: past
  | .disconnected _ :: past => Isolated belongs past

/-- The socket watches the topic: its latest message about it said so, and it is still there. -/
def watches (i : ℕ) (topic : Topic) : List Occurrence → Bool
  | [] => false
  | .watched j topic' :: past =>
    (decide (i = j) && decide (topic = topic')) || watches i topic past
  | .unwatched j topic' :: past =>
    !(decide (i = j) && decide (topic = topic')) && watches i topic past
  | .disconnected j :: past => !decide (i = j) && watches i topic past
  | .verified _ _ :: past | .received _ _ :: past => watches i topic past

/-- **The condition** on the state an event is emitted from: whoever watches its resource or its
organization is verified, for a user of its university; and so does the user it names belong there,
if a socket of theirs is connected. -/
def NoForeignWatcher (belongs : AuthenticatedUser → String → Prop) (s : Gateway σ) : Label → Prop
  | .emit event =>
    (∀ i, (watches i (.resource event.payload.resourceId) s.history = true
        ∨ watches i (.organization event.payload.organizationId) s.history = true) →
      MemberOf belongs event.payload.rootOrganizationId i s.history) ∧
    ∀ i user, .verified i user ∈ s.history → .disconnected i ∉ s.history →
      event.payload.userId = some user.userId → belongs user event.payload.rootOrganizationId
  | _ => True

/-! ## What a step can do -/

/-- **The cases of a step.** -/
inductive Steps (R : Rooms σ ℕ String) (s : Gateway σ) : Label → Gateway σ → Prop
  | connected (token : Option String) : Steps R s (.connect token)
      { s with sockets := s.sockets ++ [⟨token.isSome, token.isSome, none⟩] }
  | verified {i claims socket user} (hi : s.sockets[i]? = some socket)
      (hv : socket.verifying = true) (hne : user.userId ≠ "") :
      Steps R s (.settle i claims) (s.handleVerified R i socket (some user))
  | rejected {i claims socket} (hi : s.sockets[i]? = some socket)
      (hv : socket.verifying = true) (hc : socket.connected = false) :
      Steps R s (.settle i claims) (s.setSocket i { socket with verifying := false })
  | disconnected {l i socket} (v : Bool) (hl : l = .disconnect i ∨ ∃ claims, l = .settle i claims)
      (hi : s.sockets[i]? = some socket) (hc : socket.connected = true)
      (hv : v = true → socket.verifying = true) :
      Steps R s l (s.disconnect R i { socket with verifying := v })
  | watched {i subscription socket} (topic : Topic) (hi : s.sockets[i]? = some socket)
      (hc : socket.connected = true) :
      Steps R s (.message i subscription) ((s.join R i topic.room).record (.watched i topic))
  | unwatched {i subscription socket} (topic : Topic) (hi : s.sockets[i]? = some socket)
      (hc : socket.connected = true) :
      Steps R s (.message i subscription) ((s.leave R i topic.room).record (.unwatched i topic))
  | ignored {i subscription} : Steps R s (.message i subscription) s
  | emitted (event : BookingEventV1) : Steps R s (.emit event) (s.emitBookingEvent R event)

theorem steps_of_handleWatch {socket : Socket} (hi : s.sockets[i]? = some socket)
    (hc : socket.connected = true) (topic : String → Topic) (subscription : Subscription)
    (id : Option String) :
    Steps R s (.message i subscription) (s.handleWatch R i topic id) := by
  cases id with
  | none => exact .ignored
  | some id =>
    unfold handleWatch
    dsimp only
    split
    · exact .ignored
    · exact .watched _ hi hc

theorem steps_of_handleUnwatch {socket : Socket} (hi : s.sockets[i]? = some socket)
    (hc : socket.connected = true) (topic : String → Topic) (subscription : Subscription)
    (id : Option String) :
    Steps R s (.message i subscription) (s.handleUnwatch R i topic id) := by
  cases id with
  | none => exact .ignored
  | some id =>
    unfold handleUnwatch
    dsimp only
    split
    · exact .ignored
    · exact .unwatched _ hi hc

theorem steps_of_step (h : s.step R l = some t) : Steps R s l t := by
  cases l with
  | connect token =>
    obtain rfl := Option.some.inj h
    cases token with
    | none => exact .connected none
    | some token => exact .connected (some token)
  | settle i claims =>
    obtain ⟨socket, hi, h⟩ := Option.bind_eq_some_iff.mp h
    simp only [Option.ite_none_right_eq_some, Option.some.injEq] at h
    obtain ⟨hv, rfl⟩ := h
    cases huser : claims.bind toAuthenticatedUser with
    | none =>
      unfold handleVerified
      dsimp only
      split
      · next hc => exact .disconnected false (.inr ⟨claims, rfl⟩) hi hc nofun
      · next hc => exact .rejected hi hv (Bool.eq_false_iff.mpr hc)
    | some user =>
      obtain ⟨claims, -, huser⟩ := Option.bind_eq_some_iff.mp huser
      exact .verified hi hv (userId_ne_empty huser)
  | message i subscription =>
    obtain ⟨socket, hi, h⟩ := Option.bind_eq_some_iff.mp h
    simp only [Option.ite_none_right_eq_some, Option.some.injEq] at h
    obtain ⟨hc, rfl⟩ := h
    cases subscription with
    | resourceWatch id | organizationWatch id => exact steps_of_handleWatch hi hc _ _ id
    | resourceUnwatch id | organizationUnwatch id => exact steps_of_handleUnwatch hi hc _ _ id
  | disconnect i =>
    obtain ⟨socket, hi, h⟩ := Option.bind_eq_some_iff.mp h
    simp only [Option.ite_none_right_eq_some, Option.some.injEq] at h
    obtain ⟨hc, rfl⟩ := h
    exact .disconnected socket.verifying (.inl rfl) hi hc id
  | emit event =>
    obtain rfl := Option.some.inj h
    exact .emitted event

/-! ## What the history says of the sockets -/

/-- A verification settles once, and whoever was disconnected is not connected. -/
structure Tracked (s : Gateway σ) : Prop where
  verified {i : ℕ} {user : AuthenticatedUser} : .verified i user ∈ s.history →
    ∃ socket, s.sockets[i]? = some socket ∧ socket.verifying = false
  unique {i : ℕ} {user user' : AuthenticatedUser} :
    .verified i user ∈ s.history → .verified i user' ∈ s.history → user = user'
  disconnected {i : ℕ} : .disconnected i ∈ s.history →
    ∃ socket, s.sockets[i]? = some socket ∧ socket.connected = false
  gone {i : ℕ} {socket : Socket} : s.sockets[i]? = some socket → socket.verifying = true →
    socket.connected = false → .disconnected i ∈ s.history
  named {i : ℕ} {user : AuthenticatedUser} : .verified i user ∈ s.history → user.userId ≠ ""

theorem Tracked.connected (hs : Tracked s) {socket : Socket} (h : s.sockets[i]? = some socket)
    (hc : socket.connected = true) : .disconnected i ∉ s.history := by
  intro hd
  obtain ⟨socket', h', hc'⟩ := hs.disconnected hd
  obtain rfl := Option.some.inj (h.symm.trans h')
  exact Bool.noConfusion (hc.symm.trans hc')

theorem Tracked.verifying (hs : Tracked s) {socket : Socket} (h : s.sockets[i]? = some socket)
    (hv : socket.verifying = true) (user : AuthenticatedUser) : .verified i user ∉ s.history := by
  intro hmem
  obtain ⟨socket', h', hv'⟩ := hs.verified hmem
  obtain rfl := Option.some.inj (h.symm.trans h')
  exact Bool.noConfusion (hv.symm.trans hv')

/-- What a socket has, it still has in the list another one is set in, if that one has it too. -/
theorem exists_set {sockets : List Socket} {socket : Socket} {p : Socket → Prop} {j : ℕ}
    (socket' : Socket) (hi : sockets[i]? = some socket) (hp : p socket → p socket')
    (h : ∃ k, sockets[j]? = some k ∧ p k) : ∃ k, (sockets.set i socket')[j]? = some k ∧ p k := by
  obtain ⟨k, hk, hpk⟩ := h
  obtain rfl | hne := eq_or_ne i j
  · obtain rfl := Option.some.inj (hi.symm.trans hk)
    exact ⟨socket', List.getElem?_set_self (List.getElem?_eq_some_iff.mp hi).1, hp hpk⟩
  · exact ⟨k, by rw [List.getElem?_set_ne hne, hk], hpk⟩

theorem exists_append {sockets : List Socket} {socket : Socket} {p : Socket → Prop} {j : ℕ}
    (h : ∃ k, sockets[j]? = some k ∧ p k) : ∃ k, (sockets ++ [socket])[j]? = some k ∧ p k := by
  obtain ⟨k, hk, hpk⟩ := h
  exact ⟨k, by rw [List.getElem?_append_left (List.getElem?_eq_some_iff.mp hk).1, hk], hpk⟩

theorem getElem?_set_cases {sockets : List Socket} {socket k : Socket} {j : ℕ}
    (h : (sockets.set i socket)[j]? = some k) : (j = i ∧ k = socket) ∨ sockets[j]? = some k := by
  rw [List.getElem?_set] at h
  split_ifs at h with hij
  · exact .inl ⟨hij.symm, (Option.some.inj h).symm⟩
  · exact .inr h

/-- A step that settles and disconnects nothing. -/
theorem Tracked.congr (hs : Tracked s) (hsockets : t.sockets = s.sockets)
    (hverified : ∀ i user, .verified i user ∈ t.history ↔ .verified i user ∈ s.history)
    (hdisconnected : ∀ i, .disconnected i ∈ t.history ↔ .disconnected i ∈ s.history) :
    Tracked t where
  verified h := hsockets ▸ hs.verified ((hverified _ _).mp h)
  unique h h' := hs.unique ((hverified _ _).mp h) ((hverified _ _).mp h')
  disconnected h := hsockets ▸ hs.disconnected ((hdisconnected _).mp h)
  gone h hv hc := (hdisconnected _).mpr (hs.gone (hsockets ▸ h) hv hc)
  named h := hs.named ((hverified _ _).mp h)

theorem tracked_step (hs : Tracked s) (h : Steps R s l t) : Tracked t := by
  cases h with
  | connected token =>
    refine ⟨fun h => exists_append (hs.verified h), hs.unique,
      fun h => exists_append (hs.disconnected h), fun {j k} hk hv hc => ?_, hs.named⟩
    rw [List.getElem?_append] at hk
    split_ifs at hk with hj
    · exact hs.gone hk hv hc
    · -- the new socket is verifying only if it is connected
      obtain rfl := List.mem_singleton.mp (List.mem_of_getElem? hk)
      exact absurd (hv.symm.trans hc) Bool.noConfusion
  | @verified i _ socket user hi hv hne =>
    have hset {p : Socket → Prop} {j : ℕ} := exists_set (j := j) (p := p)
      { socket with verifying := false, userId := some user.userId } hi
    refine ⟨fun {j user'} h => ?_, fun {j user₁ user₂} h₁ h₂ => ?_, fun {j} h => ?_,
      fun {j k} hk hkv hkc => ?_, fun {j user'} h => ?_⟩
    · rw [handleVerified_sockets]
      rcases List.mem_cons.mp (handleVerified_history R s i socket user ▸ h) with heq | h
      · obtain ⟨rfl, rfl⟩ := Occurrence.verified.inj heq
        exact ⟨_, List.getElem?_set_self (List.getElem?_eq_some_iff.mp hi).1, rfl⟩
      · exact hset (fun _ => rfl) (hs.verified h)
    · rw [handleVerified_history] at h₁ h₂
      have hnew := hs.verifying hi hv
      rcases List.mem_cons.mp h₁ with heq₁ | h₁ <;> rcases List.mem_cons.mp h₂ with heq₂ | h₂
      · exact (Occurrence.verified.inj heq₁).2.trans (Occurrence.verified.inj heq₂).2.symm
      · exact absurd ((Occurrence.verified.inj heq₁).1 ▸ h₂) (hnew _)
      · exact absurd ((Occurrence.verified.inj heq₂).1 ▸ h₁) (hnew _)
      · exact hs.unique h₁ h₂
    · rw [handleVerified_sockets]
      exact hset id (hs.disconnected (by simpa using h))
    · rw [handleVerified_sockets] at hk
      rw [handleVerified_history]
      rcases getElem?_set_cases hk with ⟨-, rfl⟩ | hk
      · cases hkv
      · exact List.mem_cons_of_mem _ (hs.gone hk hkv hkc)
    · rcases List.mem_cons.mp (handleVerified_history R s i socket user ▸ h) with heq | h
      · exact (Occurrence.verified.inj heq).2 ▸ hne
      · exact hs.named h
  | @rejected i _ socket hi hv hc =>
    have hset {p : Socket → Prop} {j : ℕ} := exists_set (j := j) (p := p)
      { socket with verifying := false } hi
    refine ⟨fun h => hset (fun _ => rfl) (hs.verified h), hs.unique,
      fun h => hset id (hs.disconnected h), fun {j k} hk hkv hkc => ?_, hs.named⟩
    rcases getElem?_set_cases hk with ⟨-, rfl⟩ | hk
    · cases hkv
    · exact hs.gone hk hkv hkc
  | @disconnected _ i socket v hl hi hc hv =>
    have hset {p : Socket → Prop} {j : ℕ} := exists_set (j := j) (p := p)
      ⟨false, v, socket.userId⟩ hi
    refine ⟨fun {j user} h => ?_, fun {j user₁ user₂} h₁ h₂ => hs.unique (by simpa using h₁)
      (by simpa using h₂), fun {j} h => ?_, fun {j k} hk hkv hkc => ?_,
      fun h => hs.named (by simpa using h)⟩
    · exact hset (fun hsv => Bool.eq_false_iff.mpr fun hv' => Bool.noConfusion
        (hsv.symm.trans (hv hv'))) (hs.verified (by simpa using h))
    · rcases List.mem_cons.mp h with heq | h
      · obtain rfl := Occurrence.disconnected.inj heq
        exact ⟨_, List.getElem?_set_self (List.getElem?_eq_some_iff.mp hi).1, rfl⟩
      · exact hset (fun _ => rfl) (hs.disconnected h)
    · rw [disconnect_history]
      rcases getElem?_set_cases hk with ⟨rfl, -⟩ | hk
      · exact List.mem_cons_self
      · exact List.mem_cons_of_mem _ (hs.gone hk hkv hkc)
  | watched | unwatched => exact hs.congr rfl (by simp) (by simp)
  | ignored => exact hs
  | emitted event =>
    rw [emitBookingEvent_eq]
    exact hs.congr rfl (by simp) (by simp)

/-! ## What the rooms hold -/

/-- **The rooms are the messages' rooms**: a topic's room has those who watch it, a user's room the
connected sockets that were verified for the user. -/
structure Faithful (R : Rooms σ ℕ String) (s : Gateway σ) : Prop where
  topic (i : ℕ) (topic : Topic) :
    i ∈ R.members s.rooms topic.room ↔ watches i topic s.history = true
  user (i : ℕ) (userId : String) : i ∈ R.members s.rooms (userRoom userId) ↔
    .disconnected i ∉ s.history ∧ ∃ user, .verified i user ∈ s.history ∧ user.userId = userId

theorem watches_received (i : ℕ) (topic : Topic) (message : BookingEventMessage) (past) :
    ∀ js : List ℕ, watches i topic (js.map (Occurrence.received · message) ++ past)
      = watches i topic past
  | [] => rfl
  | _ :: js => watches_received i topic message past js

theorem faithful_step (hs : Tracked s) (hf : Faithful R s) (h : Steps R s l t) : Faithful R t := by
  cases h with
  | connected => exact ⟨hf.topic, hf.user⟩
  | @verified i _ socket user hi hv hne =>
    refine ⟨fun j topic => ?_, fun j userId => ?_⟩
    · rw [handleVerified_rooms, handleVerified_history]
      split
      · simp [hf.topic, watches, (Topic.userRoom_ne_room _ _).symm]
      · exact hf.topic j topic
    · rw [handleVerified_rooms, handleVerified_history]
      split
      · next hc =>
        have hconnected := hs.connected hi hc
        simp only [Rooms.mem_join, userRoom_inj, hf.user, List.mem_cons, reduceCtorEq, false_or,
          Occurrence.verified.injEq]
        constructor
        · rintro (⟨rfl, rfl⟩ | ⟨hd, user', hmem, rfl⟩)
          · exact ⟨hconnected, user, .inl ⟨rfl, rfl⟩, rfl⟩
          · exact ⟨hd, user', .inr hmem, rfl⟩
        · rintro ⟨hd, user', ⟨rfl, rfl⟩ | hmem, rfl⟩
          · exact .inl ⟨rfl, rfl⟩
          · exact .inr ⟨hd, user', hmem, rfl⟩
      · next hc =>
        have hgone := hs.gone hi hv (Bool.eq_false_iff.mpr hc)
        simp only [hf.user, List.mem_cons, reduceCtorEq, false_or, Occurrence.verified.injEq]
        constructor
        · rintro ⟨hd, user', hmem, rfl⟩
          exact ⟨hd, user', .inr hmem, rfl⟩
        · rintro ⟨hd, user', ⟨rfl, -⟩ | hmem, rfl⟩
          · exact absurd hgone hd
          · exact ⟨hd, user', hmem, rfl⟩
  | rejected => exact ⟨hf.topic, hf.user⟩
  | disconnected =>
    refine ⟨fun j topic => ?_, fun j userId => ?_⟩
    · simp [hf.topic, watches]
    · simp [hf.user, and_assoc]
  | watched topic hi hc =>
    refine ⟨fun j topic' => ?_, fun j userId => ?_⟩
    · simp [hf.topic, watches, Topic.room_injective.eq_iff]
    · simp [hf.user]
  | unwatched topic hi hc =>
    refine ⟨fun j topic' => ?_, fun j userId => ?_⟩
    · simp [hf.topic, watches, Topic.room_injective.eq_iff, -not_and, not_and_or]
    · simp [hf.user]
  | ignored => exact hf
  | emitted event =>
    rw [emitBookingEvent_eq]
    exact ⟨fun j topic => by simp [hf.topic, watches_received], fun j userId => by simp [hf.user]⟩

/-! ## When a run isolates its universities -/

theorem memberOf_received {root : String} (js : List ℕ) (message : BookingEventMessage) :
    MemberOf belongs root i (js.map (Occurrence.received · message) ++ past)
      ↔ MemberOf belongs root i past := by
  simp [MemberOf]

theorem isolated_received (js : List ℕ) (message : BookingEventMessage) :
    Isolated belongs (js.map (Occurrence.received · message) ++ past) ↔
      (∀ j ∈ js, MemberOf belongs message.payload.rootOrganizationId j past)
        ∧ Isolated belongs past := by
  induction js with
  | nil => simp
  | cons j js ih =>
    simp only [List.map_cons, List.cons_append, Isolated, memberOf_received, ih,
      List.forall_mem_cons, and_assoc]

/-- **The recipients are members exactly under the condition.** -/
theorem members_iff (hs : Tracked s) (hf : Faithful R s) (event : BookingEventV1) :
    (∀ i ∈ s.recipients R event, MemberOf belongs event.payload.rootOrganizationId i s.history)
      ↔ NoForeignWatcher belongs s (.emit event) := by
  simp only [mem_recipients, hf.topic, hf.user]
  constructor
  · intro h
    refine ⟨fun i hi => h i (hi.imp_right .inl), fun i user hmem hd huser => ?_⟩
    obtain ⟨user', hmem', hbelongs⟩ :=
      h i (.inr (.inr ⟨user.userId, hs.named hmem, huser, hd, user, hmem, rfl⟩))
    rwa [hs.unique hmem hmem']
  · rintro ⟨htopics, huser⟩ i (hi | hi | ⟨userId, -, huserId, hd, user, hmem, rfl⟩)
    · exact htopics i (.inl hi)
    · exact htopics i (.inr hi)
    · exact ⟨user, hmem, huser i user hmem hd huserId⟩

/-- A step keeps isolation exactly if it meets the condition. -/
theorem isolated_step (hs : Tracked s) (hf : Faithful R s) (h : Steps R s l t) :
    Isolated belongs t.history ↔ Isolated belongs s.history ∧ NoForeignWatcher belongs s l := by
  cases h with
  | emitted event =>
    rw [emitBookingEvent_eq, isolated_received, and_comm]
    exact and_congr_right fun _ => members_iff hs hf event
  | verified =>
    rw [handleVerified_history]
    exact (and_iff_left trivial).symm
  | disconnected v hl =>
    rcases hl with rfl | ⟨claims, rfl⟩
    · exact (and_iff_left trivial).symm
    · exact (and_iff_left trivial).symm
  | connected | rejected | watched | unwatched | ignored => exact (and_iff_left trivial).symm

/-- What holds of the sockets and the rooms in every run. -/
theorem faithful_of_reachable {ok : Gateway σ → Label → Prop} (h : (machine R).Reachable ok s) :
    Tracked s ∧ Faithful R s := by
  refine h.invariant (I := fun s => Tracked s ∧ Faithful R s) ?_ ?_
  · rintro s rfl
    exact ⟨⟨nofun, nofun, nofun, nofun, nofun⟩, ⟨by simp [watches], by simp⟩⟩
  · rintro s l t ⟨hs, hf⟩ - h
    exact ⟨tracked_step hs (steps_of_step h), faithful_step hs hf (steps_of_step h)⟩

/-- **Isolation of the universities**: in a run, every event is received by verified users of its
university alone if and only if nobody else watches, at any emit, what the event is about. -/
theorem isolated_iff (h : (machine R).Reachable Machine.free s) :
    Isolated belongs s.history ↔ (machine R).Reachable (NoForeignWatcher belongs) s := by
  constructor
  · intro hisolated
    obtain ⟨s₀, rfl, hrun⟩ := h
    induction hrun with
    | refl => exact ⟨_, rfl, .refl⟩
    | tail hrun _ hstep ih =>
      obtain ⟨hs, hf⟩ := faithful_of_reachable ⟨_, rfl, hrun⟩
      obtain ⟨hbefore, hok⟩ := (isolated_step hs hf (steps_of_step hstep)).mp hisolated
      exact (ih hbefore).run (.single hok hstep)
  · intro h
    have key : (Tracked s ∧ Faithful R s) ∧ Isolated belongs s.history := by
      refine h.invariant (I := fun s => (Tracked s ∧ Faithful R s) ∧ Isolated belongs s.history)
        (fun hinit => ⟨faithful_of_reachable ⟨_, hinit, (.refl : (machine R).Run Machine.free _ _)⟩,
          ?_⟩) ?_
      · obtain rfl := hinit
        trivial
      · rintro s l t ⟨⟨hs, hf⟩, hisolated⟩ hok hstep
        have hsteps := steps_of_step hstep
        exact ⟨⟨tracked_step hs hsteps, faithful_step hs hf hsteps⟩,
          (isolated_step hs hf hsteps).mpr ⟨hisolated, hok⟩⟩
    exact key.2

/-! ## A socket of another university -/

/-- A token of the university, or of another one. -/
def claimsOf (userId rootOrganizationId : String) : ResourceHiveAccessTokenClaims where
  sub := some userId
  email := some "student@university.edu"
  rootOrganizationId := some rootOrganizationId

/-- The user of that token. -/
def userOf (userId rootOrganizationId : String) : AuthenticatedUser where
  userId := userId
  email := "student@university.edu"
  organizationId := none
  rootOrganizationId := some rootOrganizationId
  role := none

/-- A booking confirmed in the university `…00a`. -/
def confirmed : BookingEventV1 where
  eventId := "00000000-0000-4000-8000-0000000000e1"
  eventType := .bookingConfirmed
  correlationId := "00000000-0000-4000-8000-0000000000b1"
  occurredAt := "2026-01-01T00:00:00.000Z"
  payload :=
    { rootOrganizationId := "00000000-0000-4000-8000-00000000000a"
      bookingId := some "00000000-0000-4000-8000-0000000000b1"
      resourceId := "00000000-0000-4000-8000-0000000000c1"
      resourceName := "Robotics Lab"
      organizationId := "00000000-0000-4000-8000-0000000000d1"
      userId := some "00000000-0000-4000-8000-000000000001"
      email := some "student@university.edu"
      startsAt := "2026-01-01T10:00:00.000Z" }

/-- A user's university, as their token names it. -/
def OfUniversity (user : AuthenticatedUser) (rootOrganizationId : String) : Prop :=
  user.rootOrganizationId = some rootOrganizationId

/-- A socket that watches before it is verified, and is verified by the time of the event. -/
theorem isolated_of_early_watch : ∃ s,
    (machine (Rooms.table ℕ String)).Reachable (NoForeignWatcher OfUniversity) s
      ∧ .received 0 confirmed.message ∈ s.history := by
  obtain ⟨s, hs, hp⟩ := (machine (Rooms.table ℕ String)).exists_reachable (s := ⟨[], [], []⟩)
    (p := fun s => decide (s.history =
      [.received 0 confirmed.message,
        .verified 0 (userOf "00000000-0000-4000-8000-000000000002"
          confirmed.payload.rootOrganizationId),
        .watched 0 (.resource confirmed.payload.resourceId)]))
    [.connect (some "token"), .message 0 (.resourceWatch (some confirmed.payload.resourceId)),
      .settle 0 (some (claimsOf "00000000-0000-4000-8000-000000000002"
        confirmed.payload.rootOrganizationId)), .emit confirmed] rfl (by decide)
  have hhistory := of_decide_eq_true hp
  refine ⟨s, (isolated_iff hs).mp ?_, by simp [hhistory]⟩
  simp [hhistory, Isolated, MemberOf, OfUniversity, userOf, BookingEventV1.message]

/-- **An event leaves its university**: for a socket verified for a user of another one, and for one
whose verification has not settled. -/
theorem foreign_socket_receives : ∃ s,
    (machine (Rooms.table ℕ String)).Reachable Machine.free s
      ∧ s.history =
        [.received 1 confirmed.message, .received 0 confirmed.message,
          .watched 1 (.organization confirmed.payload.organizationId),
          .watched 0 (.resource confirmed.payload.resourceId),
          .verified 0 (userOf "00000000-0000-4000-8000-000000000002"
            "00000000-0000-4000-8000-00000000000b")]
      ∧ (∀ belongs, ¬ Isolated belongs s.history)
      ∧ ¬ MemberOf OfUniversity confirmed.payload.rootOrganizationId 0 s.history := by
  obtain ⟨s, hs, hp⟩ := (machine (Rooms.table ℕ String)).exists_reachable (s := ⟨[], [], []⟩)
    (p := fun s => decide (s.history =
      [.received 1 confirmed.message, .received 0 confirmed.message,
        .watched 1 (.organization confirmed.payload.organizationId),
        .watched 0 (.resource confirmed.payload.resourceId),
        .verified 0 (userOf "00000000-0000-4000-8000-000000000002"
          "00000000-0000-4000-8000-00000000000b")]))
    [.connect (some "token"), .connect (some "token"),
      .settle 0 (some (claimsOf "00000000-0000-4000-8000-000000000002"
        "00000000-0000-4000-8000-00000000000b")),
      .message 0 (.resourceWatch (some confirmed.payload.resourceId)),
      .message 1 (.organizationWatch (some confirmed.payload.organizationId)), .emit confirmed]
    rfl (by decide)
  have hhistory := of_decide_eq_true hp
  refine ⟨s, hs, hhistory, fun belongs h => ?_, ?_⟩
  · simp [hhistory, Isolated, MemberOf] at h
  · simp [hhistory, MemberOf, OfUniversity, userOf, confirmed]

end ResourceHive.Notifications
