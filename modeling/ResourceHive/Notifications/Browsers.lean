import ResourceHive.Notifications.Inbox

/-!
# Notifications/Browsers — to whose browsers a notification is pushed

A browser may be registered by one user of a university after another, and in any number of
universities.  In each it has at most one holder, who is a matter of what was done about it
(`holder`); the rows of `web_push_subscriptions` are a record of that, whatever is interleaved
(`held_iff`).

A push that is created is for a browser that its recipient held in its university when the command
looked for it (`pushed_to_holder`).  That may be before another user takes over the browser and the
push created afterwards; no later command has it (`not_pushed_after_takeover`).
-/

namespace ResourceHive.Notifications

/-! ## Who holds a browser -/

/-- What an event makes of the holder of a browser. -/
def BrowserEvent.after (root token : String) (holder : Option String) :
    BrowserEvent → Option String
  | registered userId r t => if r = root ∧ t = token then some userId else holder
  | removed userId r t => if r = root ∧ t = token ∧ holder = some userId then none else holder
  | refused t => if t = token then none else holder

/-- **The holder of a browser in a university**, by what was done about it: who registered it last,
until they remove it or a push to it is refused. -/
def holder (history : List BrowserEvent) (root token : String) : Option String :=
  history.foldl (BrowserEvent.after root token) none

theorem holder_append (history : List BrowserEvent) (root token : String)
    (events : List BrowserEvent) :
    holder (history ++ events) root token
      = events.foldl (BrowserEvent.after root token) (holder history root token) :=
  List.foldl_append

/-- The holder of a browser, by the table. -/
def InboxDatabase.holder (db : InboxDatabase) (root token : String) : Option String :=
  ((db.subscriptions.find? (·.browser = (some root, token))).filter (·.active)).map (·.userId)

variable {P : Platform} {db db' : InboxDatabase} {hist : List BrowserEvent}
  {userId root token : String}

/-- There is one subscription for a browser of a university. -/
theorem find?_browser {w : WebPushSubscription} (hw : w ∈ db.subscriptions)
    (hbrowser : w.browser = (some root, token)) :
    db.subscriptions.find? (·.browser = (some root, token)) = some w := by
  have hroot : w.rootOrganizationId.isSome := by
    rw [show w.rootOrganizationId = some root from congrArg Prod.fst hbrowser]
    rfl
  obtain ⟨v, hv⟩ : ∃ v, db.subscriptions.find? (·.browser = (some root, token)) = some v :=
    Option.isSome_iff_exists.mp (List.find?_isSome.mpr ⟨w, hw, decide_eq_true hbrowser⟩)
  have hvbrowser : v.browser = (some root, token) := by simpa using Table.pred_of_find? hv
  have hvroot : v.rootOrganizationId.isSome := by
    rw [show v.rootOrganizationId = some root from congrArg Prod.fst hvbrowser]
    rfl
  rw [hv, db.subscriptions.valid.2.eq (Table.mem_of_find? hv) hvroot hw hroot
    (hvbrowser.trans hbrowser.symm)]

theorem holder_eq_some : db.holder root token = some userId ↔ ∃ w ∈ db.subscriptions,
    w.userId = userId ∧ w.rootOrganizationId = some root ∧ w.token = token ∧ w.active = true := by
  rw [InboxDatabase.holder, Option.map_eq_some_iff]
  constructor
  · rintro ⟨w, hw, rfl⟩
    obtain ⟨hfind, hactive⟩ := Option.filter_eq_some_iff.mp hw
    have hbrowser : w.browser = (some root, token) := by simpa using Table.pred_of_find? hfind
    exact ⟨w, Table.mem_of_find? hfind, rfl, congrArg Prod.fst hbrowser,
      congrArg Prod.snd hbrowser, hactive⟩
  · rintro ⟨w, hw, huser, hroot, htoken, hactive⟩
    have hfind := find?_browser hw (by
      rw [WebPushSubscription.browser, hroot, htoken])
    exact ⟨w, by rw [hfind, Option.filter_some, hactive, if_pos rfl], huser⟩

/-- Statements about other tables leave the holders alone. -/
theorem holder_congr (h : db'.subscriptions = db.subscriptions) (root token : String) :
    db'.holder root token = db.holder root token := by
  rw [InboxDatabase.holder, InboxDatabase.holder, h]

/-- **What an update does to a holder.** -/
theorem holder_update {T : Table WebPushSubscription WebPushSubscription.Constraints}
    {p : WebPushSubscription → Bool} {f : WebPushSubscription → WebPushSubscription}
    (h : db.subscriptions.update p f = some T) (hf : ∀ w, (f w).browser = w.browser)
    (root token : String) :
    { db with subscriptions := T }.holder root token
      = (((db.subscriptions.find? (·.browser = (some root, token))).map
          fun w => if p w then f w else w).filter (·.active)).map (·.userId) := by
  rw [InboxDatabase.holder, Table.find?_update h]
  intro w
  rw [hf]

/-- A registration. -/
theorem holder_upsert {id : String} {now : Timestamp}
    (h : (InboxWrite.upsert id userId root token now).exec db = some db') (r t : String) :
    db'.holder r t = (BrowserEvent.registered userId root token).after r t (db.holder r t) := by
  obtain ⟨T, rfl, ⟨w, hw, -, hT⟩ | ⟨hnone, hT⟩⟩ := exec_upsert h
  · have hbrowser : w.browser = (some root, token) := by simpa using Table.pred_of_find? hw
    rw [BrowserEvent.after, holder_update hT fun _ => rfl]
    split
    · next heq =>
      rw [← heq.1, ← heq.2, hw]
      simp [hbrowser, Option.filter]
    · next hne =>
      cases hfind : db.subscriptions.find? (·.browser = (some r, t)) with
      | none => rw [InboxDatabase.holder, hfind]; rfl
      | some v =>
        have hv : v.browser = (some r, t) := by simpa using Table.pred_of_find? hfind
        have hother : ¬ (r = root ∧ t = token) := fun ⟨hr, ht⟩ => hne ⟨hr.symm, ht.symm⟩
        rw [InboxDatabase.holder, hfind]
        simp [hv, hother]
  · rw [BrowserEvent.after, InboxDatabase.holder, Table.find?_insert hT, InboxDatabase.holder]
    by_cases heq : root = r ∧ token = t
    · obtain ⟨rfl, rfl⟩ := heq
      rw [hnone]
      simp [WebPushSubscription.browser, Option.filter]
    · have hother : ¬ (some root, token) = (some r, t) := fun h => heq (by simpa using h)
      rw [if_neg heq, if_neg (by simpa [WebPushSubscription.browser] using hother), Option.or_none]

/-- A removal, of the subscription that was found. -/
theorem holder_deactivate {w : WebPushSubscription} {now : Timestamp}
    (hfound : FoundAt db (.removing w userId root now))
    (h : (InboxWrite.deactivate w.id userId root now).exec db = some db') (r t : String) :
    db'.holder r t = (BrowserEvent.removed userId root w.token).after r t (db.holder r t) := by
  obtain ⟨⟨u, hu, huof⟩, T, hT, rfl⟩ := exec_deactivate h
  obtain ⟨hroot, v, hv, hid, hbrowser⟩ := hfound
  obtain ⟨huid, huser, -⟩ := WebPushSubscription.isOf_iff.mp huof
  obtain rfl : u = v := db.subscriptions.valid.1.eq hu hv (huid.trans hid.symm)
  have hbrowser : u.browser = (some root, w.token) := by
    rw [hbrowser, WebPushSubscription.browser, hroot]
  rw [BrowserEvent.after, holder_update hT fun _ => rfl, InboxDatabase.holder]
  by_cases heq : root = r ∧ w.token = t
  · obtain ⟨rfl, rfl⟩ := heq
    rw [find?_browser hv hbrowser]
    simp only [Option.map_some, huof, if_true]
    cases hactive : u.active with
    | false => simp [Option.filter, hactive]
    | true => simp [Option.filter, hactive, huser]
  · cases hfind : db.subscriptions.find? (·.browser = (some r, t)) with
    | none => simp
    | some v =>
      have hv' : v.browser = (some r, t) := by simpa using Table.pred_of_find? hfind
      have hother : v.id ≠ w.id := by
        intro hvw
        have heq' := db.subscriptions.valid.1.eq (Table.mem_of_find? hfind) hv (hvw.trans hid.symm)
        rw [heq', hbrowser] at hv'
        exact heq (by simpa using hv')
      have hne : ¬ (root = r ∧ w.token = t
          ∧ Option.map (·.userId) (Option.filter (·.active) (some v)) = some userId) :=
        fun h => heq ⟨h.1, h.2.1⟩
      rw [if_neg hne]
      simp [WebPushSubscription.isOf, hother]

/-- A push that is refused. -/
theorem holder_deactivateToken {now : Timestamp}
    (h : (InboxWrite.deactivateToken token now).exec db = some db') (r t : String) :
    db'.holder r t = (BrowserEvent.refused token).after r t (db.holder r t) := by
  obtain ⟨T, hT, rfl⟩ := Option.map_eq_some_iff.mp h
  rw [BrowserEvent.after, holder_update hT fun _ => rfl, InboxDatabase.holder]
  cases hfind : db.subscriptions.find? (·.browser = (some r, t)) with
  | none => simp
  | some u =>
    have hu : u.browser = (some r, t) := by simpa using Table.pred_of_find? hfind
    have htoken : u.token = t := congrArg Prod.snd hu
    by_cases heq : token = t
    · simp [heq, htoken, Option.filter]
    · have hne : ¬ t = token := fun h => heq h.symm
      simp [heq, htoken, hne]

/-- **A commit does to the holders what it leaves in the history.** -/
theorem holder_commit {p : InboxPoint} (hne : (inboxCode P).writes p ≠ []) (hfound : FoundAt db p)
    (hrep : (inboxCode P).replay ((inboxCode P).writes p) db = some db') (r t : String) :
    db'.holder r t = p.events.foldl (BrowserEvent.after r t) (db.holder r t) := by
  obtain ⟨w, hw, hexec⟩ := replay_inboxCode hne hrep
  cases p with
  | registering id userId root token now =>
    obtain rfl := List.singleton_inj.mp hw
    exact holder_upsert hexec r t
  | removing w userId root now =>
    obtain rfl := List.singleton_inj.mp hw
    exact holder_deactivate hfound hexec r t
  | refused token now =>
    obtain rfl := List.singleton_inj.mp hw
    exact holder_deactivateToken hexec r t
  | marking userId root n readAt =>
    obtain rfl := List.singleton_inj.mp hw
    obtain ⟨T, hT, rfl⟩ := Option.map_eq_some_iff.mp hexec
    exact holder_congr rfl r t
  | markingAll userId root count now =>
    obtain rfl := List.singleton_inj.mp hw
    obtain ⟨-, T, -, rfl⟩ := exec_readAll hexec
    exact holder_congr rfl r t
  | creating notification deliveries now =>
    obtain rfl := List.singleton_inj.mp hw
    cases notification with
    | none =>
      obtain rfl := Option.some.inj hexec
      exact holder_congr rfl r t
    | some created =>
      obtain ⟨T, hT, rfl⟩ := Option.map_eq_some_iff.mp hexec
      exact holder_congr rfl r t
  | requested | querying | consuming | returned | failed | finished => exact absurd rfl hne

/-! ## The pushes -/

/-- The deliveries that a call is about to create. -/
def InboxPoint.deliveries : InboxPoint → List QueuedDelivery
  | creating _ deliveries _ => deliveries
  | _ => []

/-- **A push for a browser that its recipient held at some time.** -/
def PushedToHolder (history : List BrowserEvent) (d : QueuedDelivery) : Prop :=
  d.channel = .push → ∃ root, d.rootOrganizationId = some root ∧
    ∃ before, before <+: history ∧ holder before root d.destination = some d.userId

theorem PushedToHolder.append {d : QueuedDelivery} (h : PushedToHolder hist d)
    (events : List BrowserEvent) : PushedToHolder (hist ++ events) d := by
  intro hpush
  obtain ⟨root, hroot, before, hbefore, hheld⟩ := h hpush
  exact ⟨root, hroot, before, hbefore.trans (List.prefix_append hist events), hheld⟩

/-- The pushes among the deliveries of a command are to subscriptions. -/
theorem mem_createDeliveries {command : NotificationCommandV1} {user : Recipient}
    {rendered : RenderedNotification} {notification : Option Notification}
    {subscriptions : List String} {d : QueuedDelivery}
    (hd : d ∈ createDeliveries command user rendered notification subscriptions)
    (hpush : d.channel = .push) :
    d.userId = user.id ∧ d.rootOrganizationId = command.rootOrganizationId
      ∧ d.destination ∈ subscriptions := by
  rcases List.mem_append.mp hd with hd | hd
  · split at hd
    · obtain rfl := List.mem_singleton.mp hd
      cases hpush
    · cases hd
  · split at hd
    · obtain ⟨token, htoken, rfl⟩ := List.mem_map.mp hd
      exact ⟨rfl, rfl, htoken⟩
    · cases hd

/-- What a transaction that creates something has looked up. -/
theorem mem_processed {answers : Answers} {command : NotificationCommandV1}
    {notification : Option Notification} {deliveries : List QueuedDelivery}
    (h : processWithinTransaction P answers command = .ok (.created notification deliveries))
    {d : QueuedDelivery} (hd : d ∈ deliveries) (hpush : d.channel = .push) :
    answers.user.map (·.id) = some d.userId ∧ d.rootOrganizationId = command.rootOrganizationId
      ∧ d.destination ∈ answers.subscriptions := by
  rw [processWithinTransaction] at h
  split at h
  · cases h
  cases huser : answers.user with
  | none => rw [huser] at h; cases h
  | some user =>
    rw [huser] at h
    obtain ⟨_, -, h⟩ := bind_eq_ok.mp h
    obtain ⟨rendered, -, h⟩ := bind_eq_ok.mp h
    cases h
    obtain ⟨hid, hroot, hdestination⟩ := mem_createDeliveries hd hpush
    exact ⟨congrArg some hid.symm, hroot, hdestination⟩

/-- The browsers that a command looks up are held by its recipient. -/
theorem deliveries_next {p p' : InboxPoint} {x : InboxReading}
    (hheld : ∀ r t, db.holder r t = holder hist r t)
    (hrooted : ∀ w ∈ db.subscriptions, w.rootOrganizationId.isSome)
    (h : p.next P db x = some p') {d : QueuedDelivery} (hd : d ∈ p'.deliveries)
    (hpush : d.channel = .push) :
    ∃ root, d.rootOrganizationId = some root ∧ holder hist root d.destination = some d.userId := by
  cases p with
  | requested request user =>
    obtain rfl := Option.some.inj h
    split at hd
    · cases hd
    · split at hd <;> cases hd
  | querying request userId root =>
    obtain rfl := Option.some.inj h
    rw [show (request.next db x userId root).deliveries = [] from ?_] at hd
    · cases hd
    cases request with
    | list | markAllRead | registerWebPush | listWebPush => rfl
    | findOne id | markRead id | markUnread id | removeWebPush id =>
      simp only [InboxRequest.next]
      repeat' split
      all_goals rfl
  | consuming command =>
    obtain rfl := Option.some.inj h
    split at hd
    · next notification deliveries hprocess =>
      obtain ⟨huser, hroot, hdestination⟩ := mem_processed hprocess hd hpush
      obtain ⟨w, hw, htoken⟩ := List.mem_map.mp hdestination
      obtain ⟨hmem, hw⟩ := List.mem_filter.mp hw
      rw [Bool.and_eq_true, decide_eq_true_eq] at hw
      obtain ⟨⟨hwuser, hwroot⟩, hactive⟩ := hw
      obtain ⟨root, hsome⟩ := Option.isSome_iff_exists.mp (hrooted w hmem)
      have hid : w.userId = d.userId := hwuser.trans (by rw [huser]; rfl)
      refine ⟨root, hroot.trans (hwroot.symm.trans hsome), ?_⟩
      rw [← hheld]
      exact holder_eq_some.mpr ⟨w, hmem, hid, hsome, htoken, hactive⟩
    · cases hd
    · cases hd
  | marking | markingAll | registering | removing | creating | refused | returned | failed
  | finished => cases h

theorem exec_rooted {w : InboxWrite} (h : w.exec db = some db')
    (hrooted : ∀ v ∈ db.subscriptions, v.rootOrganizationId.isSome) :
    ∀ v ∈ db'.subscriptions, v.rootOrganizationId.isSome := by
  intro v hv
  cases w with
  | setReadAt =>
    obtain ⟨T, -, rfl⟩ := Option.map_eq_some_iff.mp h
    exact hrooted v hv
  | readAll =>
    obtain ⟨-, T, -, rfl⟩ := exec_readAll h
    exact hrooted v hv
  | upsert id userId root token now =>
    obtain ⟨T, rfl, ⟨_, -, -, hT⟩ | ⟨-, hT⟩⟩ := exec_upsert h
    · obtain ⟨u, hu, rfl⟩ := (Table.mem_update hT).mp hv
      split
      · exact hrooted u hu
      · exact hrooted u hu
    · rcases (Table.mem_insert hT).mp hv with hv | rfl
      · exact hrooted v hv
      · rfl
  | deactivate =>
    obtain ⟨-, T, hT, rfl⟩ := exec_deactivate h
    obtain ⟨u, hu, rfl⟩ := (Table.mem_update hT).mp hv
    split
    · exact hrooted u hu
    · exact hrooted u hu
  | deactivateToken =>
    obtain ⟨T, hT, rfl⟩ := Option.map_eq_some_iff.mp h
    obtain ⟨u, hu, rfl⟩ := (Table.mem_update hT).mp hv
    split
    · exact hrooted u hu
    · exact hrooted u hu
  | create notification deliveries now =>
    cases notification with
    | none =>
      obtain rfl := Option.some.inj h
      exact hrooted v hv
    | some n =>
      obtain ⟨T, hT, rfl⟩ := Option.map_eq_some_iff.mp h
      exact hrooted v hv

/-- The deliveries after a commit: those before it, and those that the call was to create. -/
theorem deliveries_commit {p : InboxPoint} (hne : (inboxCode P).writes p ≠ [])
    (hrep : (inboxCode P).replay ((inboxCode P).writes p) db = some db') :
    db'.deliveries = db.deliveries ++ p.deliveries := by
  obtain ⟨w, hw, hexec⟩ := replay_inboxCode hne hrep
  cases p with
  | creating notification deliveries now =>
    obtain rfl := List.singleton_inj.mp hw
    cases notification with
    | none =>
      obtain rfl := Option.some.inj hexec
      rfl
    | some created =>
      obtain ⟨T, hT, rfl⟩ := Option.map_eq_some_iff.mp hexec
      rfl
  | marking | registering | refused =>
    obtain rfl := List.singleton_inj.mp hw
    obtain ⟨T, -, rfl⟩ := Option.map_eq_some_iff.mp hexec
    exact (List.append_nil _).symm
  | markingAll =>
    obtain rfl := List.singleton_inj.mp hw
    obtain ⟨-, T, -, rfl⟩ := exec_readAll hexec
    exact (List.append_nil _).symm
  | removing =>
    obtain rfl := List.singleton_inj.mp hw
    obtain ⟨-, T, -, rfl⟩ := exec_deactivate hexec
    exact (List.append_nil _).symm
  | requested | querying | consuming | returned | failed | finished => exact absurd rfl hne

/-- **The table is a record of the history**, and the pushes are to browsers that were held. -/
structure BrowserRecord (db : InboxDatabase) (hist : List BrowserEvent) : Prop where
  held : ∀ root token, db.holder root token = holder hist root token
  rooted : ∀ w ∈ db.subscriptions, w.rootOrganizationId.isSome
  pushed : ∀ d ∈ db.deliveries, PushedToHolder hist d

/-- A call has found what it has found, and is about to push to browsers that were held. -/
def BrowserRecordAt (db : InboxDatabase) (hist : List BrowserEvent) (p : InboxPoint) : Prop :=
  FoundAt db p ∧ ∀ d ∈ p.deliveries, PushedToHolder hist d

/-- **The outline of the browsers.** -/
def browsers {ok : Sessions InboxDatabase InboxPoint BrowserEvent →
    CallLabel InboxPoint InboxReading (List (String × AccountStatus)) → Prop} :
    (inboxCode P).Outline ok where
  Inv := BrowserRecord
  At := BrowserRecordAt
  entry {db hist p} _ hp := by
    cases p with
    | requested | consuming | refused => exact ⟨trivial, by simp [InboxPoint.deliveries]⟩
    | querying | marking | markingAll | registering | removing | creating | returned | failed
    | finished => cases hp
  read hinv _ hread := ⟨foundAt_next hread, fun d hd hpush => by
    obtain ⟨root, hroot, hheld⟩ := deliveries_next hinv.held hinv.rooted hread hd hpush
    exact ⟨root, hroot, _, List.prefix_refl _, hheld⟩⟩
  rolledBack {db hist p} _ _ := by
    cases p <;> exact ⟨trivial, by simp [InboxPoint.deliveries, inboxCode]⟩
  commit {s i c db} _ hinv hat _ hne hrep := by
    obtain ⟨w, -, hw⟩ := replay_inboxCode hne hrep
    refine ⟨⟨fun r t => ?_, exec_rooted hw hinv.rooted, fun d hd => ?_⟩, ?_, fun j d _ _ hd =>
      ⟨hd.1.exec hw, fun e he => (hd.2 e he).append _⟩⟩
    · rw [holder_commit hne hat.1 hrep, hinv.held]
      exact (holder_append s.history r t c.pc.events).symm
    · rw [deliveries_commit hne hrep] at hd
      rcases List.mem_append.mp hd with hd | hd
      · exact (hinv.pushed d hd).append _
      · exact (hat.2 d hd).append _
    · obtain ⟨pc, executed⟩ := c
      cases pc <;> exact ⟨trivial, by simp [InboxPoint.deliveries, inboxCode]⟩
  outside {s users db} _ hinv hx := by
    obtain rfl := Option.some.inj hx
    refine ⟨⟨hinv.held, hinv.rooted, hinv.pushed⟩, fun ⟨p, _⟩ _ hp => ⟨?_, hp.2⟩⟩
    have hfound := hp.1
    cases p with
    | marking | removing => exact hfound
    | requested | querying | markingAll | registering | consuming | creating | refused | returned
    | failed | finished => trivial

/-! ## The runs -/

variable {s s' : Sessions InboxDatabase InboxPoint BrowserEvent}

theorem browsers_of_reachable (hs : (inboxMachine P).Reachable Machine.free s) :
    (browsers : (inboxCode P).Outline Machine.free).Holds s := by
  refine Code.Outline.holds_of_reachable (O := browsers)
    (fun db ⟨hsubscriptions, hdeliveries⟩ => ?_) hs
  have hnone : ∀ w, w ∉ db.subscriptions := by
    intro w hw
    rw [← Table.mem_rows, hsubscriptions] at hw
    cases hw
  refine ⟨fun root token => ?_, fun w hw => absurd hw (hnone w), fun d hd => ?_⟩
  · cases hholder : db.holder root token with
    | none => rfl
    | some userId =>
      obtain ⟨w, hw, -⟩ := holder_eq_some.mp hholder
      exact absurd hw (hnone w)
  · rw [hdeliveries] at hd
    cases hd

/-- **The subscriptions are a record of who holds which browser**: in every state of every
interleaving, a user has an active subscription for a browser of a university exactly if they
registered it last there, and have not removed it since, and no push to it was refused. -/
theorem held_iff (hs : (inboxMachine P).Reachable Machine.free s) :
    (∃ w ∈ s.db.subscriptions, w.userId = userId ∧ w.rootOrganizationId = some root
        ∧ w.token = token ∧ w.active = true)
      ↔ holder s.history root token = some userId := by
  rw [← (browsers_of_reachable hs).inv.held, holder_eq_some]

/-- **A push is for a browser of its recipient**: each that is ever created is for one that they held
in its university, at some time before. -/
theorem pushed_to_holder (hs : (inboxMachine P).Reachable Machine.free s) :
    ∀ d ∈ s.db.deliveries, d.channel = .push → ∃ root, d.rootOrganizationId = some root ∧
      ∃ before, before <+: s.history ∧ holder before root d.destination = some d.userId :=
  (browsers_of_reachable hs).inv.pushed

/-- A delivery that is created, or that a call is about to create. -/
def Pushing (s : Sessions InboxDatabase InboxPoint BrowserEvent) (d : QueuedDelivery) : Prop :=
  d ∈ s.db.deliveries ∨ ∃ c ∈ s.calls, d ∈ c.pc.deliveries

/-- No step is the user's registration of the browser in the university. -/
def notRegistering (userId root token : String)
    (s : Sessions InboxDatabase InboxPoint BrowserEvent) :
    CallLabel InboxPoint InboxReading (List (String × AccountStatus)) → Bool
  | .commit i => s.calls[i]?.all fun c =>
      decide (BrowserEvent.registered userId root token ∉ c.pc.events)
  | _ => true

/-- Who does not hold a browser has to register it. -/
theorem foldl_after_ne {events : List BrowserEvent} {h : Option String} (hne : h ≠ some userId)
    (hevents : BrowserEvent.registered userId root token ∉ events) :
    events.foldl (BrowserEvent.after root token) h ≠ some userId := by
  induction events generalizing h with
  | nil => exact hne
  | cons e events ih =>
    refine ih ?_ fun hmem => hevents (.tail e hmem)
    cases e with
    | registered u r t =>
      rw [BrowserEvent.after]
      split
      · next heq =>
        rintro hu
        obtain rfl := Option.some.inj hu
        obtain ⟨rfl, rfl⟩ := heq
        exact hevents List.mem_cons_self
      · exact hne
    | removed u r t =>
      rw [BrowserEvent.after]
      split
      · intro hnone
        cases hnone
      · exact hne
    | refused t =>
      rw [BrowserEvent.after]
      split
      · intro hnone
        cases hnone
      · exact hne

theorem entry_deliveries {p : InboxPoint} (h : (inboxCode P).entry p = true) : p.deliveries = [] := by
  cases p with
  | requested | consuming | refused => rfl
  | querying | marking | markingAll | registering | removing | creating | returned | failed
  | finished => cases h

theorem committed_deliveries (p : InboxPoint) : ((inboxCode P).committed p).deliveries = [] := by
  cases p <;> rfl

theorem rolledBack_deliveries (p : InboxPoint) : ((inboxCode P).rolledBack p).deliveries = [] := by
  cases p <;> rfl

/-- **A step that creates a push**, or is about to, was about to before, or finds the browser held. -/
theorem pushing_step (hinv : BrowserRecord s.db s.history)
    {l : CallLabel InboxPoint InboxReading (List (String × AccountStatus))}
    (h : (inboxCode P).step s l = some s') {d : QueuedDelivery} (hd : Pushing s' d)
    (hpush : d.channel = .push) :
    Pushing s d ∨ ∃ root, d.rootOrganizationId = some root
      ∧ holder s.history root d.destination = some d.userId := by
  have hmoved {i : ℕ} {p : InboxPoint} {c : Session InboxPoint}
      (hc : c ∈ (Code.moveTo s i p).calls) (hdc : d ∈ c.pc.deliveries) :
      Pushing s d ∨ d ∈ p.deliveries := by
    rcases Code.mem_set_cases hc with rfl | ⟨j, -, hj⟩
    · exact .inr hdc
    · exact .inl (.inr ⟨c, List.mem_of_getElem? hj, hdc⟩)
  cases Code.step_cases h with
  | @call p hp =>
    rcases hd with hd | ⟨c, hc, hdc⟩
    · exact .inl (.inl hd)
    · rcases List.mem_append.mp hc with hc | hc
      · exact .inl (.inr ⟨c, hc, hdc⟩)
      · obtain rfl := List.mem_singleton.mp hc
        rw [entry_deliveries hp] at hdc
        cases hdc
  | read hc h0 hread =>
    rcases hd with hd | ⟨c, hc', hdc⟩
    · exact .inl (.inl hd)
    · rcases hmoved hc' hdc with hold | hnew
      · exact .inl hold
      · exact .inr (deliveries_next hinv.held hinv.rooted hread hnew hpush)
  | @write i c hc hlt hrep =>
    rcases hd with hd | ⟨e, he, hde⟩
    · exact .inl (.inl hd)
    · rcases Code.mem_set_cases he with rfl | ⟨j, -, hj⟩
      · exact .inl (.inr ⟨c, List.mem_of_getElem? hc, hde⟩)
      · exact .inl (.inr ⟨e, List.mem_of_getElem? hj, hde⟩)
  | @commit i c db hc hpos hall hrep =>
    rcases hd with hd | ⟨e, he, hde⟩
    · rw [Code.moveTo_db, deliveries_commit (List.ne_nil_of_length_pos (hall ▸ hpos)) hrep] at hd
      rcases List.mem_append.mp hd with hd | hd
      · exact .inl (.inl hd)
      · exact .inl (.inr ⟨c, List.mem_of_getElem? hc, hd⟩)
    · rcases hmoved he hde with hold | hnew
      · exact .inl hold
      · rw [committed_deliveries] at hnew
        cases hnew
  | rollback hc =>
    rcases hd with hd | ⟨e, he, hde⟩
    · exact .inl (.inl hd)
    · rcases hmoved he hde with hold | hnew
      · exact .inl hold
      · rw [rolledBack_deliveries] at hnew
        cases hnew
  | outside hx =>
    obtain rfl := Option.some.inj hx
    exact .inl hd

/-- **Nothing is pushed to a browser that was taken over.**  Once a user does not hold a browser in a
university, and as long as they do not register it there again, no delivery of theirs for it comes
about but those that a transaction has looked up before. -/
theorem not_pushed_after_takeover (hs : (inboxMachine P).Reachable Machine.free s)
    (hlost : holder s.history root token ≠ some userId)
    (hrun : (inboxMachine P).Run (fun s l => notRegistering userId root token s l = true) s s') :
    ∀ d, Pushing s' d → d.channel = .push → d.userId = userId → d.rootOrganizationId = some root →
      d.destination = token → Pushing s d := by
  refine (hrun.invariant (I := fun t =>
    (browsers : (inboxCode P).Outline Machine.free).Holds t ∧
    holder t.history root token ≠ some userId ∧
    ∀ d, Pushing t d → d.channel = .push → d.userId = userId → d.rootOrganizationId = some root →
      d.destination = token → Pushing s d)
    ⟨browsers_of_reachable hs, hlost, fun d hd _ _ _ _ => hd⟩ ?_).2.2
  rintro t u l ⟨ht, hnot, hpushing⟩ hok hstep
  refine ⟨ht.step trivial hstep, ?_, fun d hd hpush huser hroot hdestination => ?_⟩
  · cases Code.step_cases hstep with
    | call | read | write | rollback | outside => exact hnot
    | @commit i c db hc hpos hall hrep =>
      have hevents : BrowserEvent.registered userId root token ∉ c.pc.events := by
        simpa [notRegistering, hc] using hok
      rw [Code.moveTo_history]
      refine (holder_append t.history root token c.pc.events).trans_ne ?_
      exact foldl_after_ne hnot hevents
  · rcases pushing_step ht.inv hstep hd hpush with hold | ⟨root', hroot', hheld⟩
    · exact hpushing d hold hpush huser hroot hdestination
    · obtain rfl := Option.some.inj (hroot'.symm.trans hroot)
      rw [hdestination, huser] at hheld
      exact absurd hheld hnot

/-! ## A browser with two users -/

/-- The steps of a registration by the `i`-th call. -/
def registration (i : ℕ) (userId : String) :
    List (CallLabel InboxPoint InboxReading (List (String × AccountStatus))) :=
  [.call (.requested (.registerWebPush "browser-token") (requester userId)), .read i {},
    .read i { now := 2, id := userId }, .write i, .commit i]

/-- Ana registers a browser and a command for her looks it up, before Ben registers it. -/
def takenOver : List (CallLabel InboxPoint InboxReading (List (String × AccountStatus))) :=
  registration 0 "ana" ++ [.call (.consuming (testCommand "ana")), .read 1 (testReading "ana" "n2")]
    ++ registration 2 "ben"

/-- That command creates its push, and the next one for her has none. -/
def testedAfterwards : List (CallLabel InboxPoint InboxReading (List (String × AccountStatus))) :=
  [.write 1, .commit 1, .call (.consuming (testCommand "ana")), .read 3 (testReading "ana" "n3"),
    .write 3, .commit 3]

/-- The browser is Ben's, and there is no delivery yet. -/
def isBens (s : Sessions InboxDatabase InboxPoint BrowserEvent) : Bool :=
  decide (s.history = [.registered "ana" "uni" "browser-token", .registered "ben" "uni" "browser-token"]
    ∧ s.db.deliveries = [])

/-- Ana has two notifications, and one was pushed to the browser. -/
def pushedOnce (s : Sessions InboxDatabase InboxPoint BrowserEvent) : Bool :=
  decide ((s.db.inbox "ana" "uni").map (·.created.id) = ["n1", "n2", "n3"]
    ∧ s.db.deliveries.map (fun d => (d.userId, d.destination)) = [("ana", "browser-token")])

theorem exists_takenOver : ∃ s s', (inboxMachine Platform.sample).Reachable Machine.free s
    ∧ isBens s = true
    ∧ (inboxMachine Platform.sample).Run
      (fun s l => notRegistering "ana" "uni" "browser-token" s l = true) s s'
    ∧ pushedOnce s' = true := by
  obtain ⟨s, hs, hp⟩ := (inboxMachine Platform.sample).exists_reachable (s := sampleInbox)
    (p := fun s => isBens s && (((inboxMachine Platform.sample).guarded
      (notRegistering "ana" "uni" "browser-token")).exec s testedAfterwards).any pushedOnce)
    takenOver sampleInbox_init (by decide +kernel)
  rw [Bool.and_eq_true] at hp
  obtain ⟨s', hrun, hs'⟩ := (inboxMachine Platform.sample).exists_run_guarded testedAfterwards hp.2
  exact ⟨s, s', hs, hp.1, hrun, hs'⟩

theorem held_iff_of_taken_over : ∃ s : Sessions InboxDatabase InboxPoint BrowserEvent,
    isBens s = true ∧ ((∃ w ∈ s.db.subscriptions, w.userId = "ben"
        ∧ w.rootOrganizationId = some "uni" ∧ w.token = "browser-token" ∧ w.active = true)
      ↔ holder s.history "uni" "browser-token" = some "ben") := by
  obtain ⟨s, -, hs, hbens, -⟩ := exists_takenOver
  exact ⟨s, hbens, held_iff hs⟩

theorem pushed_to_holder_of_taken_over : ∃ s, pushedOnce s = true
    ∧ ∀ d ∈ s.db.deliveries, d.channel = .push → ∃ root, d.rootOrganizationId = some root ∧
      ∃ before, before <+: s.history ∧ holder before root d.destination = some d.userId := by
  obtain ⟨s, s', hs, -, hrun, hp⟩ := exists_takenOver
  exact ⟨s', hp, pushed_to_holder (hs.run (hrun.mono fun _ _ _ => trivial))⟩

theorem not_pushed_after_takeover_by_ben : ∃ s s', isBens s = true ∧ pushedOnce s' = true
    ∧ ∀ d, Pushing s' d → d.channel = .push → d.userId = "ana" → d.rootOrganizationId = some "uni" →
      d.destination = "browser-token" → Pushing s d := by
  obtain ⟨s, s', hs, hbens, hrun, hp⟩ := exists_takenOver
  have hlost : holder s.history "uni" "browser-token" ≠ some "ana" := by
    rw [(of_decide_eq_true hbens).1]
    decide
  exact ⟨s, s', hbens, hp, not_pushed_after_takeover hs hlost hrun⟩

end ResourceHive.Notifications
