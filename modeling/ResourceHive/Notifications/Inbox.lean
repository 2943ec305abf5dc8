import ResourceHive.Machinery.Transactions
import ResourceHive.Machinery.Table
import ResourceHive.Notifications.Processing
import ResourceHive.Notifications.Realtime
import ResourceHive.Organizations.Membership
import ResourceHive.Points.Ledger

/-!
# Notifications/Inbox — the notifications of a user, and the browsers they are pushed to

`NotificationReadService` with its repository, the transaction of `NotificationCommandService`, and
what `FcmPushProvider` does about a token that is not valid any more, as programs over `notifications`,
`web_push_subscriptions` and the deliveries that are created.

A request that marks a notification looks for it under its user and university, and then updates it
by its id alone.  A notification never changes hands, so that is enough: whatever is interleaved, the
inbox of a user in a university changes by requests of that user there, and by new notifications
(`inbox_own`).

A single statement that writes and answers (`updateMany`, `upsert`) is planned in a step of its own,
with its answer, and executed where that is what it answers.
-/

namespace ResourceHive

/-- `Label`, where the name is that of another machine's. -/
abbrev CallLabel (P I X : Type) := Label P I X

end ResourceHive

namespace ResourceHive.Notifications

/-! ## The tables -/

/-- A row of `notifications`: as created, and whether it is read. -/
structure InboxNotification where
  created : Notification
  createdAt : Timestamp
  readAt : Option Timestamp := none
  deriving DecidableEq, Repr

/-- A row of `web_push_subscriptions`. -/
structure WebPushSubscription where
  id : String
  userId : String
  rootOrganizationId : Option String
  token : String
  active : Bool := true
  createdAt : Timestamp
  updatedAt : Timestamp
  deriving DecidableEq, Repr

namespace WebPushSubscription

/-- The browser of a university that a subscription is for. -/
def browser (w : WebPushSubscription) : Option String × String := (w.rootOrganizationId, w.token)

/-- `where: { id, userId, rootOrganizationId }` -/
def isOf (id userId root : String) (w : WebPushSubscription) : Bool :=
  decide (w.id = id ∧ w.userId = userId ∧ w.rootOrganizationId = some root)

@[simp] theorem isOf_iff {id userId root : String} {w : WebPushSubscription} :
    w.isOf id userId root = true ↔
      w.id = id ∧ w.userId = userId ∧ w.rootOrganizationId = some root := decide_eq_true_iff

/-- The primary key, and `web_push_subscriptions_root_token_unique`, for which no `NULL` is another. -/
def Constraints (rows : List WebPushSubscription) : Prop :=
  Table.Unique id rows ∧ Table.UniqueWhere (·.rootOrganizationId.isSome) browser rows

instance : DecidablePred Constraints := fun _ => inferInstanceAs (Decidable (_ ∧ _))

end WebPushSubscription

structure InboxDatabase where
  users : List (String × AccountStatus)
  notifications : Table InboxNotification (Table.Unique (·.created.id))
  subscriptions : Table WebPushSubscription WebPushSubscription.Constraints
  deliveries : List QueuedDelivery

namespace InboxDatabase

def isActiveUser (db : InboxDatabase) (userId : String) : Bool :=
  db.users.any fun u => decide (u.1 = userId) && decide (u.2 = .active)

/-- The notifications of a user in a university. -/
def inbox (db : InboxDatabase) (userId root : String) : List InboxNotification :=
  db.notifications.rows.filter fun n =>
    decide (n.created.userId = userId ∧ n.created.rootOrganizationId = some root)

/-- The unread ones. -/
def unread (db : InboxDatabase) (userId root : String) : List InboxNotification :=
  (db.inbox userId root).filter (·.readAt.isNone)

/-- `findByIdForUser` -/
def findByIdForUser (db : InboxDatabase) (id userId root : String) : Option InboxNotification :=
  (db.inbox userId root).find? (·.created.id = id)

/-- `orderBy: [{ createdAt: "desc" }, { id: "desc" }]` -/
def newer (a b : InboxNotification) : Bool :=
  decide (b.createdAt < a.createdAt ∨ a.createdAt = b.createdAt ∧ b.created.id ≤ a.created.id)

/-- `findManyForUser` -/
def findManyForUser (db : InboxDatabase) (userId root : String) (unreadOnly : Bool)
    (skip take : ℕ) : List InboxNotification :=
  let selected := (db.inbox userId root).filter fun n => !unreadOnly || n.readAt.isNone
  ((selected.mergeSort newer).drop skip).take take

/-- The active subscriptions of a user in a university. -/
def subscribed (db : InboxDatabase) (userId : String) (root : Option String) :
    List WebPushSubscription :=
  db.subscriptions.rows.filter fun w =>
    decide (w.userId = userId ∧ w.rootOrganizationId = root) && w.active

end InboxDatabase

/-! ## Requests -/

inductive InboxRequest
  | list (unreadOnly : Bool) (skip take : ℕ)
  | findOne (id : String)
  | markRead (id : String)
  | markUnread (id : String)
  | markAllRead
  | registerWebPush (token : String)
  | listWebPush
  | removeWebPush (id : String)
  deriving DecidableEq, Repr

structure NotificationView where
  id : String
  type : String
  title : String
  message : String
  readAt : Option Timestamp
  createdAt : Timestamp
  deriving DecidableEq, Repr

/-- `toView` -/
def InboxNotification.view (n : InboxNotification) : NotificationView :=
  ⟨n.created.id, n.created.type, n.created.title, n.created.message, n.readAt, n.createdAt⟩

structure SubscriptionView where
  id : String
  active : Bool
  updatedAt : Timestamp
  deriving DecidableEq, Repr

/-- `subscriptionView` -/
def WebPushSubscription.view (w : WebPushSubscription) : SubscriptionView :=
  ⟨w.id, w.active, w.updatedAt⟩

inductive InboxResponse
  | notifications (views : List NotificationView)
  | notification (view : NotificationView)
  | updatedCount (count : ℕ)
  | subscription (view : SubscriptionView)
  | subscriptions (views : List SubscriptionView)
  | removed
  deriving DecidableEq, Repr

inductive InboxError
  | activeAccountRequired
  | selectUniversity
  | notificationNotFound
  | subscriptionNotFound
  deriving DecidableEq, Repr

namespace InboxError

/-- The HTTP status of the exception's class. -/
def status : InboxError → ℕ
  | activeAccountRequired | selectUniversity => 401
  | notificationNotFound | subscriptionNotFound => 404

def message : InboxError → String
  | activeAccountRequired => "An active account is required"
  | selectUniversity => "Select a university first"
  | notificationNotFound => "Notification not found"
  | subscriptionNotFound => "Web push subscription not found"

end InboxError

/-! ## The programs -/

/-- Where a request is, or the consumption of a command, or the push to a token. -/
inductive InboxPoint
  | requested (request : InboxRequest) (user : AuthenticatedUser)
  | querying (request : InboxRequest) (userId root : String)
  /-- A notification was found to be the requester's. -/
  | marking (userId root : String) (notification : InboxNotification) (readAt : Option Timestamp)
  | markingAll (userId root : String) (count : ℕ) (now : Timestamp)
  | registering (id userId root token : String) (now : Timestamp)
  | removing (subscription : WebPushSubscription) (userId root : String) (now : Timestamp)
  /-- In the transaction, and the recipient's membership is found. -/
  | consuming (command : NotificationCommandV1)
  | creating (notification : Option Notification) (deliveries : List QueuedDelivery)
      (now : Timestamp)
  /-- A push was refused because of its token. -/
  | refused (token : String) (now : Timestamp)
  | returned (response : InboxResponse)
  /-- `none` where a statement threw. -/
  | failed (error : Option InboxError)
  | finished
  deriving DecidableEq

inductive InboxWrite
  | setReadAt (id : String) (readAt : Option Timestamp)
  | readAll (userId root : String) (count : ℕ) (now : Timestamp)
  | upsert (id userId root token : String) (now : Timestamp)
  | deactivate (id userId root : String) (now : Timestamp)
  | deactivateToken (token : String) (now : Timestamp)
  | create (notification : Option Notification) (deliveries : List QueuedDelivery)
      (now : Timestamp)
  deriving DecidableEq

/-- What was done about a browser. -/
inductive BrowserEvent
  | registered (userId root token : String)
  | removed (userId root token : String)
  | refused (token : String)
  deriving DecidableEq, Repr

/-- What a step takes from outside: the time, a fresh id, and what the other statements of the
transaction of a command answer. -/
structure InboxReading where
  now : Timestamp := 0
  id : String := ""
  answers : Answers := ⟨true, none, true, [], ""⟩

/-- **The requests**, up to the statement that writes. -/
def InboxRequest.next (db : InboxDatabase) (x : InboxReading) (userId root : String) :
    InboxRequest → InboxPoint
  | list unreadOnly skip take =>
    .returned (.notifications ((db.findManyForUser userId root unreadOnly skip take).map
      (·.view)))
  | findOne id =>
    match db.findByIdForUser id userId root with
    | none => .failed (some .notificationNotFound)
    | some n => .returned (.notification n.view)
  | markRead id =>
    match db.findByIdForUser id userId root with
    | none => .failed (some .notificationNotFound)
    | some n =>
      if n.readAt.isSome then .returned (.notification n.view)
      else .marking userId root n (some x.now)
  | markUnread id =>
    match db.findByIdForUser id userId root with
    | none => .failed (some .notificationNotFound)
    | some n =>
      if n.readAt.isNone then .returned (.notification n.view) else .marking userId root n none
  | markAllRead => .markingAll userId root (db.unread userId root).length x.now
  | registerWebPush token =>
    let existing := db.subscriptions.find? (·.browser = (some root, trim token))
    .registering ((existing.map (·.id)).getD x.id) userId root (trim token) x.now
  | listWebPush =>
    .returned (.subscriptions (((db.subscribed userId (some root)).mergeSort
      fun a b => decide (b.createdAt ≤ a.createdAt)).map (·.view)))
  | removeWebPush id =>
    match db.subscriptions.find? (·.isOf id userId root) with
    | none => .failed (some .subscriptionNotFound)
    | some w => .removing w userId root x.now

variable (P : Platform)

/-- **The steps that only read.** -/
def InboxPoint.next (db : InboxDatabase) (x : InboxReading) : InboxPoint → Option InboxPoint
  | requested request user =>
    some <| if !db.isActiveUser user.userId then .failed (some .activeAccountRequired)
      else match user.rootOrganizationId.filter (· ≠ "") with
        | none => .failed (some .selectUniversity)
        | some root => .querying request user.userId root
  | querying request userId root => some (request.next db x userId root)
  | consuming command =>
    let userId := (x.answers.user.map (·.id)).getD ""
    let subscriptions := (db.subscribed userId command.rootOrganizationId).map (·.token)
    some <| match processWithinTransaction P { x.answers with subscriptions } command with
      | .ok (.created notification deliveries) => .creating notification deliveries x.now
      | .ok .duplicate | .error _ => .finished
  | marking _ _ _ _ | markingAll _ _ _ _ | registering _ _ _ _ _ | removing _ _ _ _ | creating _ _ _
  | refused _ _ | returned _ | failed _ | finished => none

/-- **The statements that write**; `none` also where one answers something else than planned. -/
def InboxWrite.exec (db : InboxDatabase) : InboxWrite → Option InboxDatabase
  | setReadAt id readAt =>
    (db.notifications.update (·.created.id = id) fun n => { n with readAt }).map
      ({ db with notifications := · })
  | readAll userId root count now =>
    if (db.unread userId root).length = count then
      (db.notifications.update (fun n => decide (n.created.userId = userId
          ∧ n.created.rootOrganizationId = some root) && n.readAt.isNone)
        fun n => { n with readAt := some now }).map ({ db with notifications := · })
    else none
  | upsert id userId root token now =>
    (match db.subscriptions.find? (·.browser = (some root, token)) with
    | some existing =>
      if existing.id = id then
        db.subscriptions.update (·.browser = (some root, token)) fun w =>
          { w with userId, active := true, updatedAt := now }
      else none
    | none =>
      db.subscriptions.insert
        { id, userId, rootOrganizationId := some root, token, createdAt := now,
          updatedAt := now }).map ({ db with subscriptions := · })
  | deactivate id userId root now =>
    if (db.subscriptions.rows.any (·.isOf id userId root)) then
      (db.subscriptions.update (·.isOf id userId root) fun w =>
        { w with active := false, updatedAt := now }).map ({ db with subscriptions := · })
    else none
  | deactivateToken token now =>
    (db.subscriptions.update (·.token = token) fun w =>
      { w with active := false, updatedAt := now }).map ({ db with subscriptions := · })
  | create notification deliveries now =>
    match notification with
    | none => some { db with deliveries := db.deliveries ++ deliveries }
    | some created =>
      (db.notifications.insert { created, createdAt := now }).map fun notifications =>
        { db with notifications, deliveries := db.deliveries ++ deliveries }

/-- What a commit does about a browser. -/
def InboxPoint.events : InboxPoint → List BrowserEvent
  | registering _ userId root token _ => [.registered userId root token]
  | removing w userId root _ => [.removed userId root w.token]
  | refused token _ => [.refused token]
  | _ => []

/-- The calls of the notification service. -/
def inboxCode : Code InboxDatabase InboxPoint InboxWrite InboxReading
    (List (String × AccountStatus)) BrowserEvent where
  entry
    | .requested _ _ | .consuming _ | .refused _ _ => true
    | _ => false
  read db p x := p.next P db x
  writes
    | .marking _ _ n readAt => [.setReadAt n.created.id readAt]
    | .markingAll userId root count now => [.readAll userId root count now]
    | .registering id userId root token now => [.upsert id userId root token now]
    | .removing w userId root now => [.deactivate w.id userId root now]
    | .creating notification deliveries now => [.create notification deliveries now]
    | .refused token now => [.deactivateToken token now]
    | _ => []
  exec w db := w.exec db
  committed
    | .marking _ _ n readAt => .returned (.notification { n with readAt }.view)
    | .markingAll _ _ count _ => .returned (.updatedCount count)
    | .registering id _ _ _ now => .returned (.subscription ⟨id, true, now⟩)
    | .removing _ _ _ _ => .returned .removed
    | _ => .finished
  rolledBack
    | .returned response => .returned response
    | .consuming _ | .creating _ _ _ | .refused _ _ | .finished => .finished
    | .failed error => .failed error
    | _ => .failed none
  emits p := p.events
  outside users db := some { db with users }

/-- **The notification service**, before the first subscription. -/
def inboxMachine : Machine (Sessions InboxDatabase InboxPoint BrowserEvent)
    (CallLabel InboxPoint InboxReading (List (String × AccountStatus))) :=
  (inboxCode P).machine fun db => db.subscriptions.rows = [] ∧ db.deliveries = []

/-! ## What a statement leaves as it is -/

variable {P : Platform} {db db' : InboxDatabase}

/-- A call that writes runs one statement. -/
theorem replay_inboxCode {p : InboxPoint} (hne : (inboxCode P).writes p ≠ [])
    (h : (inboxCode P).replay ((inboxCode P).writes p) db = some db') :
    ∃ w, (inboxCode P).writes p = [w] ∧ w.exec db = some db' := by
  obtain ⟨w, hw⟩ : ∃ w, (inboxCode P).writes p = [w] := by
    cases p with
    | marking | markingAll | registering | removing | creating | refused => exact ⟨_, rfl⟩
    | requested | querying | consuming | returned | failed | finished => exact absurd rfl hne
  rw [hw] at h
  obtain ⟨db₁, hexec, hrest⟩ := Option.bind_eq_some_iff.mp h
  obtain rfl := Option.some.inj hrest
  exact ⟨w, hw, hexec⟩

variable {userId root : String}

theorem exec_readAll {count : ℕ} {now : Timestamp}
    (h : (InboxWrite.readAll userId root count now).exec db = some db') :
    (db.unread userId root).length = count ∧ ∃ T, db.notifications.update
        (fun n => decide (n.created.userId = userId ∧ n.created.rootOrganizationId = some root)
          && n.readAt.isNone) (fun n => { n with readAt := some now }) = some T
      ∧ { db with notifications := T } = db' := by
  obtain ⟨hcount, h⟩ := Option.ite_none_right_eq_some.mp h
  exact ⟨hcount, Option.map_eq_some_iff.mp h⟩

/-- An `upsert` updates the row that is there, or inserts one. -/
theorem exec_upsert {id token : String} {now : Timestamp}
    (h : (InboxWrite.upsert id userId root token now).exec db = some db') :
    ∃ T, { db with subscriptions := T } = db' ∧
      ((∃ w, db.subscriptions.find? (·.browser = (some root, token)) = some w ∧ w.id = id
          ∧ db.subscriptions.update (·.browser = (some root, token))
            (fun w => { w with userId, active := true, updatedAt := now }) = some T)
        ∨ (db.subscriptions.find? (·.browser = (some root, token)) = none
          ∧ db.subscriptions.insert
            { id, userId, rootOrganizationId := some root, token, createdAt := now,
              updatedAt := now } = some T)) := by
  obtain ⟨T, hT, hdb⟩ := Option.map_eq_some_iff.mp h
  refine ⟨T, hdb, ?_⟩
  split at hT
  · next w hw =>
    obtain ⟨hid, hT⟩ := Option.ite_none_right_eq_some.mp hT
    exact .inl ⟨w, hw, hid, hT⟩
  · next hnone => exact .inr ⟨hnone, hT⟩

theorem exec_deactivate {id : String} {now : Timestamp}
    (h : (InboxWrite.deactivate id userId root now).exec db = some db') :
    (∃ w ∈ db.subscriptions, w.isOf id userId root = true) ∧ ∃ T, db.subscriptions.update
        (·.isOf id userId root) (fun w => { w with active := false, updatedAt := now }) = some T
      ∧ { db with subscriptions := T } = db' := by
  obtain ⟨hany, h⟩ := Option.ite_none_right_eq_some.mp h
  exact ⟨List.any_eq_true.mp hany, Option.map_eq_some_iff.mp h⟩

/-- The notifications as they were created. -/
def InboxDatabase.created (db : InboxDatabase) : List (Notification × Timestamp) :=
  db.notifications.rows.map fun n => (n.created, n.createdAt)

theorem exec_created {w : InboxWrite} (h : w.exec db = some db') :
    db.created <+: db'.created := by
  cases w with
  | setReadAt id readAt =>
    obtain ⟨T, hT, rfl⟩ := Option.map_eq_some_iff.mp h
    exact ⟨[], (List.append_nil _).trans (Table.map_update hT fun _ => rfl).symm⟩
  | readAll userId root count now =>
    obtain ⟨-, T, hT, rfl⟩ := exec_readAll h
    exact ⟨[], (List.append_nil _).trans (Table.map_update hT fun _ => rfl).symm⟩
  | upsert | deactivateToken =>
    obtain ⟨T, hT, rfl⟩ := Option.map_eq_some_iff.mp h
    exact List.prefix_refl _
  | deactivate =>
    obtain ⟨-, T, -, rfl⟩ := exec_deactivate h
    exact List.prefix_refl _
  | create notification deliveries now =>
    cases notification with
    | none =>
      obtain rfl := Option.some.inj h
      exact List.prefix_refl _
    | some n =>
      obtain ⟨T, hT, rfl⟩ := Option.map_eq_some_iff.mp h
      rw [InboxDatabase.created, InboxDatabase.created, Table.insert_eq_some.mp hT, List.map_append]
      exact List.prefix_append _ _

/-- A subscription keeps its id, its university and its token. -/
theorem exec_subscriptions {w : InboxWrite} (h : w.exec db = some db') {v : WebPushSubscription}
    (hv : v ∈ db.subscriptions) :
    ∃ v' ∈ db'.subscriptions, v'.id = v.id ∧ v'.browser = v.browser := by
  cases w with
  | setReadAt id readAt =>
    obtain ⟨T, hT, rfl⟩ := Option.map_eq_some_iff.mp h
    exact ⟨v, hv, rfl, rfl⟩
  | readAll userId root count now =>
    obtain ⟨-, T, -, rfl⟩ := exec_readAll h
    exact ⟨v, hv, rfl, rfl⟩
  | upsert id userId root token now =>
    obtain ⟨T, rfl, ⟨_, -, -, hT⟩ | ⟨-, hT⟩⟩ := exec_upsert h
    · exact Table.exists_mem_update hT (R := fun v v' => v'.id = v.id ∧ v'.browser = v.browser)
        (fun _ => ⟨rfl, rfl⟩) (fun _ => ⟨rfl, rfl⟩) hv
    · exact ⟨v, (Table.mem_insert hT).mpr (.inl hv), rfl, rfl⟩
  | deactivate id userId root now =>
    obtain ⟨-, T, hT, rfl⟩ := exec_deactivate h
    exact Table.exists_mem_update hT (R := fun v v' => v'.id = v.id ∧ v'.browser = v.browser)
      (fun _ => ⟨rfl, rfl⟩) (fun _ => ⟨rfl, rfl⟩) hv
  | deactivateToken =>
    obtain ⟨T, hT, rfl⟩ := Option.map_eq_some_iff.mp h
    exact Table.exists_mem_update hT (R := fun v v' => v'.id = v.id ∧ v'.browser = v.browser)
      (fun _ => ⟨rfl, rfl⟩) (fun _ => ⟨rfl, rfl⟩) hv
  | create notification deliveries now =>
    cases notification with
    | none =>
      obtain rfl := Option.some.inj h
      exact ⟨v, hv, rfl, rfl⟩
    | some n =>
      obtain ⟨T, hT, rfl⟩ := Option.map_eq_some_iff.mp h
      exact ⟨v, hv, rfl, rfl⟩

/-! ## A user's inbox -/

theorem inbox_update {T : Table InboxNotification (Table.Unique (·.created.id))}
    {p : InboxNotification → Bool} {f : InboxNotification → InboxNotification}
    (h : db.notifications.update p f = some T) (hf : ∀ n, (f n).created = n.created)
    (hp : ∀ n ∈ db.inbox userId root, p n = false) :
    { db with notifications := T }.inbox userId root = db.inbox userId root := by
  have hkept : ∀ n : InboxNotification, (if p n then f n else n).created = n.created := by
    intro n
    split
    · exact hf n
    · rfl
  have hrows := Table.update_eq_some.mp h
  simp only [InboxDatabase.inbox] at hp ⊢
  rw [hrows, List.filter_map]
  simp only [Function.comp_def, hkept]
  conv_rhs => rw [← List.map_id (List.filter _ db.notifications.rows)]
  refine List.map_congr_left fun n hn => ?_
  rw [hp n hn]
  rfl

/-- The user and the university of a request that changes notifications. -/
def InboxPoint.owner : InboxPoint → Option (String × String)
  | marking userId root _ _ | markingAll userId root _ _ => some (userId, root)
  | _ => none

/-- Where a notification or a subscription was found, it is; and the notification is the
requester's. -/
def FoundAt (db : InboxDatabase) : InboxPoint → Prop
  | .marking userId root n _ => (n.created, n.createdAt) ∈ db.created
      ∧ n.created.userId = userId ∧ n.created.rootOrganizationId = some root
  | .removing w _ root _ => w.rootOrganizationId = some root
      ∧ ∃ v ∈ db.subscriptions, v.id = w.id ∧ v.browser = w.browser
  | _ => True

theorem FoundAt.exec {p : InboxPoint} {w : InboxWrite} (h : FoundAt db p)
    (hw : w.exec db = some db') : FoundAt db' p := by
  cases p with
  | marking userId root n readAt => exact ⟨(exec_created hw).subset h.1, h.2⟩
  | removing w userId root now =>
    obtain ⟨hroot, v, hv, hid, hbrowser⟩ := h
    obtain ⟨v', hv', hid', hbrowser'⟩ := exec_subscriptions hw hv
    exact ⟨hroot, v', hv', hid'.trans hid, hbrowser'.trans hbrowser⟩
  | requested | querying | markingAll | registering | consuming | creating | refused | returned
  | failed | finished => trivial

theorem findByIdForUser_eq_some {id : String} {n : InboxNotification}
    (h : db.findByIdForUser id userId root = some n) :
    n ∈ db.notifications ∧ n.created.userId = userId ∧ n.created.rootOrganizationId = some root := by
  have hmem := List.mem_filter.mp (List.mem_of_find?_eq_some h)
  exact ⟨hmem.1, of_decide_eq_true hmem.2⟩

theorem foundAt_request {request : InboxRequest} {x : InboxReading} :
    FoundAt db (request.next db x userId root) := by
  cases request with
  | markRead id | markUnread id =>
    simp only [InboxRequest.next]
    split
    · trivial
    · next n hn =>
      split
      · trivial
      · obtain ⟨hmem, howned⟩ := findByIdForUser_eq_some hn
        exact ⟨List.mem_map_of_mem hmem, howned⟩
  | findOne id =>
    simp only [InboxRequest.next]
    split <;> trivial
  | removeWebPush id =>
    simp only [InboxRequest.next]
    split
    · trivial
    · next w hw =>
      have hfound := WebPushSubscription.isOf_iff.mp (Table.pred_of_find? hw)
      exact ⟨hfound.2.2, w, Table.mem_of_find? hw, rfl, rfl⟩
  | list | markAllRead | registerWebPush | listWebPush => trivial

theorem foundAt_next {p p' : InboxPoint} {x : InboxReading} (h : p.next P db x = some p') :
    FoundAt db p' := by
  cases p with
  | requested request user =>
    obtain rfl := Option.some.inj h
    split
    · trivial
    · split <;> trivial
  | querying request userId root =>
    obtain rfl := Option.some.inj h
    exact foundAt_request
  | consuming command =>
    obtain rfl := Option.some.inj h
    split <;> trivial
  | marking | markingAll | registering | removing | creating | refused | returned | failed
  | finished => cases h

/-- **What a call has found is where it found it.** -/
def found {ok : Sessions InboxDatabase InboxPoint BrowserEvent →
    CallLabel InboxPoint InboxReading (List (String × AccountStatus)) → Prop} :
    (inboxCode P).Outline ok where
  Inv _ _ := True
  At db _ p := FoundAt db p
  entry {db hist p} _ hp := by
    cases p with
    | requested | consuming | refused => trivial
    | querying | marking | markingAll | registering | removing | creating | returned | failed
    | finished => cases hp
  read _ _ hread := foundAt_next hread
  rolledBack {db hist p} _ _ := by
    cases p <;> trivial
  commit {s i c db} _ _ _ _ hne hrep := by
    obtain ⟨w, -, hw⟩ := replay_inboxCode hne hrep
    refine ⟨trivial, ?_, fun _ _ _ _ hd => hd.exec hw⟩
    obtain ⟨pc, executed⟩ := c
    cases pc <;> trivial
  outside {s users db} _ _ hx := by
    obtain rfl := Option.some.inj hx
    refine ⟨trivial, fun ⟨p, _⟩ _ hp => ?_⟩
    cases p with
    | marking | removing => exact hp
    | requested | querying | markingAll | registering | consuming | creating | refused | returned
    | failed | finished => trivial

/-- A statement of someone else's call leaves an inbox as it is, but for new notifications. -/
theorem inbox_commit {p : InboxPoint} (hne : (inboxCode P).writes p ≠ [])
    (hfound : FoundAt db p) (howner : p.owner ≠ some (userId, root))
    (hrep : (inboxCode P).replay ((inboxCode P).writes p) db = some db') :
    ∃ new, db'.inbox userId root = db.inbox userId root ++ new ∧ ∀ n ∈ new, n.readAt = none := by
  obtain ⟨w, hw, hexec⟩ := replay_inboxCode hne hrep
  cases p with
  | marking userId' root' n readAt =>
    obtain rfl := List.singleton_inj.mp hw
    obtain ⟨T, hT, rfl⟩ := Option.map_eq_some_iff.mp hexec
    refine ⟨[], (inbox_update hT (fun _ => rfl) fun m hm => ?_).trans (List.append_nil _).symm,
      by simp⟩
    obtain ⟨hmem, huser', hroot'⟩ := hfound
    obtain ⟨v, hv, hvn⟩ := List.mem_map.mp hmem
    obtain ⟨hm, howned⟩ := List.mem_filter.mp hm
    refine decide_eq_false fun hid => howner ?_
    have heq := db.notifications.valid.eq hm hv (hid.trans (congrArg (·.1.id) hvn).symm)
    have hcreated : m.created = n.created := (congrArg _ heq).trans (congrArg Prod.fst hvn)
    obtain ⟨huser, hroot⟩ := of_decide_eq_true howned
    rw [hcreated] at huser hroot
    rw [InboxPoint.owner, ← huser', huser, ← Option.some.inj (hroot'.symm.trans hroot)]
  | markingAll userId' root' count now =>
    obtain rfl := List.singleton_inj.mp hw
    obtain ⟨-, T, hT, rfl⟩ := exec_readAll hexec
    refine ⟨[], (inbox_update hT (fun _ => rfl) fun m hm => ?_).trans (List.append_nil _).symm,
      by simp⟩
    obtain ⟨huser, hroot⟩ := of_decide_eq_true (List.mem_filter.mp hm).2
    rw [Bool.and_eq_false_iff]
    refine .inl (decide_eq_false fun ⟨huser', hroot'⟩ => howner ?_)
    rw [InboxPoint.owner, ← huser', huser, ← Option.some.inj (hroot'.symm.trans hroot)]
  | removing w userId' root' now =>
    obtain rfl := List.singleton_inj.mp hw
    obtain ⟨-, T, -, rfl⟩ := exec_deactivate hexec
    exact ⟨[], (List.append_nil _).symm, by simp⟩
  | registering | refused =>
    obtain rfl := List.singleton_inj.mp hw
    obtain ⟨T, hT, rfl⟩ := Option.map_eq_some_iff.mp hexec
    exact ⟨[], (List.append_nil _).symm, by simp⟩
  | creating notification deliveries now =>
    obtain rfl := List.singleton_inj.mp hw
    cases notification with
    | none =>
      obtain rfl := Option.some.inj hexec
      exact ⟨[], (List.append_nil _).symm, by simp⟩
    | some created =>
      obtain ⟨T, hT, rfl⟩ := Option.map_eq_some_iff.mp hexec
      refine ⟨[{ created, createdAt := now }].filter fun n => decide (n.created.userId = userId
        ∧ n.created.rootOrganizationId = some root), ?_, fun n hn => ?_⟩
      · rw [InboxDatabase.inbox, Table.insert_eq_some.mp hT, List.filter_append]
        rfl
      · obtain rfl := List.mem_singleton.mp (List.mem_of_mem_filter hn)
        rfl
  | requested | querying | consuming | returned | failed | finished => exact absurd rfl hne

variable {s t : Sessions InboxDatabase InboxPoint BrowserEvent}

/-- No step is a commit of a request of the user in the university. -/
def notOwn (userId root : String) (s : Sessions InboxDatabase InboxPoint BrowserEvent) :
    CallLabel InboxPoint InboxReading (List (String × AccountStatus)) → Bool
  | .commit i => s.calls[i]?.all fun c => decide (c.pc.owner ≠ some (userId, root))
  | _ => true

/-- **A user's inbox changes by their own requests only.**  From any state there is, and whatever is
interleaved, while none of them commits it only gets new notifications, which are unread. -/
theorem inbox_own (hs : (inboxMachine P).Reachable Machine.free s)
    (hrun : (inboxMachine P).Run (fun s l => notOwn userId root s l = true) s t) :
    ∃ new, t.db.inbox userId root = s.db.inbox userId root ++ new
      ∧ ∀ n ∈ new, n.readAt = none := by
  have hfound := Code.Outline.holds_of_reachable (O := found) (fun _ _ => trivial) hs
  refine (hrun.invariant (I := fun t =>
    (found : (inboxCode P).Outline Machine.free).Holds t ∧
    ∃ new, t.db.inbox userId root = s.db.inbox userId root ++ new ∧ ∀ n ∈ new, n.readAt = none)
    ⟨hfound, [], (List.append_nil _).symm, by simp⟩ ?_).2
  rintro t u l ⟨ht, new, hnew, hunread⟩ hok hstep
  refine ⟨ht.step trivial hstep, ?_⟩
  rcases ht.db_cases hstep with hdb | ⟨i, c, rfl, hc, hat, hne, hrep⟩ | ⟨users, rfl, hx⟩
  · exact ⟨new, hdb ▸ hnew, hunread⟩
  · have howner : c.pc.owner ≠ some (userId, root) := by simpa [notOwn, hc] using hok
    obtain ⟨more, hmore, hunread'⟩ := inbox_commit hne hat howner hrep
    refine ⟨new ++ more, by rw [hmore, hnew, List.append_assoc], fun n hn => ?_⟩
    exact (List.mem_append.mp hn).elim (hunread n) (hunread' n)
  · have hinbox := congrArg (·.inbox userId root) (Option.some.inj hx)
    exact ⟨new, hinbox.symm.trans hnew, hunread⟩

/-! ## Two users of a university -/

def anasNotification : InboxNotification where
  created := ⟨"n1", "ana", some "uni", "TEST", "Title", "Text", []⟩
  createdAt := 1

/-- Ana has a notification, and Ben has none. -/
def sampleInbox : Sessions InboxDatabase InboxPoint BrowserEvent where
  db :=
    { users := [("ana", .active), ("ben", .active)]
      notifications := ⟨[anasNotification], by decide⟩
      subscriptions := ⟨[], by decide⟩
      deliveries := [] }
  history := []
  calls := []

theorem sampleInbox_init : (inboxMachine Platform.sample).init sampleInbox :=
  ⟨⟨rfl, rfl⟩, rfl, rfl⟩

def requester (userId : String) : AuthenticatedUser := ⟨userId, userId, none, some "uni", none⟩

/-- A command that tests the pushes of a user. -/
def testCommand (userId : String) : NotificationCommandV1 where
  commandId := "c1"
  producer := .notificationService
  recipient := ⟨some userId, none⟩
  rootOrganizationId := some "uni"
  channels := [.inApp, .push]
  template := ⟨.developmentTestPush, []⟩
  correlationId := "c1"
  occurredAt := ""

/-- The transaction of such a command finds its user. -/
def testReading (userId id : String) : InboxReading where
  now := 2
  answers := ⟨true, some ⟨userId, userId⟩, true, [], id⟩

/-- Ben is refused Ana's notification and marks all of his as read, while a notification of Ana's is
created. -/
def othersAtWork : List (CallLabel InboxPoint InboxReading (List (String × AccountStatus))) :=
  [.call (.requested (.markRead "n1") (requester "ben")), .call (.consuming (testCommand "ana")),
    .read 0 {}, .read 1 (testReading "ana" "n2"), .call (.requested .markAllRead (requester "ben")),
    .read 0 {}, .read 2 {}, .write 1, .read 2 { now := 3 }, .write 2, .commit 1, .commit 2]

theorem inbox_own_of_ana : ∃ t : Sessions InboxDatabase InboxPoint BrowserEvent,
    t.calls.map Session.pc
        = [.failed (some .notificationNotFound), .finished, .returned (.updatedCount 0)]
      ∧ ∃ new, t.db.inbox "ana" "uni" = sampleInbox.db.inbox "ana" "uni" ++ new
        ∧ ∀ n ∈ new, n.readAt = none := by
  obtain ⟨t, hrun, ht⟩ := (inboxMachine Platform.sample).exists_run_guarded
    (p := notOwn "ana" "uni") (s := sampleInbox)
    (q := fun t : Sessions InboxDatabase InboxPoint BrowserEvent => decide (t.calls.map Session.pc
      = [.failed (some .notificationNotFound), .finished, .returned (.updatedCount 0)]))
    othersAtWork (by decide)
  exact ⟨t, of_decide_eq_true ht, inbox_own ⟨sampleInbox, sampleInbox_init, .refl⟩ hrun⟩

end ResourceHive.Notifications
