import ResourceHive.Machinery.Machine
import ResourceHive.Machinery.Rooms
import Mathlib.Data.Int.Notation

/-!
# Notifications/Realtime — booking events over sockets

`RealtimeGateway`, as a machine over any number of sockets.  `handleConnection` suspends while the
access token is verified, and the handlers of the `watch` messages run whenever a message arrives;
`emitBookingEvent` sends to whoever is in three rooms at that moment.  A room is named by a string
made from an identifier, and the identifiers of the messages are the client's own.

The server's rooms are any store that obeys the laws of `Rooms`; a socket that is disconnected has
left all of them, and joins none.
-/

namespace ResourceHive.Notifications

/-! ## Booking events -/

inductive BookingEventType
  | bookingConfirmed
  | bookingCancelled
  | bookingCompleted
  | slotCreated
  deriving DecidableEq, Repr

structure BookingEventPayload where
  rootOrganizationId : String
  bookingId : Option String := none
  slotId : Option String := none
  resourceId : String
  resourceName : String
  organizationId : String
  userId : Option String := none
  email : Option String := none
  startsAt : String
  endsAt : Option String := none
  refundPoints : Option ℤ := none
  deriving DecidableEq, Repr

/-- `BookingEventV1`, without the fields that are the same in every event. -/
structure BookingEventV1 where
  eventId : String
  eventType : BookingEventType
  correlationId : String
  occurredAt : String
  payload : BookingEventPayload
  deriving DecidableEq, Repr

/-- What is emitted as `booking.event`. -/
structure BookingEventMessage where
  eventType : BookingEventType
  occurredAt : String
  payload : BookingEventPayload
  deriving DecidableEq, Repr

def BookingEventV1.message (event : BookingEventV1) : BookingEventMessage where
  eventType := event.eventType
  occurredAt := event.occurredAt
  payload := event.payload

/-! ## Who a token is for -/

/-- The claims of a token whose signature and expiry are verified; `none` for a claim that is
missing or not a string. -/
structure ResourceHiveAccessTokenClaims where
  sub : Option String := none
  email : Option String := none
  organizationId : Option String := none
  rootOrganizationId : Option String := none
  role : Option String := none
  deriving DecidableEq, Repr

structure AuthenticatedUser where
  userId : String
  email : String
  organizationId : Option String
  rootOrganizationId : Option String
  role : Option String
  deriving DecidableEq, Repr

/-- `AccessTokenVerifier.toAuthenticatedUser`; `none` where it throws. -/
def toAuthenticatedUser (claims : ResourceHiveAccessTokenClaims) : Option AuthenticatedUser :=
  match claims.sub, claims.email with
  | some sub, some email =>
    if sub = "" ∨ email = "" then none
    else some
      { userId := sub
        email
        organizationId := claims.organizationId
        rootOrganizationId := claims.rootOrganizationId
        role := claims.role }
  | _, _ => none

theorem userId_ne_empty {claims : ResourceHiveAccessTokenClaims} {user : AuthenticatedUser}
    (h : toAuthenticatedUser claims = some user) : user.userId ≠ "" := by
  unfold toAuthenticatedUser at h
  split at h
  case h_1 sub email _ _ =>
    split_ifs at h with hempty
    obtain rfl := Option.some.inj h
    exact fun hsub => hempty (.inl hsub)
  case h_2 => cases h

/-! ## Rooms -/

def userRoom (userId : String) : String := "user:" ++ userId

def resourceRoom (resourceId : String) : String := "resource:" ++ resourceId

def organizationRoom (organizationId : String) : String := "organization:" ++ organizationId

@[simp] theorem userRoom_inj {a b : String} : userRoom a = userRoom b ↔ a = b := by
  simp [userRoom]

@[simp] theorem resourceRoom_inj {a b : String} : resourceRoom a = resourceRoom b ↔ a = b := by
  simp [resourceRoom]

@[simp] theorem organizationRoom_inj {a b : String} :
    organizationRoom a = organizationRoom b ↔ a = b := by
  simp [organizationRoom]

/-- **No identifier makes two kinds of room the same one.** -/
@[simp] theorem userRoom_ne_resourceRoom (a b : String) : userRoom a ≠ resourceRoom b := by
  intro h
  simpa [userRoom, resourceRoom] using congrArg String.toList h

@[simp] theorem userRoom_ne_organizationRoom (a b : String) : userRoom a ≠ organizationRoom b := by
  intro h
  simpa [userRoom, organizationRoom] using congrArg String.toList h

@[simp] theorem resourceRoom_ne_organizationRoom (a b : String) :
    resourceRoom a ≠ organizationRoom b := by
  intro h
  simpa [resourceRoom, organizationRoom] using congrArg String.toList h

/-! ## The gateway -/

/-- A `Socket`, with the `userId` of its `data`. -/
structure Socket where
  connected : Bool
  verifying : Bool
  userId : Option String := none
  deriving DecidableEq, Repr

/-- What a client may watch. -/
inductive Topic
  | resource (id : String)
  | organization (id : String)
  deriving DecidableEq, Repr

def Topic.room : Topic → String
  | .resource id => resourceRoom id
  | .organization id => organizationRoom id

theorem Topic.room_injective : Function.Injective Topic.room := by
  intro a b h
  cases a <;> cases b <;> simp_all [Topic.room, (resourceRoom_ne_organizationRoom _ _).symm]

@[simp] theorem Topic.userRoom_ne_room (userId : String) (topic : Topic) :
    userRoom userId ≠ topic.room := by
  cases topic <;> simp [Topic.room]

/-- What has happened to the sockets, and what they were sent. -/
inductive Occurrence
  | verified (i : ℕ) (user : AuthenticatedUser)
  | watched (i : ℕ) (topic : Topic)
  | unwatched (i : ℕ) (topic : Topic)
  | disconnected (i : ℕ)
  | received (i : ℕ) (message : BookingEventMessage)
  deriving DecidableEq, Repr

/-- The gateway, its rooms kept as a `σ`; `history` newest first. -/
structure Gateway (σ : Type*) where
  rooms : σ
  sockets : List Socket
  history : List Occurrence

namespace Gateway

variable {σ : Type*} (R : Rooms σ ℕ String) (s : Gateway σ) (i : ℕ)

/-- `client.join(room)`. -/
def join (room : String) : Gateway σ := { s with rooms := R.join s.rooms i room }

/-- `client.leave(room)`. -/
def leave (room : String) : Gateway σ := { s with rooms := R.leave s.rooms i room }

/-- `server.to(room).emit("booking.event", message)`. -/
def emitTo (room : String) (message : BookingEventMessage) : Gateway σ :=
  { s with history := (R.members s.rooms room).map (Occurrence.received · message) ++ s.history }

def setSocket (socket : Socket) : Gateway σ := { s with sockets := s.sockets.set i socket }

def record (o : Occurrence) : Gateway σ := { s with history := o :: s.history }

/-- The client's `disconnect`, or the server's. -/
def disconnect (socket : Socket) : Gateway σ :=
  ({ s with rooms := R.leaveAll s.rooms i }.setSocket i { socket with connected := false }).record
    (.disconnected i)

/-- **`handleConnection`** up to `verify`; `token` as `extractAccessToken` finds it. -/
def handleConnection : Option String → Gateway σ
  | none => { s with sockets := s.sockets ++ [⟨false, false, none⟩] }
  | some _ => { s with sockets := s.sockets ++ [⟨true, true, none⟩] }

/-- **`handleConnection`** from `verify` on; `user` as `verify` resolves, or `none` as it rejects. -/
def handleVerified (socket : Socket) : Option AuthenticatedUser → Gateway σ
  | some user =>
    let s := (s.setSocket i { socket with verifying := false, userId := some user.userId }).record
      (.verified i user)
    if socket.connected then s.join R i (userRoom user.userId) else s
  | none =>
    let socket := { socket with verifying := false }
    if socket.connected then s.disconnect R i socket else s.setSocket i socket

/-- A handler that watches the topic of an identifier. -/
def handleWatch (topic : String → Topic) : Option String → Gateway σ
  | none => s
  | some id => if id = "" then s else (s.join R i (topic id).room).record (.watched i (topic id))

/-- A handler that stops watching it. -/
def handleUnwatch (topic : String → Topic) : Option String → Gateway σ
  | none => s
  | some id => if id = "" then s else (s.leave R i (topic id).room).record (.unwatched i (topic id))

def handleWatchResource : Option String → Gateway σ := s.handleWatch R i .resource

def handleUnwatchResource : Option String → Gateway σ := s.handleUnwatch R i .resource

def handleWatchOrganization : Option String → Gateway σ := s.handleWatch R i .organization

def handleUnwatchOrganization : Option String → Gateway σ := s.handleUnwatch R i .organization

/-- **`emitBookingEvent`**: to the resource's room, the organization's, and the user's if any. -/
def emitBookingEvent (event : BookingEventV1) : Gateway σ :=
  let s := s.emitTo R (resourceRoom event.payload.resourceId) event.message
  let s := s.emitTo R (organizationRoom event.payload.organizationId) event.message
  match event.payload.userId with
  | some userId => if userId = "" then s else s.emitTo R (userRoom userId) event.message
  | none => s

@[simp] theorem join_rooms (room : String) :
    (s.join R i room).rooms = R.join s.rooms i room := rfl

@[simp] theorem join_sockets (room : String) : (s.join R i room).sockets = s.sockets := rfl

@[simp] theorem join_history (room : String) : (s.join R i room).history = s.history := rfl

@[simp] theorem leave_rooms (room : String) :
    (s.leave R i room).rooms = R.leave s.rooms i room := rfl

@[simp] theorem leave_sockets (room : String) : (s.leave R i room).sockets = s.sockets := rfl

@[simp] theorem leave_history (room : String) : (s.leave R i room).history = s.history := rfl

@[simp] theorem setSocket_rooms (socket : Socket) : (s.setSocket i socket).rooms = s.rooms := rfl

@[simp] theorem setSocket_sockets (socket : Socket) :
    (s.setSocket i socket).sockets = s.sockets.set i socket := rfl

@[simp] theorem setSocket_history (socket : Socket) :
    (s.setSocket i socket).history = s.history := rfl

@[simp] theorem record_rooms (o : Occurrence) : (s.record o).rooms = s.rooms := rfl

@[simp] theorem record_sockets (o : Occurrence) : (s.record o).sockets = s.sockets := rfl

@[simp] theorem record_history (o : Occurrence) : (s.record o).history = o :: s.history := rfl

@[simp] theorem disconnect_rooms (socket : Socket) :
    (s.disconnect R i socket).rooms = R.leaveAll s.rooms i := rfl

@[simp] theorem disconnect_sockets (socket : Socket) :
    (s.disconnect R i socket).sockets = s.sockets.set i { socket with connected := false } := rfl

@[simp] theorem disconnect_history (socket : Socket) :
    (s.disconnect R i socket).history = .disconnected i :: s.history := rfl

@[simp] theorem handleVerified_rooms (socket : Socket) (user : AuthenticatedUser) :
    (s.handleVerified R i socket (some user)).rooms =
      if socket.connected then R.join s.rooms i (userRoom user.userId) else s.rooms := by
  dsimp only [handleVerified]
  split <;> rfl

@[simp] theorem handleVerified_sockets (socket : Socket) (user : AuthenticatedUser) :
    (s.handleVerified R i socket (some user)).sockets =
      s.sockets.set i { socket with verifying := false, userId := some user.userId } := by
  dsimp only [handleVerified]
  split <;> rfl

@[simp] theorem handleVerified_history (socket : Socket) (user : AuthenticatedUser) :
    (s.handleVerified R i socket (some user)).history = .verified i user :: s.history := by
  dsimp only [handleVerified]
  split <;> rfl

/-- Whom an event is sent to: once for each room they are in. -/
def recipients (event : BookingEventV1) : List ℕ :=
  (match event.payload.userId with
    | some userId => if userId = "" then [] else R.members s.rooms (userRoom userId)
    | none => [])
    ++ R.members s.rooms (organizationRoom event.payload.organizationId)
    ++ R.members s.rooms (resourceRoom event.payload.resourceId)

theorem emitBookingEvent_eq (event : BookingEventV1) :
    s.emitBookingEvent R event =
      { s with history :=
          (s.recipients R event).map (Occurrence.received · event.message) ++ s.history } := by
  unfold emitBookingEvent recipients
  cases event.payload.userId with
  | none => simp [emitTo]
  | some userId =>
    by_cases h : userId = "" <;> simp [emitTo, h]

theorem mem_recipients {event : BookingEventV1} :
    i ∈ s.recipients R event ↔
      i ∈ R.members s.rooms (Topic.resource event.payload.resourceId).room
        ∨ i ∈ R.members s.rooms (Topic.organization event.payload.organizationId).room
        ∨ ∃ userId ≠ "", event.payload.userId = some userId
            ∧ i ∈ R.members s.rooms (userRoom userId) := by
  unfold recipients
  cases event.payload.userId with
  | none => simp [Topic.room, or_comm]
  | some userId =>
    by_cases h : userId = ""
    · simp [Topic.room, h, or_comm]
    · simp [Topic.room, h]
      tauto

/-- A client's message; an argument that is not a string is `none`. -/
inductive Subscription
  | resourceWatch (resourceId : Option String)
  | resourceUnwatch (resourceId : Option String)
  | organizationWatch (organizationId : Option String)
  | organizationUnwatch (organizationId : Option String)
  deriving DecidableEq, Repr

def handle : Subscription → Gateway σ
  | .resourceWatch id => s.handleWatchResource R i id
  | .resourceUnwatch id => s.handleUnwatchResource R i id
  | .organizationWatch id => s.handleWatchOrganization R i id
  | .organizationUnwatch id => s.handleUnwatchOrganization R i id

/-- A step: a socket connects, its verification settles, it sends a message or goes; or an event. -/
inductive Label
  | connect (token : Option String)
  | settle (i : ℕ) (claims : Option ResourceHiveAccessTokenClaims)
  | message (i : ℕ) (subscription : Subscription)
  | disconnect (i : ℕ)
  | emit (event : BookingEventV1)

/-- **A step of the gateway**; the messages of a socket that is disconnected are dropped. -/
def step : Label → Option (Gateway σ)
  | .connect token => some (s.handleConnection token)
  | .settle i claims => s.sockets[i]?.bind fun socket =>
      if socket.verifying then some (s.handleVerified R i socket (claims.bind toAuthenticatedUser))
      else none
  | .message i subscription => s.sockets[i]?.bind fun socket =>
      if socket.connected then some (s.handle R i subscription) else none
  | .disconnect i => s.sockets[i]?.bind fun socket =>
      if socket.connected then some (s.disconnect R i socket) else none
  | .emit event => some (s.emitBookingEvent R event)

/-- The gateway from its start. -/
def machine : Machine (Gateway σ) Label where
  init s := s = ⟨R.empty, [], []⟩
  step := step R

end Gateway

end ResourceHive.Notifications
