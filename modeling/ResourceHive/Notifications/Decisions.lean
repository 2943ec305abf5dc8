import ResourceHive.Notifications.Client
import ResourceHive.Notifications.Consumer
import ResourceHive.Organizations.RoleChanges

/-!
# Notifications/Decisions — the way of a membership decision to its applicant

`updateMembershipStatus` commits a decision and publishes a command for the applicant, which the
notification service carries out if it finds the recipient to be an approved member of the
university.  An approval makes that true of itself.  A rejection does not, so whoever is rejected
where they applied first is not told: the command is dead-lettered (`reaches_applicant_iff`).
-/

namespace ResourceHive.Notifications.Decisions

open ResourceHive.Organizations ResourceHive.Organizations.AuditTrail

/-! ## The membership that is decided -/

section Service

variable {text : TextFunctions} {db db' : Database} {call : Call} {m : OrganizationMembership}

/-- **The row that a decision is about** is that of the user and the organization named, for as long
as it exists. -/
def About (db : Database) (call : Call) (m : OrganizationMembership) : Prop :=
  ∀ u o decision reason, call.operation = .updateMembershipStatus u o decision reason →
    m.userId = u ∧ ∀ r ∈ db.memberships, r.id = m.id → r.userId = u ∧ r.organizationId = o

/-- What a decision relies on where it is. -/
def Relies (db : Database) : Organizations.Point → Prop
  | .findMembership call userId organizationId =>
    ∀ u o decision reason, call.operation = .updateMembershipStatus u o decision reason →
      userId = u ∧ organizationId = o
  | .countAdministrators call m | .writing call m _ => About db call m
  | .authorize _ _ | .findChild _ | .findCandidate _ | .returned | .failed _ => True

theorem About.keeps (h : About db call m) (hkeeps : Organizations.Keeps m.id db db') :
    About db' call m := by
  intro u o decision reason hop
  obtain ⟨huser, hrows⟩ := h u o decision reason hop
  refine ⟨huser, fun r' hr' hid => ?_⟩
  obtain ⟨r, hr, hrid, hu, ho, -⟩ := hkeeps r' hr' hid
  rw [hu, ho]
  exact hrows r hr hrid

theorem Relies.keeps {p : Organizations.Point} (h : Relies db p)
    (hkeeps : ∀ m ∈ membershipRead p, Organizations.Keeps m.id db db') : Relies db' p := by
  cases p with
  | countAdministrators call m | writing call m x => exact About.keeps h (hkeeps m rfl)
  | authorize | findChild | findCandidate | findMembership | returned | failed => exact h

theorem relies_start (db : Database) (call : Call) : Relies db call.start := by
  obtain ⟨operation, actor⟩ := call
  cases operation with
  | updateMembershipStatus u o decision reason =>
    rintro u' o' decision' reason' h
    cases h
    exact ⟨rfl, rfl⟩
  | removeMembership u o =>
    intro _ _ _ _ h
    cases h
  | updateMembershipRole u o role =>
    simp only [Call.start]
    split
    · intro _ _ _ _ h
      cases h
    · trivial
  | appointChildAdministrator | revokeChildAdministrator => trivial

theorem relies_afterChild (db : Database) (call : Call) (child : Option Organization) :
    Relies db (call.afterChild child) := by
  unfold Call.afterChild
  split
  · split_ifs <;> trivial
  · next hop =>
    split_ifs
    · trivial
    · exact fun _ _ _ _ h => by simp [hop] at h
  · trivial

theorem relies_afterCandidate {parentId childId : Uuid} {email : String}
    (hop : call.operation = .appointChildAdministrator parentId childId email)
    (candidate : Option User) : Relies db (call.afterCandidate childId candidate) := by
  unfold Call.afterCandidate
  split
  · split_ifs
    · exact fun _ _ _ _ h => by simp [hop] at h
    · trivial
  · trivial

theorem about_of_verdict {u o : Uuid}
    (hnames : ∀ u' o' decision reason, call.operation = .updateMembershipStatus u' o' decision reason →
      u = u' ∧ o = o')
    {v : Verdict} (hv : call.verdict db (db.membership? u o) = .ok v)
    (hm : v = .count m ∨ v = .write m) : About db call m := by
  intro u' o' decision reason hop
  obtain ⟨rfl, rfl⟩ := hnames u' o' decision reason hop
  simp only [Call.verdict, hop] at hv
  cases hrow : db.membership? u o with
  | none => simp [hrow, updateMembershipStatus] at hv
  | some found =>
    obtain ⟨hmem, hu, ho⟩ := membership?_eq_some.mp hrow
    have hfound : m = found := by
      simp only [hrow, updateMembershipStatus] at hv
      split_ifs at hv
      · obtain rfl := Except.ok.inj hv
        obtain hm | hm := hm <;> cases hm
        rfl
      · cases decision <;> cases hv
    obtain rfl := hfound
    refine ⟨hu, fun r hr hid => ?_⟩
    obtain rfl := db.memberships.valid.1.eq hr hmem hid
    exact ⟨hu, ho⟩

theorem relies_read {x : Reading} {p p' : Organizations.Point} (h : Relies db p)
    (hread : p.next text db x = some p') : Relies db p' := by
  cases p with
  | authorize call seen =>
    obtain ⟨seen', -, rfl⟩ := Option.map_eq_some_iff.mp hread
    split
    · trivial
    · trivial
    · exact relies_start db call
  | findChild call =>
    obtain rfl := Option.some.inj hread
    exact relies_afterChild db call _
  | findCandidate call =>
    simp only [Organizations.Point.next] at hread
    split at hread
    · next hop =>
      obtain rfl := Option.some.inj hread
      exact relies_afterCandidate hop _
    · cases hread
  | findMembership call userId organizationId =>
    obtain rfl := Option.some.inj hread
    split
    · trivial
    · trivial
    · next hv => exact about_of_verdict h hv (.inl rfl)
    · next hv => exact about_of_verdict h hv (.inr rfl)
  | countAdministrators call m =>
    obtain rfl := Option.some.inj hread
    split
    · trivial
    · exact h
  | writing | returned | failed => cases hread

/-- **In every state**, each call relies on what it did. -/
theorem relies_of_reachable {s : Sessions Database Organizations.Point Empty}
    (hs : (AuditTrail.machine text).Reachable FreshIds s) : ∀ c ∈ s.calls, Relies s.db c.pc := by
  refine hs.invariant (I := fun s => ∀ c ∈ s.calls, Relies s.db c.pc) (fun {s} hinit => ?_)
    fun {s t l} h hok hstep => ?_
  · intro c hc
    rw [hinit.2.2] at hc
    cases hc
  have hmove {i : ℕ} {p : Organizations.Point} {db : Database} (hp : Relies db p)
      (hcalls : ∀ c ∈ s.calls, Relies db c.pc) : ∀ c ∈ s.calls.set i ⟨p, 0⟩, Relies db c.pc := by
    intro c hc
    rcases Code.mem_set_cases hc with rfl | ⟨j, -, hj⟩
    · exact hp
    · exact hcalls c (List.mem_of_getElem? hj)
  cases Code.step_cases hstep with
  | @call p hp =>
    intro c hc
    rcases List.mem_append.mp hc with hc | hc
    · exact h c hc
    · obtain rfl := List.mem_singleton.mp hc
      cases p with
      | authorize => trivial
      | findChild | findCandidate | findMembership | countAdministrators | writing | returned
      | failed => cases hp
  | read hc h0 hread => exact hmove (relies_read (h _ (List.mem_of_getElem? hc)) hread) h
  | write hc hlt hrep =>
    intro c hc'
    rcases Code.mem_set_cases hc' with rfl | ⟨j, -, hj⟩
    · exact (h _ (List.mem_of_getElem? hc) :)
    · exact h c (List.mem_of_getElem? hj)
  | @commit i c db hc hpos hall hrep =>
    obtain ⟨pc, executed⟩ := c
    cases pc with
    | writing call m x =>
      exact hmove trivial fun c hc => (h c hc).keeps fun _ _ => keeps_statements hrep
    | authorize | findChild | findCandidate | findMembership | countAdministrators | returned
    | failed => exact absurd (hpos.trans_eq hall) (Nat.lt_irrefl 0)
  | @rollback i c hc =>
    refine hmove ?_ h
    obtain ⟨pc, executed⟩ := c
    cases pc <;> trivial
  | outside hx =>
    intro c hc
    exact (h c hc).keeps fun m hm => keeps_creation hx fun hmem => hok m.id hmem c hc m hm rfl

/-- **What a decision changes**: the row that is decided takes its status, and approved rows stay. -/
theorem review_cases {x : Reading} {u o : Uuid} {decision : MembershipDecision}
    {reason : Option String} (hop : call.operation = .updateMembershipStatus u o decision reason)
    (h : (AuditTrail.code text).replay (call.writes text m x) db = some db') :
    db'.users = db.users ∧ db'.organizations = db.organizations ∧
      (∃ r ∈ db.memberships, r.id = m.id ∧ ∃ r' ∈ db'.memberships, r'.userId = r.userId ∧
        r'.organizationId = r.organizationId ∧ r'.status = decision.status) ∧
      (∀ r' ∈ db'.memberships, r'.status = .approved → r' ∈ db.memberships ∨ decision = .approved) ∧
      ∀ r ∈ db.memberships, r.status = .approved → r ∈ db'.memberships := by
  simp only [Call.writes, hop] at h
  obtain ⟨db₁, hreview, haudit⟩ := replay_two h
  simp only [Write.exec, Option.ite_none_right_eq_some] at hreview haudit
  obtain ⟨audits, -, rfl⟩ := Option.map_eq_some_iff.mp haudit.2
  obtain ⟨hupdate, -, r, hr, hp⟩ := updateOne_cases hreview.2
  have hkept := hreview.2
  simp only [Database.updateOne, Option.ite_none_right_eq_some, Option.map_eq_some_iff] at hkept
  obtain ⟨-, ms, -, rfl⟩ := hkept
  have hid := hp
  simp only [Bool.and_eq_true, decide_eq_true_eq] at hid
  refine ⟨rfl, rfl, ⟨r, hr, hid.1, _, (Table.mem_update hupdate).mpr ⟨r, hr, if_pos hp⟩,
    rfl, rfl, rfl⟩, fun r' hr' happroved => ?_, fun q hq happroved => ?_⟩
  · obtain ⟨q, hq, rfl⟩ := (Table.mem_update hupdate).mp hr'
    split at happroved
    · -- the row that was decided
      right
      cases decision with
      | approved => rfl
      | rejected => cases happroved
    · next hq' =>
      rw [if_neg hq']
      exact .inl hq
  · have hq' : ¬ (decide (q.id = m.id) && decide (q.status ∈ decision.allowedStatuses)) = true := by
      simp only [Bool.and_eq_true, decide_eq_true_eq]
      exact fun h => not_approved_of_mem_allowedStatuses h.2 happroved
    exact (Table.mem_update hupdate).mpr ⟨q, hq, if_neg hq'⟩

end Service

/-! ## The notification service -/

/-- An active organization of an active university. -/
def isActiveIn (db : Database) (organizationId rootOrganizationId : Uuid) : Bool :=
  (db.organization? organizationId).any fun o =>
    decide (o.rootOrganizationId = rootOrganizationId) && decide (o.status = .active) &&
      (db.organization? o.rootOrganizationId).any fun root => decide (root.status = .active)

/-- The approved membership of a user that `processWithinTransaction` looks for. -/
def isMemberOf (db : Database) (userId rootOrganizationId : Uuid) : Bool :=
  db.memberships.rows.any fun m =>
    decide (m.userId = userId) && decide (m.status = .approved) &&
      isActiveIn db m.organizationId rootOrganizationId

theorem isMemberOf_iff {db : Database} {userId root : Uuid} : isMemberOf db userId root ↔
    ∃ m ∈ db.memberships, m.userId = userId ∧ m.status = .approved ∧
      isActiveIn db m.organizationId root := by
  simp only [isMemberOf, List.any_eq_true, Bool.and_eq_true, decide_eq_true_eq, Table.mem_rows,
    and_assoc]

/-- How a `uuid` is written, and read. -/
structure UuidColumn (P : Platform) where
  write : Uuid → UuidText P
  read : String → Option Uuid

/-- What the consumption of a message meets: the commands that were processed, the subscriptions of
the recipient, and the id of a new notification. -/
structure Consumption where
  processed : List ProcessedEvent := []
  subscriptions : List String := []
  notificationId : String
  context : KafkaContext

variable {P : Platform} (C : UuidColumn P)

/-- What the statements of `processWithinTransaction` answer over the tables of a database. -/
def answers (db : Database) (c : Consumption) (command : NotificationCommandV1) : Answers :=
  let userId := command.recipient.userId.bind C.read
  let rootOrganizationId := command.rootOrganizationId.bind C.read
  { claimed := decide (claimOf command ∉ c.processed)
    user := userId.bind fun id =>
      (db.users.find? fun u => decide (u.id = id) && decide (u.status = .active)).map fun u =>
        ⟨(C.write u.id).1, u.email⟩
    membership := userId.any fun id => rootOrganizationId.any fun root => isMemberOf db id root
    subscriptions := c.subscriptions
    notificationId := c.notificationId }

/-- `process`, over a database. -/
def handler (db : Database) (c : Consumption) (payload : Json) : Attempt Processed :=
  process P (fun command => processWithinTransaction P (answers C db c command) command) payload

/-- **The applicant is told**: one notification is created, for them and with the texts of the
template, and the message is not dead-lettered. -/
def Reaches (db : Database) (c : Consumption) (payload : Json) (applicant root : Uuid)
    (template : NotificationTemplate) : Prop :=
  let rendered := renderMembership template
  let notification : Notification :=
    { id := c.notificationId
      userId := C.write applicant
      rootOrganizationId := some (C.write root)
      type := rendered.type
      title := rendered.title
      message := rendered.message
      data := template.vars }
  (∃ deliveries, handler C db c payload = .ok (.created (some notification) deliveries)) ∧
    processMessage payload c.context (handler C db c payload) =
      .committed (c.context.offset + 1) none

/-- The command of a decision, in a request for a university. -/
def decisionInput (applicant membershipId : Uuid) (organizationName : String)
    (decision : MembershipDecision) : SendMembershipDecisionInput P where
  recipientUserId := C.write applicant
  organizationName
  approved := decision = .approved
  correlationId := C.write membershipId

/-- A user who is found and active is found among the active ones. -/
theorem find?_active {id : Uuid} {user : User} (hactive : user.status = .active) :
    ∀ {users : List User}, users.find? (·.id = id) = some user →
      users.find? (fun u => decide (u.id = id) && decide (u.status = .active)) = some user
  | u :: users, h => by
      rw [List.find?_cons] at h ⊢
      cases hid : decide (u.id = id) with
      | true =>
        rw [hid] at h
        obtain rfl := Option.some.inj h
        simp [hactive]
      | false =>
        rw [hid] at h
        rw [Bool.false_and]
        exact find?_active hactive h

variable {C}

section Handler

variable {db : Database} {c : Consumption} {call : ClientCall P}
  {applicant root membershipId : Uuid} {organizationName : String} {decision : MembershipDecision}
  {user : User}

/-- The command of a decision that is published. -/
def decisionCommand (C : UuidColumn P) (call : ClientCall P) (applicant root membershipId : Uuid)
    (organizationName : String) (decision : MembershipDecision) : NotificationCommandV1 :=
  ((decisionInput C applicant membershipId organizationName decision).draft
    (some (C.write root))).command call (some (C.write root))

/-- What the statements of its transaction answer. -/
theorem answers_decisionCommand (huser : db.user? applicant = some user)
    (hactive : user.status = .active) (hread : ∀ id ∈ [applicant, root], C.read (C.write id) = some id)
    (hfresh : ∀ e ∈ c.processed, e.eventId ≠ uuid call.randomUUID) :
    answers C db c (decisionCommand C call applicant root membershipId organizationName decision) =
      { claimed := true
        user := some ⟨(C.write applicant).1, user.email⟩
        membership := isMemberOf db applicant root
        subscriptions := c.subscriptions
        notificationId := c.notificationId } := by
  have hid : user.id = applicant := by simpa using List.find?_some huser
  have happlicant : C.read (C.write applicant) = some applicant := hread _ (by simp)
  have hroot : C.read (C.write root) = some root := hread _ (by simp)
  have hclaim : claimOf (decisionCommand C call applicant root membershipId organizationName decision)
      ∉ c.processed := fun hmem => hfresh _ hmem rfl
  have hfind := find?_active hactive huser
  simp only [answers, hclaim, not_false_eq_true, decide_true]
  simp only [decisionCommand, Draft.command, SendMembershipDecisionInput.draft, decisionInput,
    Option.bind_some, happlicant, hroot, hfind, Option.map_some, hid, Option.any_some]

/-- **The handler of a decision** whose recipient is active looks for their membership. -/
theorem handler_decision (hname : IsText 200 organizationName)
    (huser : db.user? applicant = some user) (hactive : user.status = .active)
    (hread : ∀ id ∈ [applicant, root], C.read (C.write id) = some id)
    (hfresh : ∀ e ∈ c.processed, e.eventId ≠ uuid call.randomUUID) :
    let input := decisionInput C applicant membershipId organizationName decision
    let command := decisionCommand C call applicant root membershipId organizationName decision
    handler C db c ((input.draft (some (C.write root))).json call) =
      if isMemberOf db applicant root then
        let rendered := renderMembership command.template
        let recipient : Recipient := ⟨C.write applicant, user.email⟩
        let notification := createNotification command recipient rendered c.notificationId
        .ok (.created notification
          (createDeliveries command recipient rendered notification c.subscriptions))
      else .error (.thrown (.unauthorized "Recipient is not a member of this university")) := by
  intro input command
  have hparse : parseNotificationCommand P ((input.draft (some (C.write root))).json call) =
      .ok command := sendMembershipDecision_eq_ok hname
  have hrender : render P command.template = .ok (renderMembership command.template) := by
    cases decision <;> rfl
  have hanswers : answers C db c command = _ :=
    answers_decisionCommand huser hactive hread hfresh
  have happlicant := P.ne_empty (C.write applicant).2
  have hroot := P.ne_empty (C.write root).2
  have hpresent : refuse (command.recipient.userId.all (· = ""))
      (HandlerError.unauthorized
        "Notification commands currently require a ResourceHive user") = .ok () :=
    refuse_eq_ok.mpr (decide_eq_false happlicant)
  have htenant : refuse ((command.channels.contains .inApp || command.channels.contains .push)
      && command.rootOrganizationId.all (· = ""))
      (HandlerError.unauthorized "Tenant notifications require a university context") = .ok () :=
    refuse_eq_ok.mpr (by simp [command, decisionCommand, Draft.command, hroot])
  have huniversity : command.rootOrganizationId.any (· ≠ "") = true := by
    simp [command, decisionCommand, Draft.command, hroot]
  rw [handler, process, hparse, ok_bind, hpresent, ok_bind, htenant, ok_bind, hanswers,
    processWithinTransaction]
  simp only [Bool.not_true, Bool.false_eq_true, if_false, huniversity, Bool.true_and, hrender, ok_bind]
  cases isMemberOf db applicant root <;> rfl

/-- **Whether the applicant is told** is whether they are found to be a member. -/
theorem reaches_iff (hname : IsText 200 organizationName)
    (huser : db.user? applicant = some user) (hactive : user.status = .active)
    (hread : ∀ id ∈ [applicant, root], C.read (C.write id) = some id)
    (hfresh : ∀ e ∈ c.processed, e.eventId ≠ uuid call.randomUUID) :
    Reaches C db c
        (((decisionInput C applicant membershipId organizationName decision).draft
          (some (C.write root))).json call)
        applicant root
        (decisionCommand C call applicant root membershipId organizationName decision).template ↔
      isMemberOf db applicant root := by
  have hhandler : handler C db c
      (((decisionInput C applicant membershipId organizationName decision).draft
        (some (C.write root))).json call) = _ :=
    handler_decision hname huser hactive hread hfresh
  constructor
  · rintro ⟨⟨deliveries, hok⟩, -⟩
    by_contra hmember
    rw [hhandler, if_neg hmember] at hok
    cases hok
  · intro hmember
    rw [if_pos hmember] at hhandler
    exact ⟨⟨_, hhandler⟩, by rw [hhandler]; rfl⟩

end Handler

/-! ## Decisions that are committed -/

variable {text : TextFunctions} {s t : Sessions Database Organizations.Point Empty} {i n : ℕ}
  {call : Call}
  {m : OrganizationMembership} {x : Reading} {u o : Uuid} {decision : MembershipDecision}
  {reason : Option String} {organization : Organization}

/-- **A member after the decision**: by the decision, or before it. -/
theorem isMemberOf_commit (hs : (AuditTrail.machine text).Reachable FreshIds s)
    (hcall : s.calls[i]? = some ⟨.writing call m x, n⟩)
    (hop : call.operation = .updateMembershipStatus u o decision reason)
    (hcommit : (AuditTrail.machine text).step s (.commit i) = some t)
    (horganization : t.db.organization? o = some organization)
    (hactive : organization.status = .active)
    (hroot : (t.db.organization? organization.rootOrganizationId).any (·.status = .active)) :
    isMemberOf t.db u organization.rootOrganizationId ↔
      decision = .approved ∨ isMemberOf s.db u organization.rootOrganizationId := by
  have hstep : (AuditTrail.code text).step s (.commit i) = some t := hcommit
  cases Code.call_cases hcall hstep with
  | other hl => exact absurd rfl hl
  | commit hne hrep hc =>
    obtain ⟨-, horganizations, ⟨r, hr, hid, r', hr', hu, ho, hstatus⟩, hafter, hbefore⟩ :=
      review_cases hop hrep
    obtain ⟨-, habout⟩ := relies_of_reachable hs _ (List.mem_of_getElem? hcall) u o decision reason hop
    obtain ⟨hru, hro⟩ := habout r hr hid
    have hin (organizationId root : Uuid) :
        isActiveIn t.db organizationId root = isActiveIn s.db organizationId root := by
      simp only [isActiveIn, Database.organization?, horganizations]
    rw [isMemberOf_iff, isMemberOf_iff]
    constructor
    · rintro ⟨q, hq, hqu, happroved, hqin⟩
      obtain hold | hdecision := hafter q hq happroved
      · exact .inr ⟨q, hold, hqu, happroved, hin _ _ ▸ hqin⟩
      · exact .inl hdecision
    · rintro (rfl | ⟨q, hq, hqu, happroved, hqin⟩)
      · refine ⟨r', hr', hu.trans hru, hstatus, ?_⟩
        rw [ho, hro, isActiveIn, horganization]
        simpa [hactive] using hroot
      · exact ⟨q, hbefore q hq happroved, hqu, happroved, (hin _ _).symm ▸ hqin⟩

/-- **A decision reaches its applicant exactly if it is an approval, or the applicant is an approved
member of the university already.**  Row-level security shows a request no organization but those
of its own university, so that is the university the command is for. -/
theorem reaches_applicant_iff {P : Platform} (C : UuidColumn P) {text : TextFunctions}
    {s t : Sessions Database Organizations.Point Empty}
    (hs : (AuditTrail.machine text).Reachable FreshIds s)
    {i n : ℕ} {call : Call} {m : OrganizationMembership} {x : Reading} {u o : Uuid}
    {decision : MembershipDecision} {reason : Option String}
    (hcall : s.calls[i]? = some ⟨.writing call m x, n⟩)
    (hop : call.operation = .updateMembershipStatus u o decision reason)
    (hcommit : (AuditTrail.machine text).step s (.commit i) = some t) {user : User}
    (huser : t.db.user? m.userId = some user) (happlicant : user.status = .active)
    {organization : Organization} (horganization : t.db.organization? o = some organization)
    (hactive : organization.status = .active)
    (hroot : (t.db.organization? organization.rootOrganizationId).any (·.status = .active))
    {organizationName : String} (hname : IsText 200 organizationName)
    (c : Consumption) (client : ClientCall P)
    (hfresh : ∀ e ∈ c.processed, e.eventId ≠ uuid client.randomUUID)
    (hread : ∀ id ∈ [m.userId, organization.rootOrganizationId], C.read (C.write id) = some id) :
    Reaches C t.db c
        (((decisionInput C m.userId m.id organizationName decision).draft
          (some (C.write organization.rootOrganizationId))).json client)
        m.userId organization.rootOrganizationId
        (decisionCommand C client m.userId organization.rootOrganizationId m.id organizationName
          decision).template ↔
      decision = .approved ∨ isMemberOf s.db m.userId organization.rootOrganizationId := by
  obtain ⟨hu, -⟩ := relies_of_reachable hs _ (List.mem_of_getElem? hcall) u o decision reason hop
  rw [reaches_iff hname huser happlicant hread hfresh, hu]
  exact isMemberOf_commit hs hcall hop hcommit horganization hactive hroot

/-! ## A student who applied to a university -/

/-- Texts for the university, the student and anything else. -/
def sampleColumn : UuidColumn Platform.sample where
  write
    | 1 => ⟨"11111111-1111-4111-8111-111111111111", by decide⟩
    | 11 => ⟨"55555555-5555-4555-8555-555555555555", by decide⟩
    | _ => ⟨"33333333-3333-4333-8333-333333333333", by decide⟩
  read s :=
    if s = "11111111-1111-4111-8111-111111111111" then some 1
    else if s = "55555555-5555-4555-8555-555555555555" then some 11
    else none

def sampleClient : ClientCall Platform.sample where
  randomUUID := sampleColumn.write 0
  now := 1788336000000
  isISO8601_now := by decide

def sampleConsumption : Consumption where
  notificationId := "44444444-4444-4444-8444-444444444444"
  context := { topic := KafkaTopic.commands.text, partition := 0, offset := 5 }

def student : User := { id := 11, email := "alex@example.edu" }

def university : Organization := { id := 1, parentId := none, rootOrganizationId := 1 }

/-- The request of the student. -/
def requested : OrganizationMembership := { id := 22, userId := 11, organizationId := 1 }

/-- The decision of the university's administrator. -/
def decided (decision : MembershipDecision) : Call :=
  ⟨.updateMembershipStatus 11 1 decision none, 10⟩

/-- Before the decision is committed. -/
def aboutToDecide (decision : MembershipDecision)
    (s : Sessions Database Organizations.Point Empty) : Bool :=
  decide (s.calls[0]? = some ⟨.writing (decided decision) requested { auditId := 101 }, 2⟩)
    && ((AuditTrail.machine ⟨id, id⟩).step s (.commit 0)).any fun t =>
      decide (t.db.user? 11 = some student) && decide (t.db.organization? 1 = some university)

/-- A run up to the decision of the student's request. -/
theorem exists_about_to_decide (decision : MembershipDecision) : ∃ s,
    (AuditTrail.machine ⟨id, id⟩).Reachable FreshIds s ∧ aboutToDecide decision s
      ∧ isMemberOf s.db 11 1 = false := by
  obtain ⟨s, hs, hp⟩ := (AuditTrail.machine ⟨id, id⟩).exists_reachable_guarded
    (p := fun s l => decide (FreshIds s l)) (s := nothing)
    (q := fun s => aboutToDecide decision s && !isMemberOf s.db 11 1)
    [.outside (.users [{ id := 10, email := "dean@example.edu" }, student]),
      .outside (.createPlatformUniversity 1 ⟨10, 10, 20, 100, 1⟩),
      .outside (.requestMembership 11 1 [] ⟨3, fun _ => 22⟩),
      .call (.authorize (decided decision) {}), .read 0 { fetch := .user },
      .read 0 { fetch := .organization }, .read 0 { fetch := .membership },
      .read 0 { auditId := 101 }, .write 0, .write 0]
    ⟨⟨rfl, rfl⟩, rfl, rfl⟩ (by cases decision <;> decide)
  simp only [decide_eq_true_eq, Bool.and_eq_true, Bool.not_eq_true'] at hs hp
  exact ⟨s, hs, hp⟩

theorem cases_of_aboutToDecide {decision : MembershipDecision}
    {s : Sessions Database Organizations.Point Empty} (h : aboutToDecide decision s) :
    s.calls[0]? = some ⟨.writing (decided decision) requested { auditId := 101 }, 2⟩ ∧
      ∃ t, (AuditTrail.machine ⟨id, id⟩).step s (.commit 0) = some t ∧
        t.db.user? 11 = some student ∧ t.db.organization? 1 = some university := by
  simp only [aboutToDecide, Bool.and_eq_true, decide_eq_true_eq] at h
  obtain ⟨t, ht, hdb⟩ := (Option.any_eq_true _ _).mp h.2
  simp only [Bool.and_eq_true, decide_eq_true_eq] at hdb
  exact ⟨h.1, t, ht, hdb⟩

/-- What is said to the student, and whether it reaches them. -/
def ToldStudent (decision : MembershipDecision) (db : Database) : Prop :=
  Reaches sampleColumn db sampleConsumption
    (((decisionInput sampleColumn 11 22 "Robotics Club" decision).draft
      (some (sampleColumn.write 1))).json sampleClient)
    11 1
    (decisionCommand sampleColumn sampleClient 11 1 22 "Robotics Club" decision).template

theorem read_sampleColumn : ∀ id ∈ [11, 1], sampleColumn.read (sampleColumn.write id) = some id := by
  decide

/-- **A student who is approved is told.** -/
theorem reaches_approved_applicant : ∃ s t, (AuditTrail.machine ⟨id, id⟩).Reachable FreshIds s ∧
    (AuditTrail.machine ⟨id, id⟩).step s (.commit 0) = some t ∧ ToldStudent .approved t.db := by
  obtain ⟨s, hs, habout, -⟩ := exists_about_to_decide .approved
  obtain ⟨hcall, t, ht, huser, horganization⟩ := cases_of_aboutToDecide habout
  have hroot : (t.db.organization? university.rootOrganizationId).any (·.status = .active) := by
    rw [show university.rootOrganizationId = 1 from rfl, horganization]
    rfl
  have hname : IsText 200 "Robotics Club" := by decide
  have htold := (reaches_applicant_iff sampleColumn hs hcall rfl ht huser rfl horganization rfl hroot
    hname sampleConsumption sampleClient (fun _ h => by cases h) read_sampleColumn).mpr (.inl rfl)
  exact ⟨s, t, hs, ht, htold⟩

/-- **A student who is rejected is not**: the command is dead-lettered. -/
theorem rejected_applicant_not_told : ∃ s t,
    (AuditTrail.machine ⟨id, id⟩).Reachable FreshIds s ∧
      s.calls[0]? = some ⟨.writing (decided .rejected) requested { auditId := 101 }, 2⟩ ∧
      (AuditTrail.machine ⟨id, id⟩).step s (.commit 0) = some t ∧
      t.db.user? 11 = some student ∧ t.db.organization? 1 = some university ∧
      ¬ ToldStudent .rejected t.db := by
  obtain ⟨s, hs, habout, hnot⟩ := exists_about_to_decide .rejected
  obtain ⟨hcall, t, ht, huser, horganization⟩ := cases_of_aboutToDecide habout
  have hroot : (t.db.organization? university.rootOrganizationId).any (·.status = .active) := by
    rw [show university.rootOrganizationId = 1 from rfl, horganization]
    rfl
  refine ⟨s, t, hs, hcall, ht, huser, horganization, fun htold => ?_⟩
  have hname : IsText 200 "Robotics Club" := by decide
  have hmember :=
    (reaches_iff hname huser rfl read_sampleColumn (fun _ h => by cases h)).mp htold
  obtain hdecision | hbefore := (isMemberOf_commit hs hcall rfl ht horganization rfl hroot).mp hmember
  · cases hdecision
  · rw [show isMemberOf s.db 11 university.rootOrganizationId = false from hnot] at hbefore
    cases hbefore

end ResourceHive.Notifications.Decisions
