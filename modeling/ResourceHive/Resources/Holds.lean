import ResourceHive.Resources.Service

/-!
# Resources/Holds — a resource that disputes hold out of use

A dispute holds a resource from its `MARK_UNAVAILABLE` to its `RESTORE` (`outstanding`, read off the
history of commits); the resource's row remembers the last dispute only.  As long as a resource is
restored only by the one dispute that still holds it, and made `ACTIVE` by an edit only when none
does, whatever holds it keeps it `INACTIVE`; any other restore or edit breaks that at once
(`unavailable_iff`).
-/

namespace ResourceHive.Resources

/-- The disputes holding a resource, after one more event. -/
def holdsAfter (resourceId : Uuid) (held : List Uuid) : Event → List Uuid
  | .marked r d => if r = resourceId then d :: held else held
  | .restored r d => if r = resourceId then held.filter (· ≠ d) else held
  | .requested _ _ => held

/-- **The outstanding holds on a resource**: marked, and not restored since. -/
def outstanding (history : List Event) (resourceId : Uuid) : List Uuid :=
  history.foldl (holdsAfter resourceId) []

@[simp] theorem outstanding_append (history : List Event) (e : Event) (resourceId : Uuid) :
    outstanding (history ++ [e]) resourceId =
      holdsAfter resourceId (outstanding history resourceId) e := by
  rw [outstanding, List.foldl_append]
  rfl

abbrev State := Sessions Database Point Event

/-- **Unavailability**: a resource with an outstanding hold, or with a link, is inactive. -/
def Unavailable (s : State) : Prop :=
  ∀ r ∈ s.db.resources, outstanding s.history r.id ≠ [] ∨ r.unavailableDisputeId.isSome →
    r.status = .inactive

/-- **The condition**: a resource is restored by the one dispute that still holds it, and an edit
makes it active only when none does. -/
def releasesLast (s : State) : Label Point Timestamp Outside → Bool
  | .commit i => s.calls[i]?.all fun c => match c.pc with
    | .transitioning t => decide (t.resourceAction = .restore →
        ∀ d ∈ outstanding s.history t.resourceId, d = t.disputeId)
    | .updating resource data _ => decide (data.status = some "ACTIVE" →
        outstanding s.history resource.id = [])
    | _ => true
  | _ => true

/-- The machine of the two services, from resources without links. -/
def machine : Machine State (Label Point Timestamp Outside) :=
  code.machine fun db => ∀ r ∈ db.resources, r.unavailableDisputeId = none

/-! ## The invariant -/

/-- **What the link is worth**: the dispute it names holds the resource, and what is held is
inactive. -/
structure Held (db : Database) (history : List Event) : Prop where
  link : ∀ r ∈ db.resources, ∀ d, r.unavailableDisputeId = some d → d ∈ outstanding history r.id
  inactive : ∀ r ∈ db.resources, outstanding history r.id ≠ [] → r.status = .inactive

variable {db db' : Database} {history : List Event}

theorem resourceStatus?_eq_active {status : String} :
    resourceStatus? status = some .active ↔ status = "ACTIVE" := by
  unfold resourceStatus?
  split <;> simp_all

/-- The disputes that hold a resource are not an edit's business. -/
theorem Held.of_history {history' : List Event} (h : Held db history)
    (hsame : ∀ id, outstanding history' id = outstanding history id) : Held db history' where
  link r hr d hd := hsame r.id ▸ h.link r hr d hd
  inactive r hr hheld := h.inactive r hr (hsame r.id ▸ hheld)

theorem Held.mark {resourceId disputeId : Uuid} (h : Held db history)
    (hrows : db'.resources = db.resources.map fun r =>
      if r.id = resourceId then withdrawn disputeId r else r) :
    Held db' (history ++ [.marked resourceId disputeId]) := by
  constructor
  · intro r' hr' d hd
    rw [hrows] at hr'
    obtain ⟨r, hr, rfl⟩ := List.mem_map.mp hr'
    rw [outstanding_append]
    by_cases hid : r.id = resourceId
    · rw [if_pos hid] at hd ⊢
      obtain rfl := Option.some.inj hd
      simp [holdsAfter, withdrawn, hid]
    · rw [if_neg hid] at hd ⊢
      simpa [holdsAfter, Ne.symm hid] using h.link r hr d hd
  · intro r' hr' hheld
    rw [hrows] at hr'
    obtain ⟨r, hr, rfl⟩ := List.mem_map.mp hr'
    by_cases hid : r.id = resourceId
    · rw [if_pos hid]
      rfl
    · rw [if_neg hid] at hheld ⊢
      refine h.inactive r hr ?_
      simpa [holdsAfter, Ne.symm hid] using hheld

/-- **The restore by the one dispute that holds the resource** leaves none. -/
theorem Held.restore {resourceId disputeId : Uuid} (h : Held db history)
    (hlast : ∀ d ∈ outstanding history resourceId, d = disputeId)
    (hrows : db'.resources = db.resources.map fun r =>
      if linked resourceId disputeId r then restored r else r) :
    Held db' (history ++ [.restored resourceId disputeId]) := by
  have hnone : (outstanding history resourceId).filter (· ≠ disputeId) = [] := by
    simpa [List.filter_eq_nil_iff] using hlast
  constructor
  · intro r' hr' d hd
    rw [hrows] at hr'
    obtain ⟨r, hr, rfl⟩ := List.mem_map.mp hr'
    by_cases hlinked : linked resourceId disputeId r
    · rw [if_pos hlinked] at hd
      cases hd
    · rw [if_neg hlinked] at hd ⊢
      have hmem := h.link r hr d hd
      by_cases hid : r.id = resourceId
      · obtain rfl := hlast d (hid ▸ hmem)
        exact absurd (by simp [linked, hid, hd]) hlinked
      · simpa [holdsAfter, Ne.symm hid] using hmem
  · intro r' hr' hheld
    rw [hrows] at hr'
    obtain ⟨r, hr, rfl⟩ := List.mem_map.mp hr'
    have hid : (if linked resourceId disputeId r then restored r else r).id = r.id := by
      split <;> rfl
    rw [hid, outstanding_append, holdsAfter] at hheld
    by_cases hr' : resourceId = r.id
    · rw [if_pos hr', ← hr', hnone] at hheld
      exact absurd rfl hheld
    · rw [if_neg hr'] at hheld
      rw [if_neg (by simp [linked, Ne.symm hr'])]
      exact h.inactive r hr hheld

/-- **An edit** that makes a resource active only when nothing holds it. -/
theorem Held.update {resource : Bookings.Resource} {data : ResourceData} (h : Held db history)
    (hfree : data.status = some "ACTIVE" → outstanding history resource.id = [])
    (hrows : db'.resources = db.resources.map fun r =>
      if r.id = resource.id then data.apply r else r) : Held db' history := by
  constructor
  · intro r' hr' d hd
    rw [hrows] at hr'
    obtain ⟨r, hr, rfl⟩ := List.mem_map.mp hr'
    split at hd
    · next hid =>
      rw [if_pos hid]
      exact h.link r hr d hd
    · next hid =>
      rw [if_neg hid]
      exact h.link r hr d hd
  · intro r' hr' hheld
    rw [hrows] at hr'
    obtain ⟨r, hr, rfl⟩ := List.mem_map.mp hr'
    by_cases hid : r.id = resource.id
    · rw [if_pos hid] at hheld ⊢
      have hwas := h.inactive r hr hheld
      change (data.status.bind resourceStatus?).getD r.status = .inactive
      cases hstatus : data.status.bind resourceStatus? with
      | none => exact hwas
      | some status =>
        obtain ⟨text, htext, hparsed⟩ := Option.bind_eq_some_iff.mp hstatus
        cases status with
        | inactive => rfl
        | active =>
          rw [resourceStatus?_eq_active.mp hparsed] at htext
          exact absurd (hid ▸ hfree htext) hheld
    · rw [if_neg hid] at hheld ⊢
      exact h.inactive r hr hheld

/-- **The outline**: the link and the holds, and nothing of the calls. -/
def holds : code.Outline fun s l => releasesLast s l = true where
  Inv := Held
  At _ _ _ := True
  entry _ _ := trivial
  read _ _ _ := trivial
  rolledBack _ _ := trivial
  commit {s i c db} hok hinv _ hc hne hrep := by
    refine ⟨?_, trivial, fun _ _ _ _ _ => trivial⟩
    obtain ⟨p, n⟩ := c
    cases p with
    | transitioning t =>
      simp only [releasesLast, hc, Option.all_some, decide_eq_true_eq] at hok
      have hrows := replay_transition hrep
      simp only [code, Transition.emits]
      split at hrows
      · exact hinv.mark (congrArg (·.directory.resources) hrows.2)
      · next haction => exact hinv.restore (hok haction) (congrArg (·.directory.resources) hrows.2)
      · rw [List.append_nil]
        have hsame : db.resources = s.db.resources := congrArg (·.directory.resources) hrows
        exact ⟨hsame ▸ hinv.link, hsame ▸ hinv.inactive⟩
    | updating resource data shouldReevaluate =>
      simp only [releasesLast, hc, Option.all_some, decide_eq_true_eq] at hok
      obtain ⟨-, -, rfl⟩ := replay_updating hrep
      have hheld := hinv.update hok (s.db.resources_withResources _)
      simp only [code]
      split
      · exact hheld.of_history fun id => outstanding_append ..
      · rwa [List.append_nil]
    | transition | transitionManage | update | remove | returned | failed => exact absurd rfl hne
  outside _ hinv hx := by
    have hrows := outside_resources hx
    exact ⟨⟨hrows ▸ hinv.link, hrows ▸ hinv.inactive⟩, fun _ _ _ => trivial⟩

theorem Held.unavailable {s : State} (h : Held s.db s.history) : Unavailable s := by
  rintro r hr (hheld | hlink)
  · exact h.inactive r hr hheld
  · obtain ⟨d, hd⟩ := Option.isSome_iff_exists.mp hlink
    exact h.inactive r hr (List.ne_nil_of_mem (h.link r hr d hd))

/-! ## The steps that break it -/

/-- A restore by another dispute than the one that still holds the resource. -/
theorem not_unavailable_of_restore {s : State} {resourceId disputeId d : Uuid}
    (hany : db.resources.any (linked resourceId disputeId))
    (hrows : s.db.resources = db.resources.map fun r =>
      if linked resourceId disputeId r then restored r else r)
    (hhistory : s.history = history ++ [.restored resourceId disputeId])
    (hheld : d ∈ outstanding history resourceId) (hne : d ≠ disputeId) : ¬ Unavailable s := by
  intro h
  obtain ⟨r, hr, hlinked⟩ := List.any_eq_true.mp hany
  have hid : r.id = resourceId := by
    simp only [linked, Bool.and_eq_true, decide_eq_true_eq] at hlinked
    exact hlinked.1
  have hmem : restored r ∈ s.db.resources := by
    rw [hrows]
    exact List.mem_map.mpr ⟨r, hr, if_pos hlinked⟩
  have hstill : d ∈ outstanding s.history (restored r).id := by
    rw [hhistory, outstanding_append]
    simp [holdsAfter, restored, hid, hheld, hne]
  exact nomatch h _ hmem (.inl (List.ne_nil_of_mem hstill))

/-- An edit that makes a resource active while a dispute holds it. -/
theorem not_unavailable_of_update {s : State} {resource : Bookings.Resource} {data : ResourceData}
    (hany : db.resources.any (·.id = resource.id))
    (hrows : s.db.resources = db.resources.map fun r =>
      if r.id = resource.id then data.apply r else r)
    (hheld : outstanding s.history resource.id ≠ []) (hdata : data.status = some "ACTIVE") :
    ¬ Unavailable s := by
  intro h
  obtain ⟨r, hr, hid⟩ := List.any_eq_true.mp hany
  have hid : r.id = resource.id := of_decide_eq_true hid
  have hmem : data.apply r ∈ s.db.resources := by
    rw [hrows]
    exact List.mem_map.mpr ⟨r, hr, if_pos hid⟩
  have hinactive := h _ hmem (.inl (by rwa [ResourceData.id_apply, hid]))
  have hactive : (data.apply r).status = .active := by
    rw [ResourceData.apply, hdata]
    rfl
  exact nomatch hactive.symm.trans hinactive

/-- **Outstanding unavailability.**  In every run in which a resource is restored only by the one
dispute that still holds it and made active by an edit only when none does, in every state a
resource with an outstanding hold is inactive, and so is one with a link.  Any other restore or edit
to active leads from such a state to one where that fails. -/
theorem unavailable_iff {s : State} (hs : machine.Reachable (fun s l => releasesLast s l = true) s) :
    Unavailable s ∧ ∀ l t, code.step s l = some t → (Unavailable t ↔ releasesLast s l = true) := by
  have hinit : ∀ db : Database, (∀ r ∈ db.resources, r.unavailableDisputeId = none) → Held db [] :=
    fun db hdb =>
    ⟨fun r hr d hd => (nomatch (hdb r hr).symm.trans hd), fun r hr h => absurd rfl h⟩
  have hholds : holds.Holds s := Code.Outline.holds_of_reachable hinit hs
  refine ⟨hholds.inv.unavailable, fun l t hstep => ⟨fun ht => ?_, fun hok =>
    (hholds.step hok hstep).inv.unavailable⟩⟩
  by_contra hbroken
  cases Code.step_cases hstep with
  | call | read | write | rollback | outside => exact hbroken rfl
  | @commit i c db hc hpos hall hrep =>
    obtain ⟨p, n⟩ := c
    simp only [releasesLast, hc, Option.all_some] at hbroken
    cases p with
    | transitioning t =>
      simp only [decide_eq_true_eq, Classical.not_imp, not_forall] at hbroken
      obtain ⟨haction, d, hheld, hne⟩ := hbroken
      have hrows := replay_transition hrep
      rw [haction] at hrows
      exact not_unavailable_of_restore hrows.1 (congrArg (·.directory.resources) hrows.2)
        (by simp [Code.moveTo, code, Transition.emits, haction]) hheld hne ht
    | updating resource data shouldReevaluate =>
      simp only [decide_eq_true_eq, Classical.not_imp] at hbroken
      obtain ⟨hdata, hheld⟩ := hbroken
      obtain ⟨hany, -, rfl⟩ := replay_updating hrep
      refine not_unavailable_of_update hany (s.db.resources_withResources _) (fun hnone => hheld ?_)
        hdata ht
      rw [← hnone]
      simp only [Code.moveTo, code]
      split
      · exact (outstanding_append _ (.requested _ _) _).symm
      · rw [List.append_nil]
    | transition | transitionManage | update | remove | returned | failed => exact hbroken rfl

/-! ## One resource and two disputes -/

/-- A university with a member and an administrator, a laboratory, two completed bookings of it, and
a dispute over each. -/
def twoDisputes : State where
  db :=
    { tables :=
        { directory :=
            { users := [⟨1, .active⟩, ⟨2, .active⟩]
              organizations := [⟨100, 100, .active⟩]
              memberships := [⟨1, 100, .member, .approved⟩, ⟨2, 100, .admin, .approved⟩]
              resources := [⟨10, "Laboratory", 100, 100, .active, 0, 0, [], none⟩] }
          slots := ⟨[{ id := 20, resourceId := 10, rootOrganizationId := 100,
                       startsAt := 10, endsAt := 20 },
                     { id := 21, resourceId := 10, rootOrganizationId := 100,
                       startsAt := 20, endsAt := 30 }], by decide⟩
          bookings := ⟨[{ id := 30, resourceSlotId := 20, userId := 1, rootOrganizationId := 100,
                          status := .completed, createdAt := 0, completedAt := some 20 },
                        { id := 31, resourceSlotId := 21, userId := 1, rootOrganizationId := 100,
                          status := .completed, createdAt := 0, completedAt := some 30 }],
                        by decide⟩
          ledger := .empty }
      disputes := ⟨[{ id := 50, bookingId := 30, submittedByUserId := 1 },
                    { id := 51, bookingId := 31, submittedByUserId := 1 }], by decide⟩ }
  history := []
  calls := []

theorem twoDisputes_init : machine.init twoDisputes :=
  ⟨fun r hr => by obtain rfl := List.mem_singleton.mp hr; rfl, rfl, rfl⟩

/-- A transition of one of them by the administrator, as call `i`, from its first step to its
commit. -/
def transitionOf (i : ℕ) (disputeId : Uuid) (resourceAction : ResourceAction) :
    List (Label Point Timestamp Outside) :=
  [.call (.transition disputeId { resourceAction := some resourceAction } ⟨2, some 100⟩),
    .read i 40, .read i 40, .write i, .write i, .write i, .commit i]

/-- An edit of the laboratory's status. -/
def editOf (i : ℕ) (status : String) : List (Label Point Timestamp Outside) :=
  [.call (.update 100 10 { status := some status }), .read i 40, .write i, .commit i]

/-- A dispute takes the laboratory out of use, and nobody else touches it. -/
theorem unavailable_of_marked : ∃ s, machine.Reachable (fun s l => releasesLast s l = true) s
    ∧ outstanding s.history 10 = [50] ∧ Unavailable s := by
  obtain ⟨s, hs, hp⟩ := machine.exists_reachable_guarded (s := twoDisputes) (p := releasesLast)
    (q := fun s => decide (outstanding s.history 10 = [50]))
    (transitionOf 0 50 .markUnavailable) twoDisputes_init (by decide)
  exact ⟨s, hs, of_decide_eq_true hp, (unavailable_iff hs).1⟩

/-- The laboratory is active although the disputes of a list hold it. -/
def activeHeldBy (held : List Uuid) (link : Option Uuid) (s : State) : Bool :=
  decide (outstanding s.history 10 = held)
    && s.db.resources.any fun r => decide (r.id = 10 ∧ r.status = .active
      ∧ r.unavailableDisputeId = link)

theorem not_unavailable_of_activeHeldBy {s : State} {held : List Uuid} {link : Option Uuid}
    (h : activeHeldBy held link s) (hheld : held ≠ []) : ¬ Unavailable s := by
  simp only [activeHeldBy, Bool.and_eq_true, decide_eq_true_eq, List.any_eq_true] at h
  obtain ⟨houtstanding, r, hr, hid, hactive, -⟩ := h
  intro hs
  exact nomatch hactive.symm.trans (hs r hr (.inl (by rwa [hid, houtstanding])))

/-- **One dispute's restore, or a plain edit, makes bookable what another dispute holds.**  Disputes
50 and 51 take the laboratory out of use, and 51 restores it; or 50 takes it out of use, and an edit
sets its status. -/
theorem active_of_restore_or_edit :
    (∃ s, machine.Reachable Machine.free s ∧ activeHeldBy [50] none s ∧ ¬ Unavailable s)
      ∧ ∃ s, machine.Reachable Machine.free s ∧ activeHeldBy [50] (some 50) s
        ∧ ¬ Unavailable s := by
  constructor
  · obtain ⟨s, hs, hp⟩ := machine.exists_reachable (s := twoDisputes) (p := activeHeldBy [50] none)
      (transitionOf 0 50 .markUnavailable ++ transitionOf 1 51 .markUnavailable
        ++ transitionOf 2 51 .restore) twoDisputes_init (by decide)
    exact ⟨s, hs, hp, not_unavailable_of_activeHeldBy hp (by simp)⟩
  · obtain ⟨s, hs, hp⟩ := machine.exists_reachable (s := twoDisputes)
      (p := activeHeldBy [50] (some 50))
      (transitionOf 0 50 .markUnavailable ++ editOf 1 "ACTIVE") twoDisputes_init (by decide)
    exact ⟨s, hs, hp, not_unavailable_of_activeHeldBy hp (by simp)⟩

end ResourceHive.Resources
