import ResourceHive.Disputes.History

/-!
# Disputes/Notes — the notes a dispute is closed with

A request that closes a dispute may have no notes of its own if there are notes already.  It checks
the notes that it read, and leaves them as they are; the condition of its update names the status
only.  Another request without a status may have blanked them in between (`closed_without_reason`).

So the check is worth something only while nobody else writes notes.  As long as none does between
a call's look-up and its commit, the notes it has checked are those that stand (`Noted`), and what
it closes has a reason (`closed_with_reason`).
-/

namespace ResourceHive.Disputes

open Resources (BookingDispute DisputeStatus UpdateDisputeDto DisputeRecord AuthenticatedUser
  Transition)

/-! ## The condition -/

/-- The check that `transition` makes of the notes. -/
def hasReason (notes : Option String) : Bool := decide ((notes.map trim).getD "" ≠ "")

/-- **The dispute whose stored notes a call relies on**: it has read them, and is to close the
dispute without notes of its own. -/
def Point.reliesOn : Point → Option Uuid
  | .transitionManage record dto _ =>
    if dto.status.any (·.terminal) && dto.resolutionNotes.isNone then some record.dispute.id
    else none
  | .transitioning t _ =>
    if t.status.any (·.terminal) && t.resolutionNotes.isNone then some t.disputeId else none
  | _ => none

/-- The transition is of a closed dispute, or closes it, and has `null` for notes. -/
def clearsNotes (t : Transition) : Bool :=
  t.isTerminal && decide (t.resolutionNotes = some none)

/-- **The condition on a commit**: a transition that writes notes does so while no call relies on
those of its dispute; and none that has to have notes has `null`. -/
def notesUndisturbed (s : Sessions Database Point Empty) :
    Label Point Reading Bookings.Database → Bool
  | .commit i => s.calls[i]?.all fun c =>
    match c.pc with
    | .transitioning t _ => !clearsNotes t && (t.resolutionNotes.isNone ||
      s.calls.all fun d => decide (d.pc.reliesOn ≠ some t.disputeId))
    | _ => true
  | _ => true

/-! ## The invariant -/

variable {db db' : Database} {t : Transition} {event : Option BookingDisputeEvent}

/-- **Closed disputes have a reason.** -/
def Reasoned (db : Database) : Prop :=
  ∀ d ∈ db.disputes, d.status.terminal → hasReason d.resolutionNotes

/-- The notes that are stored for a dispute. -/
def Noted (db : Database) (id : Uuid) (P : Option String → Prop) : Prop :=
  ∃ d ∈ db.disputes, d.id = id ∧ P d.resolutionNotes

/-- What a call knows of the stored notes: first what they are, and then that they pass the check. -/
def Point.Accepts : Point → Option String → Prop
  | .transitionManage record _ _, notes => notes = record.dispute.resolutionNotes
  | _, notes => hasReason notes

/-- The notes of a transition that has to have them pass the check. -/
structure Checked (t : Transition) : Prop where
  isTerminal : t.isTerminal = (t.status.getD t.expectedStatus).terminal
  notes : t.isTerminal → ∀ n ∈ t.resolutionNotes, ∀ text ∈ n, hasReason (some text)

/-- A call that is about to write has made its check. -/
def Point.IsChecked : Point → Prop
  | .transitioning t _ => Checked t
  | _ => True

/-- **What a call knows where it is.** -/
structure CheckedAt (db : Database) (p : Point) : Prop where
  noted : ∀ id, p.reliesOn = some id → Noted db id p.Accepts
  checked : p.IsChecked

/-- A call that relies on nothing. -/
theorem CheckedAt.of_none {p : Point} (h : p.reliesOn = none) (hp : p.IsChecked) : CheckedAt db p :=
  ⟨fun _ hid => (nomatch h.symm.trans hid), hp⟩

theorem checked_of_transition {record : DisputeRecord} {dto : UpdateDisputeDto}
    {user : AuthenticatedUser} {now : Timestamp}
    (h : Resources.transition record dto user now = .ok t) : Checked t := by
  simp only [Resources.transition] at h
  split_ifs at h with hallowed hnotes
  obtain rfl := Except.ok.inj h
  refine ⟨rfl, fun hterminal n hn text htext => ?_⟩
  obtain ⟨given, hgiven, rfl⟩ := Option.map_eq_some_iff.mp hn
  obtain ⟨raw, rfl, rfl⟩ := Option.map_eq_some_iff.mp htext
  -- the request's own notes are checked rather than the stored ones
  rw [hgiven, Option.join_some, Option.map_some, Option.some_or] at hnotes
  exact decide_eq_true fun hblank => hnotes ⟨hterminal, hblank⟩

/-- **The check of a call without notes of its own** is of the notes that it has read. -/
theorem hasReason_of_transition {record : DisputeRecord} {dto : UpdateDisputeDto}
    {user : AuthenticatedUser} {now : Timestamp} {id : Uuid}
    (h : Resources.transition record dto user now = .ok t)
    (hrelies : Point.reliesOn (.transitioning t event) = some id) :
    Point.reliesOn (.transitionManage record dto user) = some id
      ∧ hasReason record.dispute.resolutionNotes := by
  simp only [Resources.transition] at h
  split_ifs at h with hallowed hnotes
  obtain rfl := Except.ok.inj h
  simp only [Point.reliesOn, Option.ite_none_right_eq_some, Bool.and_eq_true,
    Option.isNone_map] at hrelies ⊢
  obtain ⟨⟨hterminal, hnone⟩, hid⟩ := hrelies
  obtain ⟨status, hstatus, hclosing⟩ := (Option.any_eq_true _ _).mp hterminal
  refine ⟨⟨⟨hterminal, hnone⟩, hid⟩, decide_eq_true fun hblank => hnotes ⟨?_, ?_⟩⟩
  · rwa [hstatus]
  · rw [Option.isNone_iff_eq_none.mp hnone]
    exact hblank

theorem checkedAt_read {p p' : Point} {x : Reading} (h : CheckedAt db p)
    (hread : p.next db x = some p') : CheckedAt db p' := by
  cases p with
  | openMembership | openBooking =>
    obtain rfl := Option.some.inj hread
    split
    · exact .of_none rfl trivial
    · split <;> exact .of_none rfl trivial
  | openExisting =>
    obtain rfl := Option.some.inj hread
    split <;> exact .of_none rfl trivial
  | transition id dto user =>
    obtain rfl := Option.some.inj hread
    split
    · exact .of_none rfl trivial
    · exact .of_none rfl trivial
    · next record hfound =>
      obtain ⟨hdispute, -⟩ := Resources.dispute?_of_findById hfound
      obtain ⟨hmem, -⟩ := Resources.mem_of_dispute? hdispute
      refine ⟨fun id hid => ⟨record.dispute, hmem, ?_, rfl⟩, trivial⟩
      simp only [Point.reliesOn, Option.ite_none_right_eq_some] at hid
      exact Option.some.inj hid.2
  | transitionManage record dto user =>
    obtain rfl := Option.some.inj hread
    split
    · exact .of_none rfl trivial
    · split
      · exact .of_none rfl trivial
      · next hok =>
        refine ⟨fun id hid => ?_, checked_of_transition hok⟩
        obtain ⟨hrelies, hreason⟩ := hasReason_of_transition hok hid
        obtain ⟨d, hd, hdid, hnotes⟩ := h.noted id hrelies
        have hnotes : d.resolutionNotes = record.dispute.resolutionNotes := hnotes
        exact ⟨d, hd, hdid, hnotes ▸ hreason⟩
  | opening | transitioning | returned | failed => cases hread

/-- Notes stay where a transition writes none, or those of another dispute. -/
theorem Noted.transitioning {id : Uuid} {P : Option String → Prop} (h : Noted db id P)
    (hmoved : Moved db db' t event) (hkept : t.resolutionNotes = none ∨ id ≠ t.disputeId) :
    Noted db' id P := by
  obtain ⟨d, hd, rfl, hnotes⟩ := h
  refine ⟨_, (Table.mem_update hmoved.disputes).mpr ⟨d, hd, rfl⟩, ?_, ?_⟩
  · split <;> rfl
  · split
    · next hexpected =>
      have hid : d.id = t.disputeId := by
        simp only [expected, Bool.and_eq_true, decide_eq_true_eq] at hexpected
        exact hexpected.1
      have hnone := hkept.resolve_right fun hne => hne hid
      rwa [moved, hnone]
    · exact hnotes

/-- **A commit that meets the condition** leaves closed disputes with a reason. -/
theorem Reasoned.transitioning (h : Reasoned db)
    (hat : CheckedAt db (.transitioning t event)) (hclears : clearsNotes t = false)
    (hmoved : Moved db db' t event) : Reasoned db' := by
  have hchecked : Checked t := hat.checked
  intro d' hd' hterminal
  obtain ⟨d, hd, rfl⟩ := (Table.mem_update hmoved.disputes).mp hd'
  by_cases hexpected : expected t d
  · rw [if_pos hexpected] at hterminal ⊢
    obtain ⟨hid, hstatus⟩ : d.id = t.disputeId ∧ d.status = t.expectedStatus := by
      simpa [expected] using hexpected
    have hcloses : t.isTerminal := by
      rw [hchecked.isTerminal, ← hstatus]
      exact hterminal
    show hasReason (t.resolutionNotes.getD d.resolutionNotes)
    cases hnotes : t.resolutionNotes with
    | none =>
      cases hto : t.status with
      | none =>
        -- the dispute was closed already, and its notes stay
        have hclosed : d.status.terminal := by simpa [moved, hto] using hterminal
        exact h d hd hclosed
      | some status =>
        have hclosing : status.terminal := by simpa [moved, hto] using hterminal
        obtain ⟨stored, hstored, hsame, hreason⟩ := hat.noted t.disputeId (by
          simp [Point.reliesOn, hto, hnotes, hclosing])
        rwa [db.disputes.valid.1.eq hd hstored (hid.trans hsame.symm)]
    | some n =>
      cases n with
      | none => simp [clearsNotes, hcloses, hnotes] at hclears
      | some text => exact hchecked.notes hcloses _ hnotes text rfl
  · rw [if_neg hexpected] at hterminal ⊢
    exact h d hd hterminal

/-! ## Runs -/

/-- What the condition says of a commit. -/
theorem notesUndisturbed_transitioning {s : Sessions Database Point Empty} {i : ℕ} {executed : ℕ}
    (hok : notesUndisturbed s (.commit i))
    (hc : s.calls[i]? = some ⟨.transitioning t event, executed⟩) :
    clearsNotes t = false ∧ ∀ d ∈ s.calls, ∀ id, d.pc.reliesOn = some id →
      t.resolutionNotes = none ∨ id ≠ t.disputeId := by
  simp only [notesUndisturbed, hc, Option.all_some, Bool.and_eq_true, Bool.not_eq_true',
    Bool.or_eq_true, List.all_eq_true, decide_eq_true_eq, Option.isNone_iff_eq_none] at hok
  exact ⟨hok.1, fun d hd id hid => hok.2.imp_right fun hall heq => hall d hd (heq ▸ hid)⟩

/-- **The outline.** -/
def reasons : code.Outline fun s l => notesUndisturbed s l = true where
  Inv db _ := Reasoned db
  At db _ p := CheckedAt db p
  entry {db hist p} _ hp := by
    cases p with
    | openMembership | transition => exact .of_none rfl trivial
    | openBooking | openExisting | opening | transitionManage | transitioning | returned
    | failed => cases hp
  read _ hat hread := checkedAt_read hat hread
  rolledBack {db hist p} _ hat := by
    cases p <;> exact .of_none rfl trivial
  commit {s i c db} hok hinv hat hc hne hrep := by
    obtain ⟨pc, executed⟩ := c
    cases pc with
    | opening bookingId userId x =>
      have hmem := fun y => Table.mem_insert (replay_opening hrep).1 (x := y)
      refine ⟨fun d hd hterminal => ?_, .of_none rfl trivial, fun j d _ _ hd =>
        ⟨fun id hid => ?_, hd.checked⟩⟩
      · rcases (hmem d).mp hd with hd | rfl
        · exact hinv d hd hterminal
        · cases hterminal
      · obtain ⟨stored, hstored, hnoted⟩ := hd.noted id hid
        exact ⟨stored, (hmem stored).mpr (.inl hstored), hnoted⟩
    | transitioning t event =>
      obtain ⟨hclears, hkept⟩ := notesUndisturbed_transitioning hok hc
      have hmoved := replay_transitioning hrep
      refine ⟨hinv.transitioning hat hclears hmoved, .of_none rfl trivial, fun j d _ hd hdat =>
        ⟨fun id hid => ?_, hdat.checked⟩⟩
      exact (hdat.noted id hid).transitioning hmoved (hkept d (List.mem_of_getElem? hd) id hid)
    | openMembership | openBooking | openExisting | transition | transitionManage | returned
    | failed => exact absurd rfl hne
  outside {s tables db} _ hinv hx := by
    simp only [code, Option.ite_none_right_eq_some, Option.some.injEq] at hx
    obtain ⟨-, rfl⟩ := hx
    exact ⟨hinv, fun _ _ hat => ⟨hat.noted, hat.checked⟩⟩

/-- **Closed disputes carry a reason**, in every run in which no transition commits notes of a
dispute while a call that closes it without notes of its own is between its look-up and its commit,
and none has `null` for notes that it has to have. -/
theorem closed_with_reason {s : Sessions Database Point Empty}
    (hs : machine.Reachable (fun s l => notesUndisturbed s l = true) s) :
    ∀ d ∈ s.db.disputes, d.status.terminal → ∃ notes ∈ d.resolutionNotes, trim notes ≠ "" := by
  have hinv : Reasoned s.db := by
    refine (Code.Outline.holds_of_reachable (O := reasons) (fun db ⟨hdisputes, _⟩ d hd => ?_) hs).inv
    simp [← Table.mem_rows, hdisputes] at hd
  intro d hd hterminal
  have hreason := hinv d hd hterminal
  cases hnotes : d.resolutionNotes with
  | none => simp [hasReason, hnotes] at hreason
  | some notes => exact ⟨notes, rfl, by simpa [hasReason, hnotes] using hreason⟩

/-! ## Two administrators and one dispute -/

/-- The notes are taken, and the dispute is closed on the strength of them. -/
theorem closed_with_reason_of_notes : ∃ s, machine.Reachable (fun s l => notesUndisturbed s l = true) s
    ∧ s.db.disputes.rows.map (·.status) = [.resolved]
    ∧ ∀ d ∈ s.db.disputes, d.status.terminal → ∃ notes ∈ d.resolutionNotes, trim notes ≠ "" := by
  obtain ⟨s, hs, hp⟩ := machine.exists_reachable_guarded (s := undisputed) (p := notesUndisturbed)
    (q := fun s => decide (s.db.disputes.rows.map (·.status) = [.resolved]))
    (openFirst ++ request 1 { resolutionNotes := some "found" } 40 ++ [.write 1, .write 1, .commit 1]
      ++ request 2 { status := some .resolved } 41 ++ [.write 2, .write 2, .write 2, .commit 2])
    undisputed_init (by decide)
  exact ⟨s, hs, of_decide_eq_true hp, closed_with_reason hs⟩

/-- A closed dispute without a reason. -/
def closedBlank (s : Sessions Database Point Empty) : Bool :=
  s.db.disputes.rows.any fun d => d.status.terminal && !hasReason d.resolutionNotes

/-- **A dispute is closed without a reason**: the notes that the request to close it has read are
blanked before it commits. -/
theorem closed_without_reason : ∃ s, machine.Reachable Machine.free s
    ∧ ∃ d ∈ s.db.disputes, d.status.terminal ∧ ¬ ∃ notes ∈ d.resolutionNotes, trim notes ≠ "" := by
  obtain ⟨s, hs, hp⟩ := machine.exists_reachable (s := undisputed) (p := closedBlank)
    (openFirst ++ request 1 { resolutionNotes := some "found" } 40 ++ [.write 1, .write 1, .commit 1]
      ++ request 2 { status := some .resolved } 41
      ++ request 3 { resolutionNotes := some "" } 42 ++ [.write 3, .write 3, .commit 3]
      ++ [.write 2, .write 2, .write 2, .commit 2])
    undisputed_init (by decide)
  simp only [closedBlank, List.any_eq_true, Bool.and_eq_true, Bool.not_eq_true'] at hp
  obtain ⟨d, hd, hterminal, hblank⟩ := hp
  refine ⟨s, hs, d, hd, hterminal, ?_⟩
  rintro ⟨notes, hnotes, htrim⟩
  simp [hasReason, Option.mem_def.mp hnotes, htrim] at hblank

end ResourceHive.Disputes
