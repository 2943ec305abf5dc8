import ResourceHive.Organizations.JoinBonus

/-!
# Organizations/PaidOnce — a join bonus is paid once, at the first moment it is due

An award is an insert exactly where a bonus is due (`award_of_none`, `award_of_some`), and it is the
`ON CONFLICT` clause that keeps every later one from the ledger and from the balance.  So the join
bonus of a pair is that of its first moment (`PaidBy`), after every statement and so in every run.
-/

namespace ResourceHive.Organizations.JoinBonus

/-! ## One award -/

section Award

variable {db : Database} {x : Supply} {L L' : Ledger} {c : Change} {m : Moment}

theorem Database.mem_of_organization? {id : Uuid} {o : BonusOrganization}
    (h : db.organization? id = some o) : o ∈ db.organizations ∧ o.id = id := by
  have hid := Table.pred_of_find? (p := fun o : BonusOrganization => decide (o.id = id)) h
  exact ⟨Table.mem_of_find? h, of_decide_eq_true hid⟩

/-- The look-up of the trigger, which asks for an active organization. -/
theorem find?_active (id : Uuid) :
    (db.organizations.find? fun o => decide (o.id = id) && decide (o.status = .active)) =
      (db.organization? id).filter fun o => decide (o.status = .active) := by
  cases h : db.organization? id with
  | none =>
    refine List.find?_eq_none.mpr fun o ho hp => List.find?_eq_none.mp h o ho ?_
    rw [Bool.and_eq_true] at hp
    exact hp.1
  | some o =>
    obtain ⟨hmem, hid⟩ := Database.mem_of_organization? h
    by_cases hactive : o.status = .active
    · rw [Option.filter_some, if_pos (decide_eq_true hactive)]
      refine db.organizations.valid.1.find?_eq_of hmem (by simp [hid, hactive]) fun y hy => ?_
      rw [Bool.and_eq_true] at hy
      exact (of_decide_eq_true hy.1).trans hid.symm
    · rw [Option.filter_some, if_neg (by simpa using hactive)]
      refine List.find?_eq_none.mpr fun y hy hp => hactive ?_
      simp only [Bool.and_eq_true, decide_eq_true_eq] at hp
      rw [db.organizations.valid.1.eq hmem hy (hid.trans hp.1.symm)]
      exact hp.2

/-- **Where a bonus is due**: the row moved into APPROVED, and the organization pays. -/
theorem Moment.of?_eq_some : Moment.of? db c = some m ↔
    (c.new.status = .approved ∧ ∀ old ∈ c.old, old.status ≠ .approved) ∧
      ∃ o, db.organization? c.new.organizationId = some o
        ∧ (o.status = .active ∧ 0 < o.joinBonusPoints)
        ∧ m = ⟨c.new.userId, c.new.organizationId, o.rootOrganizationId, o.joinBonusPoints⟩ := by
  simp only [Moment.of?, Option.ite_none_right_eq_some, Option.bind_eq_some_iff,
    Option.some.injEq, eq_comm (b := m)]

/-- The row was not approved before, as the trigger asks. -/
theorem any_approved_eq_false {old : Option OrganizationMembership} :
    (old.any fun m => decide (m.status = .approved)) = false ↔ ∀ m ∈ old, m.status ≠ .approved := by
  cases old <;> simp

/-- **Where no bonus is due, the award does nothing.** -/
theorem award_of_none (h : Moment.of? db c = none) :
    awardOrganizationJoinBonus db x L c = some L := by
  unfold awardOrganizationJoinBonus
  split_ifs with hnew hold
  · rfl
  · rfl
  rw [find?_active]
  cases ho : db.organization? c.new.organizationId with
  | none => rfl
  | some o =>
    rw [Option.filter_some]
    by_cases hactive : o.status = .active
    · rw [if_pos (decide_eq_true hactive)]
      refine if_pos (not_lt.mp fun hpos => ?_)
      have hdue := Moment.of?_eq_some.mpr ⟨⟨not_not.mp hnew,
        any_approved_eq_false.mp (Bool.not_eq_true _ ▸ hold)⟩, o, ho, ⟨hactive, hpos⟩, rfl⟩
      cases h.symm.trans hdue
    · rw [if_neg (by simpa using hactive)]

/-- **Where one is due, the award is an insert of it.** -/
theorem award_of_some (h : Moment.of? db c = some m) :
    ∃ e : PointTransaction, (∀ u o, e.isJoinBonus u o = m.of u o)
      ∧ e.transactionType = .joinBonus ∧ e.rootOrganizationId = some m.rootOrganizationId
      ∧ e.amount = m.joinBonusPoints
      ∧ awardOrganizationJoinBonus db x L c =
          L.insertJoinBonus db.references m.userId m.organizationId e := by
  obtain ⟨⟨hnew, hold⟩, o, ho, ⟨hactive, hpos⟩, rfl⟩ := Moment.of?_eq_some.mp h
  refine ⟨joinBonus x c.new o, fun u r => ?_, rfl, rfl, rfl, ?_⟩
  · simp [PointTransaction.isJoinBonus, Moment.of, joinBonus]
  · unfold awardOrganizationJoinBonus
    rw [if_neg (not_not.mpr hnew), any_approved_eq_false.mpr hold, if_neg Bool.false_ne_true,
      find?_active, ho, Option.filter_some, if_pos (decide_eq_true hactive)]
    exact if_neg (not_le.mpr hpos)

end Award

/-! ## The bonuses are those of the first moments -/

/-- **The join bonus of each pair is that of its first moment.** -/
def PaidBy (L : Ledger) (moments : List Moment) : Prop :=
  ∀ u o, (L.joinBonuses u o).map (fun e => (e.rootOrganizationId, e.amount)) =
    ((moments.filter (·.of u o)).head?.map fun m =>
      (some m.rootOrganizationId, m.joinBonusPoints)).toList

/-- What the projection has beyond the ledger. -/
def surplus (L : Ledger) (u r : Uuid) : ℤ := L.available u r - L.getBalance u r

theorem surplus_insert {refs : References} {e : PointTransaction} {L L' : Ledger}
    (h : L.insert refs e = some L') : surplus L' = surplus L := by
  funext u r
  rw [surplus, surplus, Ledger.available_insert h, Ledger.getBalance_insert h]
  ring

section Awards

variable {db : Database} {x : Supply} {L L' : Ledger} {moments : List Moment}

theorem joinBonuses_insert {refs : References} {e : PointTransaction}
    (h : L.insert refs e = some L') (u o : Uuid) :
    L'.joinBonuses u o = L.joinBonuses u o ++ if e.isJoinBonus u o then [e] else [] := by
  rw [Ledger.joinBonuses, Table.insert_eq_some.mp (Ledger.insert_eq_some h).2.1, List.filter_append,
    Ledger.joinBonuses]
  by_cases he : e.isJoinBonus u o
  · rw [List.filter_cons_of_pos he, if_pos he, List.filter_nil]
  · rw [List.filter_cons_of_neg he, if_neg he, List.filter_nil]

/-- An entry of another type. -/
theorem PaidBy.insertTransaction (h : PaidBy L moments) {refs : References} {e : PointTransaction}
    (he : e.transactionType ≠ .joinBonus) (hins : L.insert refs e = some L') :
    PaidBy L' moments := by
  intro u o
  rw [joinBonuses_insert hins, if_neg (by simp [PointTransaction.isJoinBonus, he]), List.append_nil]
  exact h u o

/-- **One award.** -/
theorem PaidBy.award (h : PaidBy L moments) {c : Change}
    (haward : awardOrganizationJoinBonus db x L c = some L') :
    PaidBy L' (moments ++ (Moment.of? db c).toList) ∧ surplus L' = surplus L := by
  cases hdue : Moment.of? db c with
  | none =>
    rw [award_of_none hdue] at haward
    obtain rfl := Option.some.inj haward
    rw [Option.toList_none, List.append_nil]
    exact ⟨h, rfl⟩
  | some m =>
    obtain ⟨e, hof, htype, hroot, hamount, heq⟩ := award_of_some (x := x) (L := L) hdue
    rw [heq, Ledger.insertJoinBonus] at haward
    rw [Option.toList_some]
    have hfirst (u o : Uuid) : ((moments ++ [m]).filter (·.of u o)).head? =
        (moments.filter (·.of u o)).head?.or (if m.of u o then some m else none) := by
      rw [List.filter_append, List.head?_append, List.filter_singleton]
      by_cases hm : m.of u o <;> simp [hm]
    have hof' {u o : Uuid} (hm : m.of u o) : u = m.userId ∧ o = m.organizationId := by
      obtain ⟨hu, ho⟩ := Prod.mk.inj (of_decide_eq_true hm)
      exact ⟨hu.symm, ho.symm⟩
    split_ifs at haward with hpaid
    · -- the pair has its bonus, and so a moment before this one
      obtain rfl := Option.some.inj haward
      refine ⟨fun u o => ?_, rfl⟩
      rw [h u o, hfirst]
      by_cases hm : m.of u o
      · obtain ⟨rfl, rfl⟩ := hof' hm
        obtain ⟨e', he', hbonus⟩ := List.any_eq_true.mp hpaid
        have hne : L.joinBonuses m.userId m.organizationId ≠ [] :=
          List.ne_nil_of_mem (List.mem_filter.mpr ⟨he', hbonus⟩)
        cases hhead : (moments.filter (·.of m.userId m.organizationId)).head? with
        | none =>
          have hnil := h m.userId m.organizationId
          rw [hhead, Option.map_none, Option.toList_none, List.map_eq_nil_iff] at hnil
          exact absurd hnil hne
        | some m' => rfl
      · rw [if_neg hm, Option.or_none]
    · refine ⟨fun u o => ?_, surplus_insert haward⟩
      rw [joinBonuses_insert haward, List.map_append, h u o, hfirst, hof]
      by_cases hm : m.of u o
      · obtain ⟨rfl, rfl⟩ := hof' hm
        have hnil : L.joinBonuses m.userId m.organizationId = [] :=
          List.filter_eq_nil_iff.mpr fun e' he' hbonus =>
            hpaid (List.any_eq_true.mpr ⟨e', he', hbonus⟩)
        have hhead := h m.userId m.organizationId
        rw [hnil, List.map_nil, eq_comm, Option.toList_eq_nil_iff, Option.map_eq_none_iff] at hhead
        simp [hhead, hm, hroot, hamount]
      · rw [if_neg hm, if_neg hm, Option.or_none, List.map_nil, List.append_nil]

/-- **The awards of a statement.** -/
theorem PaidBy.awards : ∀ {changes : List Change} {L L' : Ledger} {moments : List Moment},
    PaidBy L moments → changes.foldlM (awardOrganizationJoinBonus db x) L = some L' →
    PaidBy L' (moments ++ changes.filterMap (Moment.of? db)) ∧ surplus L' = surplus L
  | [], L, L', moments, h, haward => by
      obtain rfl := Option.some.inj haward
      rw [List.filterMap_nil, List.append_nil]
      exact ⟨h, rfl⟩
  | c :: changes, L, L', moments, h, haward => by
      rw [List.foldlM_cons, Option.bind_eq_bind, Option.bind_eq_some_iff] at haward
      obtain ⟨L₁, hfirst, hrest⟩ := haward
      obtain ⟨h₁, hsurplus₁⟩ := h.award hfirst
      obtain ⟨h', hsurplus⟩ := PaidBy.awards h₁ hrest
      rw [List.append_assoc] at h'
      refine ⟨?_, hsurplus.trans hsurplus₁⟩
      cases hdue : Moment.of? db c with
      | none =>
        rw [List.filterMap_cons_none hdue]
        rwa [hdue] at h'
      | some m =>
        rw [List.filterMap_cons_some hdue]
        rwa [hdue] at h'

end Awards

/-! ## Every statement keeps it -/

/-- The moments are of organizations there are, under the roots that these have. -/
def Rooted (db : Database) : Prop :=
  ∀ m ∈ db.moments, ∃ o ∈ db.organizations,
    o.id = m.organizationId ∧ o.rootOrganizationId = m.rootOrganizationId

/-- **The invariant** of the runs from `start`. -/
structure Inv (start db : Database) : Prop where
  paid : PaidBy db.ledger db.moments
  rooted : Rooted db
  surplus : surplus db.ledger = surplus start.ledger

section Statements

variable {start db db' : Database} {x : Supply}

/-- Rows are written and awards made: of the rows that the statement changed, or of those of them
at which a bonus can be due. -/
theorem Inv.award (h : Inv start db) {changes fired : List Change}
    {memberships : Table OrganizationMembership OrganizationMembership.Constraints}
    (hfired : fired.filterMap (Moment.of? db) = changes.filterMap (Moment.of? db))
    (haward : ({ db.record changes with memberships } : Database).award x fired = some db') :
    Inv start db' := by
  obtain ⟨ledger, hledger, rfl⟩ := Option.map_eq_some_iff.mp haward
  obtain ⟨hpaid, hsurplus⟩ := PaidBy.awards h.paid hledger
  refine ⟨?_, fun m hm => ?_, hsurplus.trans h.surplus⟩
  · have hpaid' : PaidBy ledger (db.moments ++ fired.filterMap (Moment.of? db)) := hpaid
    rwa [hfired] at hpaid'
  · rcases List.mem_append.mp hm with hm | hm
    · exact h.rooted m hm
    · obtain ⟨c, -, hdue⟩ := List.mem_filterMap.mp hm
      obtain ⟨-, o, ho, -, rfl⟩ := Moment.of?_eq_some.mp hdue
      obtain ⟨hmem, hid⟩ := Database.mem_of_organization? ho
      exact ⟨o, hmem, hid, rfl⟩

theorem Inv.insertMembership (h : Inv start db) {m : OrganizationMembership}
    (hins : db.insertMembership m x = some db') : Inv start db' := by
  simp only [Database.insertMembership, Option.ite_none_right_eq_some,
    Option.bind_eq_some_iff] at hins
  obtain ⟨-, memberships, -, haward⟩ := hins
  exact h.award rfl haward

/-- An update that does not mention the status moves no row into APPROVED. -/
theorem filterMap_changes_eq_nil {p : OrganizationMembership → Bool} {data : MembershipData}
    (h : data.status = none) : (db.changes p data).filterMap (Moment.of? db) = [] := by
  refine List.filterMap_eq_nil_iff.mpr fun c hc => ?_
  obtain ⟨m, -, rfl⟩ := List.mem_map.mp hc
  refine if_neg fun hmoved => ?_
  have hstatus : (data.apply m).status = m.status := by simp [MembershipData.apply, h]
  exact hmoved.2 m rfl (hstatus ▸ hmoved.1)

theorem Inv.updateMemberships (h : Inv start db) {p : OrganizationMembership → Bool}
    {data : MembershipData} (hupd : db.updateMemberships p data x = some db') :
    Inv start db' := by
  simp only [Database.updateMemberships, Option.ite_none_right_eq_some,
    Option.bind_eq_some_iff] at hupd
  obtain ⟨-, memberships, -, haward⟩ := hupd
  refine h.award ?_ haward
  cases hstatus : data.status with
  | none => exact (filterMap_changes_eq_nil hstatus).symm
  | some status => rfl

/-- **A statement keeps the invariant.** -/
theorem Inv.exec (h : Inv start db) {w : Write} (hw : w.exec db = some db') : Inv start db' := by
  cases w with
  | insertOrganization o =>
    obtain ⟨organizations, hins, rfl⟩ := Option.map_eq_some_iff.mp hw
    refine ⟨h.paid, fun m hm => ?_, h.surplus⟩
    obtain ⟨o', ho', hkey⟩ := h.rooted m hm
    exact ⟨o', (Table.mem_insert hins).mpr (.inl ho'), hkey⟩
  | updateOrganization id data =>
    simp only [Write.exec, Option.ite_none_right_eq_some, Option.map_eq_some_iff] at hw
    obtain ⟨-, organizations, hupd, rfl⟩ := hw
    refine ⟨h.paid, fun m hm => ?_, h.surplus⟩
    obtain ⟨o, ho, hid, hroot⟩ := h.rooted m hm
    obtain ⟨o', ho', hid', hroot'⟩ := Table.exists_mem_update
      (R := fun o o' => o'.id = o.id ∧ o'.rootOrganizationId = o.rootOrganizationId) hupd
      (fun _ => ⟨rfl, rfl⟩) (fun _ => ⟨rfl, rfl⟩) ho
    exact ⟨o', ho', hid'.trans hid, hroot'.trans hroot⟩
  | insertMembership m x => exact h.insertMembership hw
  | upsertMembership m x =>
    simp only [Write.exec] at hw
    split_ifs at hw
    · obtain rfl := Option.some.inj hw
      exact h
    · exact h.insertMembership hw
  | updateMemberships p data x => exact h.updateMemberships hw
  | deleteMemberships p =>
    obtain ⟨memberships, -, rfl⟩ := Option.map_eq_some_iff.mp hw
    exact ⟨h.paid, h.rooted, h.surplus⟩
  | insertTransaction e =>
    simp only [Write.exec, Option.ite_none_left_eq_some, Option.map_eq_some_iff] at hw
    obtain ⟨htype, ledger, hins, rfl⟩ := hw
    exact ⟨h.paid.insertTransaction htype hins, h.rooted, (surplus_insert hins).trans h.surplus⟩

end Statements

/-! ## Every run keeps it -/

theorem Inv.replay {start : Database} : ∀ {ws : List Write} {db db' : Database}, Inv start db →
    code.replay ws db = some db' → Inv start db'
  | [], _, _, h, hrep => by
      obtain rfl := Option.some.inj hrep
      exact h
  | w :: ws, db, db', h, hrep => by
      rw [Code.replay_cons, Option.bind_eq_some_iff] at hrep
      obtain ⟨d, hw, hrep⟩ := hrep
      exact Inv.replay (h.exec hw) hrep

/-- The invariant, as an outline: no call knows anything. -/
def outline (start : Database) : code.Outline Machine.free where
  Inv db _ := Inv start db
  At _ _ _ := True
  entry _ _ := trivial
  read _ _ _ := trivial
  rolledBack _ _ := trivial
  commit _ hinv _ _ _ hrep := ⟨hinv.replay hrep, trivial, fun _ _ _ _ _ => trivial⟩
  outside _ hinv hx := by
    obtain rfl := Option.some.inj hx
    exact ⟨⟨hinv.paid, hinv.rooted, hinv.surplus⟩, fun _ _ _ => trivial⟩

theorem Database.Unpaid.joinBonuses_eq_nil {db : Database} (h : db.Unpaid) (u o : Uuid) :
    db.ledger.joinBonuses u o = [] := by
  refine List.filter_eq_nil_iff.mpr fun e he hbonus => h.1 e he ?_
  rw [PointTransaction.isJoinBonus, Bool.and_eq_true] at hbonus
  exact of_decide_eq_true hbonus.1

theorem Inv.start {start : Database} (h : start.Unpaid) : Inv start start := by
  refine ⟨fun u o => ?_, fun m hm => ?_, rfl⟩
  · rw [h.joinBonuses_eq_nil, h.2]
    rfl
  · rw [h.2] at hm
    cases hm

theorem inv_of_reachable {start : Database} (h : start.Unpaid)
    {s : Sessions Database Point Empty} (hs : (machine start).Reachable Machine.free s) :
    Inv start s.db :=
  ((outline start).holds_of_reachable (fun _ hdb => by rw [hdb]; exact Inv.start h) hs).inv

/-! ## A join bonus is paid once -/

/-- **A pair's join bonus is paid once**: if it was due at some moment, and as it was at the first
one. -/
structure PaidOnce (db : Database) (userId organizationId : Uuid) : Prop where
  atMostOne : (db.ledger.joinBonuses userId organizationId).length ≤ 1
  exists_iff : (∃ e, e ∈ db.ledger.joinBonuses userId organizationId) ↔
    ∃ m ∈ db.moments, m.of userId organizationId
  first : ∀ e ∈ db.ledger.joinBonuses userId organizationId,
    ∃ m, db.moments.find? (·.of userId organizationId) = some m ∧ e.amount = m.joinBonusPoints
      ∧ ∃ o ∈ db.organizations, o.id = organizationId
        ∧ e.rootOrganizationId = some o.rootOrganizationId

end ResourceHive.Organizations.JoinBonus
