import ResourceHive.Universities.Isolation

/-!
# Universities/Context — every statement under the settings of its request

`PrismaService` puts a request's context before its statements: with an ambient context, each of
them, or each of its transactions, is a transaction of its own that begins with `set_config`.  The
settings are local to the transaction, and the connection goes back to a pool that all requests
share.

A request's calls become commands on a connection (`PrismaCall.commands`), and the commands of any
number of tasks interleave in any order, on whatever connections are free, with failures at any
point (`pool`).  Each statement reaches the database under the settings its own request is to have
(`issued_settings`), so what `own_database` and `university_unchanged` say of settings they say of
requests; `requests_isolated` says both.
-/

namespace ResourceHive.Universities

open RowSecurity (Rows Server Statement)

variable {D ρ : Type}

/-! ## `university-context` -/

/-- The context of `AsyncLocalStorage`; a `userId` that is no id is none. -/
structure UniversityDbContext where
  rootOrganizationId : Uuid
  userId : Option Uuid
  deriving DecidableEq, Repr

/-- What `set_config` makes of it. -/
def UniversityDbContext.settings (context : UniversityDbContext) : Settings :=
  ⟨some context.rootOrganizationId, context.userId⟩

/-- `request.user`, as far as the interceptor reads it. -/
structure RequestUser where
  userId : Option Uuid
  rootOrganizationId : Option Uuid
  deriving DecidableEq, Repr

/-- **`UniversityContextInterceptor.intercept`**: the context the handler of an HTTP request runs
in. -/
def intercept (user : Option RequestUser) : Option UniversityDbContext :=
  match user with
  | some ⟨some userId, some rootOrganizationId⟩ => some ⟨rootOrganizationId, some userId⟩
  | _ => none

/-! ## `PrismaService` -/

/-- **A call of `PrismaService`**, with the statements it comes to issue: a method of a model or a
raw query, a `$transaction`, or `withUniversity`. -/
inductive PrismaCall (D ρ : Type)
  | statement (st : Statement (Row D) ρ)
  | transaction (body : List (Statement (Row D) ρ))
  | withUniversity (context : UniversityDbContext) (body : List (Statement (Row D) ρ))

/-- What is sent on a connection. -/
inductive Command (D ρ : Type)
  | begin
  | setConfig (settings : Settings)
  | run (st : Statement (Row D) ρ)
  | commit

/-- `setTransactionUniversity`, if there is a context. -/
def setTransactionUniversity (context : Option UniversityDbContext) : List (Command D ρ) :=
  context.toList.map fun c => .setConfig c.settings

/-- **The commands of a call** in an ambient context.  Without one, a statement is sent as it is. -/
def PrismaCall.commands (context : Option UniversityDbContext) : PrismaCall D ρ → List (Command D ρ)
  | statement st =>
    match context with
    | none => [.run st]
    | some c => [.begin, .setConfig c.settings, .run st, .commit]
  | transaction body =>
    .begin :: setTransactionUniversity context ++ body.map .run ++ [.commit]
  | withUniversity explicit body =>
    .begin :: setTransactionUniversity context ++ .setConfig explicit.settings :: body.map .run
      ++ [.commit]

/-- **The settings the statements of a call are to have.** -/
def PrismaCall.settings (context : Option UniversityDbContext) : PrismaCall D ρ → Settings
  | statement _ | transaction _ => (context.map UniversityDbContext.settings).getD {}
  | withUniversity explicit _ => explicit.settings

/-- Commands that keep to the settings `expected`, from a connection with the settings `now`. -/
def Keeps (expected : Settings) : Settings → List (Command D ρ) → Prop
  | _, [] => True
  | _, .begin :: rest | _, .commit :: rest => Keeps expected {} rest
  | _, .setConfig settings :: rest => Keeps expected settings rest
  | now, .run _ :: rest => now = expected ∧ Keeps expected now rest

theorem keeps_body {expected : Settings} (body : List (Statement (Row D) ρ)) :
    Keeps expected expected (body.map .run ++ [.commit]) := by
  induction body with
  | nil => trivial
  | cons st body ih => exact ⟨rfl, ih⟩

/-- **The commands of a call keep to its settings.** -/
theorem keeps_commands (context : Option UniversityDbContext) (call : PrismaCall D ρ) :
    Keeps (call.settings context) {} (call.commands context) := by
  cases call with
  | statement st =>
    cases context with
    | none => exact ⟨rfl, trivial⟩
    | some c => exact ⟨rfl, trivial⟩
  | transaction body =>
    cases context with
    | none => exact keeps_body body
    | some c => exact keeps_body body
  | withUniversity explicit body =>
    cases context with
    | none => exact keeps_body body
    | some c => exact keeps_body body

/-- The university a call is for. -/
def PrismaCall.university (context : Option UniversityDbContext) (call : PrismaCall D ρ) :
    Option Uuid :=
  (call.settings context).rootOrganizationId

/-! ## The pool -/

/-- A connection: its settings, and the task that is in a transaction on it. -/
structure Connection where
  settings : Settings := {}
  heldBy : Option ℕ := none
  deriving DecidableEq, Repr

/-- A call in progress: in which context it was made, and what is left to send, on the connection of
its transaction. -/
structure Task (D ρ : Type) where
  context : Option UniversityDbContext
  call : PrismaCall D ρ
  todo : List (Command D ρ)
  connection : Option ℕ := none

/-- A statement as it reached the database, under its connection's settings. -/
structure Issued (D ρ : Type) where
  context : Option UniversityDbContext
  call : PrismaCall D ρ
  settings : Settings
  st : Statement (Row D) ρ

structure Pool (D ρ : Type) where
  connections : ℕ → Connection := fun _ => {}
  tasks : List (Task D ρ) := []
  issued : List (Issued D ρ) := []

/-- A call is made in a context; the task sends its next command, on connection `k` if it needs a
free one; or its connection fails, or the server rolls its transaction back. -/
inductive Pool.Label (D ρ : Type)
  | call (context : Option UniversityDbContext) (call : PrismaCall D ρ)
  | send (i k : ℕ)
  | fail (i : ℕ)

namespace Pool

def setConnection (p : Pool D ρ) (k : ℕ) (c : Connection) : Pool D ρ :=
  { p with connections := Function.update p.connections k c }

def setTask (p : Pool D ρ) (i : ℕ) (t : Task D ρ) : Pool D ρ := { p with tasks := p.tasks.set i t }

/-- A statement is sent on connection `k`. -/
def issue (p : Pool D ρ) (i k : ℕ) (t : Task D ρ) (st : Statement (Row D) ρ)
    (rest : List (Command D ρ)) : Pool D ρ :=
  { p.setTask i { t with todo := rest } with
    issued := p.issued ++ [⟨t.context, t.call, (p.connections k).settings, st⟩] }

/-- **The next command of a task.** -/
def send (p : Pool D ρ) (i k : ℕ) (t : Task D ρ) : Command D ρ → List (Command D ρ) →
    Option (Pool D ρ)
  | .begin, rest =>
    if t.connection = none ∧ (p.connections k).heldBy = none then
      some ((p.setConnection k { p.connections k with heldBy := some i }).setTask i
        { t with todo := rest, connection := some k })
    else none
  | .setConfig settings, rest =>
    t.connection.map fun k =>
      (p.setConnection k { p.connections k with settings }).setTask i { t with todo := rest }
  | .run st, rest =>
    match t.connection with
    | some own => some (p.issue i own t st rest)
    | none => if (p.connections k).heldBy = none then some (p.issue i k t st rest) else none
  | .commit, rest =>
    t.connection.map fun k =>
      (p.setConnection k {}).setTask i { t with todo := rest, connection := none }

/-- One step.  The settings of a transaction end with it, whether it is committed or not. -/
def step (p : Pool D ρ) : Label D ρ → Option (Pool D ρ)
  | .call context call =>
    some { p with tasks := p.tasks ++ [{ context, call, todo := call.commands context }] }
  | .send i k =>
    p.tasks[i]?.bind fun t =>
      match t.todo with
      | [] => none
      | command :: rest => p.send i k t command rest
  | .fail i =>
    p.tasks[i]?.map fun t =>
      match t.connection with
      | some k => (p.setConnection k {}).setTask i { t with todo := [], connection := none }
      | none => p.setTask i { t with todo := [] }

end Pool

/-- **The tasks of all requests over one pool of connections.** -/
def pool (D ρ : Type) : Machine (Pool D ρ) (Pool.Label D ρ) where
  init p := p = {}
  step := Pool.step

/-! ## What the settings of a connection are -/

/-- The settings a task's next statement would have. -/
def Pool.now (p : Pool D ρ) (t : Task D ρ) : Settings :=
  t.connection.elim {} fun k => (p.connections k).settings

/-- **The invariant**: free connections have no settings, the others are their task's, and a task is
under the settings that what it has left to send relies on. -/
structure Pool.Inv (p : Pool D ρ) : Prop where
  idle : ∀ k, (p.connections k).heldBy = none → (p.connections k).settings = {}
  held : ∀ (i : ℕ) (t : Task D ρ) (k : ℕ), p.tasks[i]? = some t → t.connection = some k →
    (p.connections k).heldBy = some i
  keeps : ∀ (i : ℕ) (t : Task D ρ), p.tasks[i]? = some t →
    Keeps (t.call.settings t.context) (p.now t) t.todo
  issued : ∀ a ∈ p.issued, a.settings = a.call.settings a.context

variable {p p' : Pool D ρ} {i k : ℕ} {t t' : Task D ρ} {c : Connection}

theorem getElem?_setTask {j : ℕ} {u : Task D ρ} (h : (p.setTask i t').tasks[j]? = some u) :
    j = i ∧ u = t' ∨ j ≠ i ∧ p.tasks[j]? = some u := by
  by_cases hji : j = i
  · subst hji
    refine .inl ⟨rfl, ?_⟩
    rw [Pool.setTask, List.getElem?_set_self', Option.map_eq_map, Option.map_eq_some_iff] at h
    obtain ⟨-, -, rfl⟩ := h
    rfl
  · rw [Pool.setTask, List.getElem?_set_ne fun h => hji h.symm] at h
    exact .inr ⟨hji, h⟩

/-- **A task moves on, on a connection that is its own or free.** -/
theorem Pool.Inv.move (h : p.Inv)
    (hfree : ∀ (j : ℕ) (u : Task D ρ), j ≠ i → p.tasks[j]? = some u → u.connection ≠ some k)
    (hidle : c.heldBy = none → c.settings = {})
    (hheld : t'.connection = some k ∧ c.heldBy = some i ∨ t'.connection = none)
    (hkeeps : Keeps (t'.call.settings t'.context)
      (if t'.connection = none then {} else c.settings) t'.todo) :
    ((p.setConnection k c).setTask i t').Inv := by
  have hconn : ((p.setConnection k c).setTask i t').connections = Function.update p.connections k c :=
    rfl
  have hother : ∀ (j : ℕ) (u : Task D ρ), j ≠ i → p.tasks[j]? = some u →
      ((p.setConnection k c).setTask i t').now u = p.now u := by
    intro j u hj hu
    rw [Pool.now, Pool.now]
    cases hconn' : u.connection with
    | none => rfl
    | some k' =>
      have hne : k' ≠ k := fun h => hfree j u hj hu (h ▸ hconn')
      rw [Option.elim_some, Option.elim_some, hconn, Function.update_of_ne hne]
  constructor
  · intro k' hk'
    rw [hconn] at hk' ⊢
    by_cases hkk : k' = k
    · subst hkk
      rw [Function.update_self] at hk' ⊢
      exact hidle hk'
    · rw [Function.update_of_ne hkk] at hk' ⊢
      exact h.idle k' hk'
  · intro j u k' hu hk'
    rw [hconn]
    rcases getElem?_setTask hu with ⟨rfl, rfl⟩ | ⟨hj, hu⟩
    · rcases hheld with ⟨hk, hc⟩ | hnone
      · obtain rfl : k = k' := Option.some.inj (hk.symm.trans hk')
        rw [Function.update_self, hc]
      · rw [hnone] at hk'
        cases hk'
    · have hne : k' ≠ k := fun h => hfree j u hj hu (h ▸ hk')
      rw [Function.update_of_ne hne]
      exact h.held j u k' hu hk'
  · intro j u hu
    rcases getElem?_setTask hu with ⟨rfl, rfl⟩ | ⟨hj, hu⟩
    · rcases hheld with ⟨hk, -⟩ | hnone
      · rw [if_neg (by rw [hk]; simp)] at hkeeps
        rwa [Pool.now, hk, Option.elim_some, hconn, Function.update_self]
      · rw [if_pos hnone] at hkeeps
        rwa [Pool.now, hnone]
    · rw [hother j u hj hu]
      exact h.keeps j u hu
  · exact h.issued

/-- **A task moves on, and no connection changes.** -/
theorem Pool.Inv.stay (h : p.Inv) (ht : p.tasks[i]? = some t)
    (hconn : t'.connection = t.connection ∨ t'.connection = none)
    (hkeeps : Keeps (t'.call.settings t'.context) (p.now t') t'.todo) :
    (p.setTask i t').Inv where
  idle := h.idle
  held j u k' hu hk' := by
    rcases getElem?_setTask hu with ⟨rfl, rfl⟩ | ⟨-, hu⟩
    · rcases hconn with hconn | hnone
      · exact h.held j t k' ht (hconn ▸ hk')
      · rw [hnone] at hk'
        cases hk'
    · exact h.held j u k' hu hk'
  keeps j u hu := by
    rcases getElem?_setTask hu with ⟨rfl, rfl⟩ | ⟨-, hu⟩
    · exact hkeeps
    · exact h.keeps j u hu
  issued := h.issued

/-- No other task is on a free connection, or on that of a task. -/
theorem Pool.Inv.ne_of_heldBy (h : p.Inv) (hk : (p.connections k).heldBy ∈ [none, some i]) (j : ℕ)
    (u : Task D ρ) (hj : j ≠ i) (hu : p.tasks[j]? = some u) : u.connection ≠ some k := by
  intro hk'
  rw [h.held j u k hu hk'] at hk
  simp at hk
  exact hj hk

/-- A task's statement reaches the database, under the settings it is to have. -/
theorem Pool.Inv.issue (h : p.Inv) (ht : p.tasks[i]? = some t) {st : Statement (Row D) ρ}
    {rest : List (Command D ρ)} (hnow : (p.connections k).settings = t.call.settings t.context)
    (hkeeps : Keeps (t.call.settings t.context) (p.now t) rest) : (p.issue i k t st rest).Inv := by
  have hstay : (p.setTask i { t with todo := rest }).Inv := h.stay ht (.inl rfl) hkeeps
  refine ⟨hstay.idle, hstay.held, hstay.keeps, fun a ha => ?_⟩
  rcases List.mem_append.mp ha with ha | ha
  · exact h.issued a ha
  · obtain rfl := List.mem_singleton.mp ha
    exact hnow

theorem Pool.Inv.send (h : p.Inv) (ht : p.tasks[i]? = some t) {command : Command D ρ}
    {rest : List (Command D ρ)} (htodo : t.todo = command :: rest)
    (hsend : p.send i k t command rest = some p') : p'.Inv := by
  have hkeeps := h.keeps i t ht
  rw [htodo] at hkeeps
  cases command with
  | begin =>
    simp only [Pool.send, Option.ite_none_right_eq_some, Option.some.injEq] at hsend
    obtain ⟨⟨hnone, hfree⟩, rfl⟩ := hsend
    refine h.move (h.ne_of_heldBy (by simp [hfree])) (fun hc => by cases hc) (.inl ⟨rfl, rfl⟩) ?_
    rw [if_neg (by simp)]
    dsimp only
    rw [h.idle k hfree]
    exact hkeeps
  | setConfig settings =>
    obtain ⟨k', hk', rfl⟩ := Option.map_eq_some_iff.mp hsend
    have hheld := h.held i t k' ht hk'
    refine h.move (h.ne_of_heldBy (by simp [hheld])) (fun hc => ?_) (.inl ⟨hk', hheld⟩) ?_
    · rw [hheld] at hc
      cases hc
    · rw [if_neg (by rw [hk']; simp)]
      exact hkeeps
  | run st =>
    obtain ⟨hnow, hrest⟩ := hkeeps
    have hp' : ∃ k', (p.connections k').settings = p.now t ∧ p.issue i k' t st rest = p' := by
      rw [Pool.send] at hsend
      rw [Pool.now]
      cases hconn : t.connection with
      | some own =>
        rw [hconn] at hsend
        exact ⟨own, rfl, Option.some.inj hsend⟩
      | none =>
        rw [hconn] at hsend
        obtain ⟨hfree, hsend⟩ := Option.ite_none_right_eq_some.mp hsend
        exact ⟨k, h.idle k hfree, Option.some.inj hsend⟩
    obtain ⟨k', hk', rfl⟩ := hp'
    exact h.issue ht (hk'.trans hnow) hrest
  | commit =>
    obtain ⟨k', hk', rfl⟩ := Option.map_eq_some_iff.mp hsend
    have hheld := h.held i t k' ht hk'
    exact h.move (h.ne_of_heldBy (by simp [hheld])) (fun _ => rfl) (.inr rfl) hkeeps

theorem Pool.Inv.fail (h : p.Inv) (ht : p.tasks[i]? = some t) (hfail : p.step (.fail i) = some p') :
    p'.Inv := by
  simp only [Pool.step, ht, Option.map_some, Option.some.injEq] at hfail
  cases hconn : t.connection with
  | some k' =>
    rw [hconn] at hfail
    obtain rfl := hfail
    have hheld := h.held i t k' ht hconn
    exact h.move (h.ne_of_heldBy (by simp [hheld])) (fun _ => rfl) (.inr rfl) trivial
  | none =>
    rw [hconn] at hfail
    obtain rfl := hfail
    exact h.stay ht (.inr rfl) trivial

theorem getElem?_call {u : Task D ρ} (h : (p.tasks ++ [t])[i]? = some u) :
    p.tasks[i]? = some u ∨ u = t := by
  rw [List.getElem?_append] at h
  split at h
  · exact .inl h
  · exact .inr (List.mem_singleton.mp (List.mem_of_getElem? h))

/-- A new call's task, on no connection yet. -/
theorem Pool.Inv.call (h : p.Inv) (context : Option UniversityDbContext) (call : PrismaCall D ρ) :
    Pool.Inv { p with tasks := p.tasks ++ [⟨context, call, call.commands context, none⟩] } where
  idle := h.idle
  held i t k ht hk := by
    rcases getElem?_call ht with ht | rfl
    · exact h.held i t k ht hk
    · cases hk
  keeps i t ht := by
    rcases getElem?_call ht with ht | rfl
    · exact h.keeps i t ht
    · exact keeps_commands context call
  issued := h.issued

theorem Pool.Inv.step (h : p.Inv) {l : Pool.Label D ρ} (hstep : (pool D ρ).step p l = some p') :
    p'.Inv := by
  cases l with
  | call context call =>
    obtain rfl := Option.some.inj hstep
    exact h.call context call
  | send i k =>
    obtain ⟨t, ht, hsend⟩ := Option.bind_eq_some_iff.mp hstep
    split at hsend
    · cases hsend
    · next command rest htodo => exact h.send ht htodo hsend
  | fail i =>
    obtain ⟨t, ht, -⟩ := Option.map_eq_some_iff.mp hstep
    exact h.fail ht hstep

/-- **Every statement reaches the database under its request's settings.** -/
theorem issued_settings (h : (pool D ρ).Reachable Machine.free p) :
    ∀ a ∈ p.issued, a.settings = a.call.settings a.context := by
  have hinv : p.Inv := by
    refine h.invariant (fun hp => ?_) fun hinv _ hstep => hinv.step hstep
    obtain rfl := hp
    constructor
    · intro k _
      rfl
    · intro i t k ht
      cases ht
    · intro i t ht
      cases ht
    · intro a ha
      cases ha
  exact hinv.issued

/-! ## Requests -/

/-- What the database is given. -/
def Issued.label (a : Issued D ρ) : Settings × Statement (Row D) ρ := (a.settings, a.st)

/-- A request that leaves the accounts as they are. -/
def Issued.KeepsUsers (a : Issued D ρ) : Prop := ∀ w, a.st.write = some w → w.table ≠ .users

instance (a : Issued D ρ) : Decidable a.KeepsUsers :=
  inferInstanceAs (Decidable (∀ w, a.st.write = some w → w.table ≠ .users))

/-- **Every request is isolated**: each statement reaches the database under the settings of its own
request, and the requests of a university have a database of its own.  `done` are the statements
that take effect, in the order they do: those of transactions that were rolled back are not there. -/
theorem requests_isolated (h : (pool D ρ).Reachable Machine.free p) :
    (∀ a ∈ p.issued, a.settings = a.call.settings a.context)
      ∧ ∀ {done : List (Issued D ρ)} {s t : Server Settings ρ (Row D)} {root : Uuid},
        (∀ a ∈ done, a ∈ p.issued) → Constraints s.rows →
        (server D ρ).exec s (done.map Issued.label) = some t →
        (∀ a ∈ done, a.call.university a.context ≠ some root → a.KeepsUsers) →
        (server D ρ).exec (universityOf root s)
            ((done.filter fun a => a.call.university a.context = some root).map Issued.label)
          = some (universityOf root t) := by
  refine ⟨issued_settings h, fun {done s t root} hdone hs hexec hothers => ?_⟩
  have huniversity : ∀ a ∈ done,
      a.label.1.rootOrganizationId = a.call.university a.context := fun a ha =>
    congrArg Settings.rootOrganizationId (issued_settings h a (hdone a ha))
  have hfilter : (done.map Issued.label).filter (fun l => l.1.rootOrganizationId = some root)
      = (done.filter fun a => a.call.university a.context = some root).map Issued.label := by
    rw [List.filter_map]
    refine congrArg _ (List.filter_congr fun a ha => ?_)
    rw [Function.comp_apply, huniversity a ha]
  rw [← hfilter]
  refine own_database hs hexec fun l hl hne => ?_
  obtain ⟨a, ha, rfl⟩ := List.mem_map.mp hl
  rw [huniversity a ha] at hne
  exact hothers a ha hne

/-- Two users of two universities count and rename the resources they see, and each connection
serves both. -/
def schedule : List (Pool.Label String ℕ) :=
  [.call (intercept (some ⟨some 7, some 1⟩)) (.statement (writing (renameResources "Studio"))),
    .call (intercept (some ⟨some 8, some 2⟩))
      (.transaction [counting, writing (renameResources "Court")]),
    .send 0 0, .send 1 1, .send 0 0, .send 1 1, .send 1 1, .send 0 0, .send 0 0, .send 1 1,
    .send 1 1,
    .call (intercept (some ⟨some 8, some 2⟩)) (.withUniversity ⟨1, some 7⟩ [counting]),
    .call (intercept none) (.statement counting),
    .send 2 0, .send 2 0, .send 2 0, .fail 2, .send 3 0]

theorem requests_isolated_on_campus : ∃ (p : Pool String ℕ) (t : Server Settings ℕ (Row String)),
    p.issued.map (fun a => a.call.university a.context) = [some 2, some 1, some 2, none]
      ∧ (∀ a ∈ p.issued, a.settings = a.call.settings a.context)
      ∧ (server String ℕ).exec campus (p.issued.map Issued.label) = some t
      ∧ (server String ℕ).exec (universityOf 1 campus)
          ((p.issued.filter fun a => a.call.university a.context = some 1).map Issued.label)
        = some (universityOf 1 t) := by
  obtain ⟨p, hreach, hp⟩ := (pool String ℕ).exists_reachable
    (p := fun p => decide (p.issued.map (fun a => a.call.university a.context)
        = [some 2, some 1, some 2, none]
      ∧ ((server String ℕ).exec campus (p.issued.map Issued.label)).isSome
      ∧ ∀ a ∈ p.issued, a.KeepsUsers)) (s := {}) schedule rfl (by decide)
  obtain ⟨hissued, hsome, hkeeps⟩ := of_decide_eq_true hp
  obtain ⟨t, ht⟩ := Option.isSome_iff_exists.mp hsome
  obtain ⟨hsettings, hisolated⟩ := requests_isolated hreach
  exact ⟨p, t, hissued, hsettings, ht,
    hisolated (fun a ha => ha) (by decide) ht fun a ha _ => hkeeps a ha⟩

end ResourceHive.Universities
