import ResourceHive.Sessions.Rotation

/-!
# Sessions/SessionClient — a tab does not replay its refresh tokens

`session-api.ts` answers a 401 by refreshing the session and asking once more, and all requests of a
tab that are answered so meanwhile share one refresh, `activeRefreshRequest`.  The server takes a
used refresh token for a stolen one, and revokes its family.

The tab, its refresh on the way to the server or back, and the server with whatever else it does are
one machine (`session`).  The argument follows the family's unused token.  It is the tab's cookie;
once the tab's own rotation commits, it is in the response; and no refresh starts before that
response has become the cookie (`Inv`).  So no look-up ever finds a used token of the family, and no
two rotations of it are in flight (`never_replayed`), as long as no response with a token is lost:
`replayed_after_loss` is what happens then.
-/

namespace ResourceHive.Sessions

/-! ## The tab -/

/-- **A call of `fetchWithSessionRefresh`.** -/
inductive Fetch
  /-- The request is on its way. -/
  | first
  /-- It was answered 401, and `refreshSession` is awaited. -/
  | refreshing
  /-- The second request is on its way. -/
  | second
  | returned (status : ℕ)
  deriving DecidableEq, Repr

/-- What a call does when the refresh it may be waiting for has settled. -/
def Fetch.settle (ok : Bool) : Fetch → Fetch
  | .refreshing => if ok then .second else .returned 401
  | fetch => fetch

/-- Where the request of `performRefresh` is. -/
inductive Refresh
  | sent (cookie : Option String)
  /-- The server's call. -/
  | serving (i : ℕ)
  /-- The response, with a new token, or clearing the cookies. -/
  | answered (token : Option String)
  deriving DecidableEq, Repr

/-- A tab, with the browser's refresh cookie. -/
structure Tab where
  cookie : Option String
  activeRefreshRequest : Option Refresh := none
  fetches : List Fetch := []
  deriving DecidableEq, Repr

namespace Tab

/-- **`refreshSession`.** -/
def refreshSession (tab : Tab) : Tab :=
  match tab.activeRefreshRequest with
  | none => { tab with activeRefreshRequest := some (.sent tab.cookie) }
  | some _ => tab

/-- `performRefresh` has settled: its `finally` runs before anyone who waits for it goes on. -/
def settled (tab : Tab) (ok : Bool) : Tab :=
  { tab with activeRefreshRequest := none, fetches := tab.fetches.map (Fetch.settle ok) }

/-- **A response to a request of a call.** -/
def respond (tab : Tab) (k status : ℕ) : Option Tab :=
  match tab.fetches[k]? with
  | some .first =>
    if status ≠ 401 then some { tab with fetches := tab.fetches.set k (.returned status) }
    else some { tab.refreshSession with fetches := tab.fetches.set k .refreshing }
  | some .second => some { tab with fetches := tab.fetches.set k (.returned status) }
  | _ => none

end Tab

/-! ## The tab and the server -/

structure Client where
  server : Sessions Database Point Empty
  tab : Tab

/-- What happens next. -/
inductive ClientLabel
  /-- A step of the server, in the tab's call or in anyone's. -/
  | server (l : Label Point Reading Outside)
  | fetch
  | respond (k status : ℕ)
  /-- The login form restores the session. -/
  | refresh
  /-- The request of the refresh reaches the server. -/
  | arrive
  /-- The server's call for it has thrown. -/
  | reject
  /-- The response reaches the browser. -/
  | receive
  /-- The request or its response is lost. -/
  | lose
  /-- The cookie expires, or a logout clears it. -/
  | clearCookie

/-- The token of the response that a server's step makes for call `i`. -/
def issuedToken (server : Sessions Database Point Empty) (i : ℕ) : Label Point Reading Outside →
    Option String
  | .commit j =>
    if j = i then
      match server.calls[j]?.map Session.pc with
      | some (.rotating _ _ _ x) => some x.text
      | _ => none
    else none
  | _ => none

/-- A refresh, after a step of the server. -/
def Refresh.after (server : Sessions Database Point Empty) (l : Label Point Reading Outside) :
    Refresh → Refresh
  | .serving i =>
    match issuedToken server i l with
    | some token => .answered (some token)
    | none => .serving i
  | refresh => refresh

/-- The point of a call that threw: the controller clears the cookies. -/
def Point.threw : Point → Bool
  | .finished (.threw _) | .failed _ => true
  | _ => false

/-- **One step.** -/
def Client.step (K : Crypto) (s : Client) : ClientLabel → Option Client
  | .server l =>
    ((code K).step s.server l).map fun server =>
      { server, tab := { s.tab with
          activeRefreshRequest := s.tab.activeRefreshRequest.map (Refresh.after s.server l) } }
  | .fetch => some { s with tab := { s.tab with fetches := s.tab.fetches ++ [.first] } }
  | .respond k status => (s.tab.respond k status).map fun tab => { s with tab }
  | .refresh => some { s with tab := s.tab.refreshSession }
  | .arrive =>
    match s.tab.activeRefreshRequest with
    | some (.sent cookie) =>
      ((code K).step s.server (.call (.refreshSession cookie))).map fun server =>
        { server, tab := { s.tab with
            activeRefreshRequest := some (.serving s.server.calls.length) } }
    | _ => none
  | .reject =>
    match s.tab.activeRefreshRequest with
    | some (.serving i) =>
      if s.server.calls[i]?.any fun c => c.pc.threw then
        some { s with tab := { s.tab with activeRefreshRequest := some (.answered none) } }
      else none
    | _ => none
  | .receive =>
    match s.tab.activeRefreshRequest with
    | some (.answered token) =>
      some { s with tab := { s.tab.settled token.isSome with cookie := token } }
    | _ => none
  | .lose =>
    s.tab.activeRefreshRequest.map fun _ => { s with tab := s.tab.settled false }
  | .clearCookie => some { s with tab := { s.tab with cookie := none } }

/-- The token's row is of the family, and unused. -/
def Held (K : Crypto) (f : Uuid) (db : Database) (token : String) : Prop :=
  ∃ t ∈ db.refreshTokens, t.tokenHash = K.hashToken token ∧ t.familyId = f ∧ t.usedAt = none

/-- **A tab with a session of the family `f`**, and a server on which nothing is in progress. -/
def session (K : Crypto) (f : Uuid) : Machine Client ClientLabel where
  init s := ((code K).machine Chained).init s.server ∧ s.tab.activeRefreshRequest = none
    ∧ s.tab.fetches = [] ∧ ∀ token ∈ s.tab.cookie, Held K f s.server.db token
  step := Client.step K

/-- **The tab is alone with its tokens**: nobody else looks one of them up to refresh a session, and
no response with one is lost. -/
def alone (K : Crypto) (f : Uuid) (s : Client) : ClientLabel → Bool
  | .server (.read j _) =>
    decide (s.tab.activeRefreshRequest = some (.serving j))
      || match s.server.calls[j]?.map Session.pc with
        | some (.refreshSession (some token)) =>
          s.server.db.refreshTokens.rows.all fun t =>
            decide (t.tokenHash = K.hashToken token → t.familyId ≠ f)
        | _ => true
  | .lose =>
    match s.tab.activeRefreshRequest with
    | some (.serving _) | some (.answered (some _)) => false
    | _ => true
  | _ => true

/-- **A replay**: a look-up for a refresh finds a used token of the family, whoever brings it. -/
def Replay (K : Crypto) (f : Uuid) (s : Client) (l : ClientLabel) : Prop :=
  ∃ j x c token, l = .server (.read j x) ∧ s.server.calls[j]? = some c
    ∧ c.pc = .refreshSession (some token)
    ∧ ∃ t ∈ s.server.db.refreshTokens, t.tokenHash = K.hashToken token ∧ t.familyId = f
      ∧ t.usedAt.isSome

/-! ## Held tokens -/

variable {K : Crypto} {f : Uuid} {db db' : Database} {token : String}

/-- **A token that is held stays held**, whatever commits that is no rotation of its family. -/
theorem Held.commit (h : Held K f db token) {p : Point}
    (hknows : ∀ t, p.copy = some t → db.Knows t) (hother : ∀ t, p.copy = some t → t.familyId ≠ f)
    (hrep : (code K).replay ((code K).writes p) db = some db') : Held K f db' token := by
  obtain ⟨u, hu, hhash, hfam, hused⟩ := h
  have hunclaimed : ∀ now, .claim u.id now ∉ (code K).writes p := by
    intro now hmem
    obtain ⟨stored, _, _, _, rfl, hid⟩ := claim_mem_writes hmem
    obtain ⟨-, -, hfam', -⟩ :=
      RefreshToken.identity_eq ((hknows stored rfl).identity_eq hu hid.symm)
    exact hother stored rfl (hfam'.symm.trans hfam)
  obtain ⟨u', hu', hface⟩ := replay_face hu hunclaimed hrep
  simp only [RefreshToken.face, Prod.mk.injEq] at hface
  obtain ⟨-, hf, hh, hused'⟩ := hface
  exact ⟨u', hu', hh.trans hhash, hf.trans hfam, hused'.trans hused⟩

theorem Held.of_eq (h : Held K f db token) (heq : db'.refreshTokens = db.refreshTokens) :
    Held K f db' token := by
  obtain ⟨u, hu, hrest⟩ := h
  exact ⟨u, heq ▸ hu, hrest⟩

/-- **A rotation hands the token on**: its successor is held. -/
theorem Held.of_rotation {stored : RefreshToken} {accessToken : AccessToken} {now : Timestamp}
    {x : Reading} (hf : stored.familyId = f)
    (hrep : (code K).replay ((code K).writes (.rotating stored accessToken now x)) db = some db') :
    Held K f db' x.text := by
  obtain ⟨t, hrot⟩ := replay_rotation hrep
  obtain ⟨db₁, -, -, hins⟩ := hrot.rows
  exact ⟨stored.next K x, (Table.mem_insert hins).mpr (.inr rfl), rfl, hf, rfl⟩

/-- The row with the hash of a held token is the held one. -/
theorem Held.row (h : Held K f db token) {t : RefreshToken} (ht : t ∈ db.refreshTokens)
    (hhash : t.tokenHash = K.hashToken token) : t.familyId = f ∧ t.usedAt = none := by
  obtain ⟨u, hu, hu', hrest⟩ := h
  obtain rfl := db.refreshTokens.valid.2.1.eq ht hu (hhash.trans hu'.symm)
  exact hrest

/-- **Where a call's copy is from**: it had it, or it has just looked its token up. -/
theorem copy_read_lookup {p p' : Point} {x : Reading} (h : p.read K db x = some p')
    {t : RefreshToken} (ht : p'.copy = some t) :
    p.copy = some t ∨ ∃ token, p = .refreshSession (some token) ∧ t ∈ db.refreshTokens
      ∧ t.tokenHash = K.hashToken token := by
  cases p with
  | refreshSession cookie =>
    obtain rfl := Option.some.inj h
    split at ht
    · cases ht
    · next token hpresent =>
      have hfind := copy_refreshSession ht
      refine .inr ⟨token, ?_, Table.mem_of_find? hfind, of_decide_eq_true
        (Table.pred_of_find? (p := fun t : RefreshToken => decide (t.tokenHash = K.hashToken token))
          hfind)⟩
      rw [(Option.filter_eq_some_iff.mp hpresent).1]
  | refreshContext stored user now =>
    obtain rfl := Option.some.inj h
    split at ht
    · exact .inl ht
    · cases ht
  | refreshAccess stored user now =>
    obtain rfl := Option.some.inj h
    exact .inl ht
  | login email password =>
    obtain rfl := Option.some.inj h
    split at ht
    · simp at ht
    · cases ht
  | revokeSession token =>
    obtain rfl := Option.some.inj h
    split at ht
    · cases ht
    · simp at ht
  | switchActiveUniversity userId root token =>
    obtain rfl := Option.some.inj h
    split at ht
    · cases ht
    · split at ht <;> cases ht
  | loginCompare | switchFind | resetPassword =>
    obtain rfl := Option.some.inj h
    simp at ht
  | createSessionForUser | sessionAccess | revokeRefreshTokenFamily | switchUpdate | switchUser
  | resetTransaction =>
    obtain rfl := Option.some.inj h
    cases ht
  | issuing | rotating | revoking | switching | resetting | finished | failed => cases h

/-- The token a call is about to look up for a refresh. -/
def Point.lookup : Point → Option String
  | .refreshSession token => token
  | _ => none

/-- Once a call has read, it looks up no token for a refresh any more. -/
theorem lookup_read {p p' : Point} {x : Reading} (h : p.read K db x = some p') :
    p'.lookup = none := by
  cases p with
  | login email password =>
    obtain rfl := Option.some.inj h
    split
    · simp only [login]
      split
      · rfl
      · split_ifs
        · rfl
        · split <;> rfl
    · rfl
  | loginCompare user passwordHash password =>
    obtain rfl := Option.some.inj h
    simp only [loginCompare]
    split_ifs <;> rfl
  | refreshSession cookie =>
    obtain rfl := Option.some.inj h
    split
    · rfl
    · next token _ =>
      cases hstored : db.refreshTokens.find? (·.tokenHash = K.hashToken token) with
      | none => rfl
      | some stored =>
        rcases refreshSession_cases db stored x.now with heq | ⟨user, -, -, heq | ⟨-, heq⟩⟩ <;>
          rw [heq] <;> rfl
  | refreshContext stored user now =>
    obtain rfl := Option.some.inj h
    split_ifs <;> rfl
  | revokeSession token =>
    obtain rfl := Option.some.inj h
    split
    · rfl
    · simp only [revokeSession]
      split <;> rfl
  | switchActiveUniversity userId root token =>
    obtain rfl := Option.some.inj h
    split_ifs
    · rfl
    · split <;> rfl
  | switchFind userId root token =>
    obtain rfl := Option.some.inj h
    simp only [switchFind]
    split
    · rfl
    · split_ifs <;> rfl
  | resetPassword token password =>
    obtain rfl := Option.some.inj h
    simp only [resetPassword]
    split
    · rfl
    · split_ifs <;> rfl
  | createSessionForUser | sessionAccess | refreshAccess | revokeRefreshTokenFamily | switchUpdate
  | switchUser | resetTransaction =>
    obtain rfl := Option.some.inj h
    rfl
  | issuing | rotating | revoking | switching | resetting | finished | failed => cases h

/-! ## Who has the unused token -/

/-- **The tab's call**: it looks up a held token, or it has found a token of the family. -/
structure Mine (K : Crypto) (f : Uuid) (db : Database) (p : Point) : Prop where
  lookup : ∀ token ∈ p.lookup, Held K f db token
  copy : ∀ t, p.copy = some t → t.familyId = f

/-- A refresh brings a held token there, or back. -/
def Refresh.Carries (K : Crypto) (f : Uuid) (server : Sessions Database Point Empty) :
    Refresh → Prop
  | .sent cookie => ∀ token ∈ cookie, Held K f server.db token
  | .serving i => ∃ c, server.calls[i]? = some c ∧ Mine K f server.db c.pc
  | .answered next => ∀ token ∈ next, Held K f server.db token

/-- **The invariant**: a refresh carries a held token, and so does the cookie, unless the response
with the next one is on its way; and no other call is on its way to rotating the family. -/
structure Client.Inv (K : Crypto) (f : Uuid) (s : Client) : Prop where
  chains : (chains K).Holds s.server
  cookie : (∀ token, s.tab.activeRefreshRequest ≠ some (.answered (some token))) →
    ∀ token ∈ s.tab.cookie, Held K f s.server.db token
  refresh : ∀ r ∈ s.tab.activeRefreshRequest, r.Carries K f s.server
  others : ∀ j c, s.server.calls[j]? = some c → s.tab.activeRefreshRequest ≠ some (.serving j) →
    ∀ t, c.pc.copy = some t → t.familyId ≠ f

variable {s s' : Client} {server : Sessions Database Point Empty}
  {l : Label Point Reading Outside}

/-- No step of the server takes a held token away but a rotation of its family. -/
theorem Held.step (h : Held K f s.server.db token) (hchains : (chains K).Holds s.server)
    (hstep : (code K).step s.server l = some server)
    (hcommit : ∀ i c, l = .commit i → s.server.calls[i]? = some c → (code K).writes c.pc ≠ [] →
      ∀ t, c.pc.copy = some t → t.familyId ≠ f) : Held K f server.db token := by
  rcases hchains.db_cases hstep with hdb | ⟨i, c, rfl, hc, hat, hne, hrep⟩ | ⟨x, -, hx⟩
  · rw [hdb]
    exact h
  · exact h.commit hat (hcommit i c rfl hc hne) hrep
  · exact h.of_eq (outside_refreshTokens hx)

/-- A call is in a rotation that commits. -/
theorem issuedToken_eq_some {i : ℕ} (h : issuedToken server i l = some token) : l = .commit i ∧
    ∃ c stored accessToken now x, server.calls[i]? = some c
      ∧ c.pc = .rotating stored accessToken now x ∧ x.text = token := by
  cases l with
  | commit j =>
    rw [issuedToken, Option.ite_none_right_eq_some] at h
    obtain ⟨rfl, h⟩ := h
    split at h
    · next stored accessToken now x hpc =>
      obtain ⟨c, hc, hpc⟩ := Option.map_eq_some_iff.mp hpc
      exact ⟨rfl, c, stored, accessToken, now, x, hc, hpc, Option.some.inj h⟩
    · cases h
  | call | read | write | rollback | outside => cases h

/-- A commit in a call that holds a copy is a rotation, and issues a token. -/
theorem issuedToken_of_copy {i : ℕ} {c : Session Point} (hc : server.calls[i]? = some c)
    (hne : (code K).writes c.pc ≠ []) {t : RefreshToken} (ht : c.pc.copy = some t) :
    issuedToken server i (.commit i : Label Point Reading Outside) ≠ none := by
  rw [issuedToken, if_pos rfl, hc, Option.map_some]
  generalize c.pc = p at hne ht
  cases p with
  | rotating => intro h; cases h
  | refreshContext | refreshAccess => exact absurd rfl hne
  | login | loginCompare | createSessionForUser | sessionAccess | issuing | refreshSession
  | revokeSession | revokeRefreshTokenFamily | revoking | switchActiveUniversity | switchFind
  | switchUpdate | switching | switchUser | resetPassword | resetTransaction | resetting | finished
  | failed => cases ht

/-- A point that neither looks a token up nor holds a copy is the tab's as well as anyone's. -/
theorem Mine.of_none {p : Point} (hlookup : p.lookup = none) (hcopy : p.copy = none) :
    Mine K f db p where
  lookup token h := by
    rw [hlookup] at h
    cases h
  copy t h := by
    rw [hcopy] at h
    cases h

theorem copy_committed_eq_none {p : Point} (hne : (code K).writes p ≠ []) :
    ((code K).committed p).copy = none := by
  cases p with
  | issuing | rotating | revoking | switching | resetting => rfl
  | login | loginCompare | createSessionForUser | sessionAccess | refreshSession | refreshContext
  | refreshAccess | revokeSession | revokeRefreshTokenFamily | switchActiveUniversity | switchFind
  | switchUpdate | switchUser | resetPassword | resetTransaction | finished | failed =>
    exact absurd rfl hne

theorem lookup_committed {p : Point} (hne : (code K).writes p ≠ []) :
    ((code K).committed p).lookup = none := by
  cases p with
  | issuing | rotating | revoking | switching | resetting => rfl
  | login | loginCompare | createSessionForUser | sessionAccess | refreshSession | refreshContext
  | refreshAccess | revokeSession | revokeRefreshTokenFamily | switchActiveUniversity | switchFind
  | switchUpdate | switchUser | resetPassword | resetTransaction | finished | failed =>
    exact absurd rfl hne

theorem lookup_rolledBack (p : Point) : ((code K).rolledBack p).lookup = none := by
  cases p <;> rfl

/-- **The tab's call goes on**, while held tokens stay held. -/
theorem Mine.step {i : ℕ} {c : Session Point} (h : Mine K f s.server.db c.pc)
    (hc : s.server.calls[i]? = some c) (hstep : (code K).step s.server l = some server)
    (hheld : ∀ token, Held K f s.server.db token → Held K f server.db token) :
    ∃ c', server.calls[i]? = some c' ∧ Mine K f server.db c'.pc := by
  have hstay : Mine K f server.db c.pc := ⟨fun token hl => hheld token (h.lookup token hl), h.copy⟩
  cases Code.call_cases hc hstep with
  | other _ hc' => exact ⟨c, hc', hstay⟩
  | @read x p _ hread hdb hc' =>
    refine ⟨_, hc', ⟨fun token hl => ?_, fun t ht => ?_⟩⟩
    · rw [lookup_read hread] at hl
      cases hl
    · rcases copy_read_lookup hread ht with hcopy | ⟨token, hpc, hmem, hhash⟩
      · exact h.copy t hcopy
      · exact ((h.lookup token (by rw [hpc]; rfl)).row hmem hhash).1
  | write _ _ hc' => exact ⟨_, hc', hstay⟩
  | commit hne _ hc' =>
    exact ⟨_, hc', .of_none (lookup_committed hne) (copy_committed_eq_none hne)⟩
  | rollback _ hc' =>
    exact ⟨_, hc', .of_none (lookup_rolledBack (K := K) c.pc) (copy_rolledBack (K := K) c.pc)⟩

/-- **Nobody else gets on the way to rotating the family.** -/
theorem Client.Inv.others_step (h : s.Inv K f) (hok : alone K f s (.server l) = true)
    (hstep : (code K).step s.server l = some server) {j : ℕ} {c : Session Point}
    (hc : server.calls[j]? = some c) (hj : s.tab.activeRefreshRequest ≠ some (.serving j))
    (t : RefreshToken) (ht : c.pc.copy = some t) : t.familyId ≠ f := by
  cases hold : s.server.calls[j]? with
  | none =>
    have hentry := Code.new_call hold hstep hc
    rcases c with ⟨p, n⟩
    cases p with
    | refreshContext | refreshAccess | rotating => cases hentry
    | login | loginCompare | createSessionForUser | sessionAccess | issuing | refreshSession
    | revokeSession | revokeRefreshTokenFamily | revoking | switchActiveUniversity | switchFind
    | switchUpdate | switching | switchUser | resetPassword | resetTransaction | resetting
    | finished | failed => cases ht
  | some d =>
    have hd := h.others j d hold hj
    cases Code.call_cases hold hstep with
    | other _ hc' =>
      obtain rfl := Option.some.inj (hc'.symm.trans hc)
      exact hd t ht
    | read hread _ hc' =>
      obtain rfl := Option.some.inj (hc'.symm.trans hc)
      rcases copy_read_lookup hread ht with hcopy | ⟨token, hpc, hmem, hhash⟩
      · exact hd t hcopy
      · simp only [alone, hj, decide_false, Bool.false_or, hold, Option.map_some, hpc,
          List.all_eq_true, decide_eq_true_eq] at hok
        exact hok t hmem hhash
    | write _ _ hc' =>
      obtain rfl := Option.some.inj (hc'.symm.trans hc)
      exact hd t ht
    | commit hne _ hc' =>
      obtain rfl := Option.some.inj (hc'.symm.trans hc)
      rw [copy_committed_eq_none hne] at ht
      cases ht
    | rollback _ hc' =>
      obtain rfl := Option.some.inj (hc'.symm.trans hc)
      rw [copy_rolledBack] at ht
      cases ht

/-- **A step of the server that makes no response for the tab.** -/
theorem Client.Inv.server_stay (h : s.Inv K f) (hok : alone K f s (.server l) = true)
    (hstep : (code K).step s.server l = some server)
    (hissued : ∀ i, s.tab.activeRefreshRequest = some (.serving i) →
      issuedToken s.server i l = none) :
    Client.Inv K f { s with server } := by
  have hheld : ∀ token, Held K f s.server.db token → Held K f server.db token := by
    refine fun token htoken => htoken.step h.chains hstep fun i c hl hc hne t ht => ?_
    subst hl
    by_cases hi : s.tab.activeRefreshRequest = some (.serving i)
    · exact absurd (hissued i hi) (issuedToken_of_copy hc hne ht)
    · exact h.others i c hc hi t ht
  refine ⟨h.chains.step trivial hstep, fun hno token htoken => ?_, fun r hr => ?_,
    fun j c hc hj => h.others_step hok hstep hc hj⟩
  · exact hheld token (h.cookie hno token htoken)
  · have hcarries := h.refresh r hr
    cases r with
    | sent cookie => exact fun token htoken => hheld token (hcarries token htoken)
    | serving i =>
      obtain ⟨c, hc, hmine⟩ := hcarries
      exact hmine.step hc hstep hheld
    | answered next => exact fun token htoken => hheld token (hcarries token htoken)

/-- **The tab's rotation commits**, and the response is on its way. -/
theorem Client.Inv.server_issued (h : s.Inv K f) (hok : alone K f s (.server l) = true)
    (hstep : (code K).step s.server l = some server) {i : ℕ}
    (hi : s.tab.activeRefreshRequest = some (.serving i))
    (hissued : issuedToken s.server i l = some token) :
    Client.Inv K f { server, tab := { s.tab with
      activeRefreshRequest := some (.answered (some token)) } } := by
  obtain ⟨rfl, c, stored, _, now, x, hc, hpc, rfl⟩ := issuedToken_eq_some hissued
  obtain ⟨c', hc', hmine⟩ := h.refresh _ hi
  obtain rfl := Option.some.inj (hc'.symm.trans hc)
  have hcommit := Code.call_cases hc hstep
  refine ⟨h.chains.step trivial hstep, fun hno => absurd rfl (hno x.text), fun r hr => ?_,
    fun j d hd _ t ht => ?_⟩
  · obtain rfl := Option.some.inj hr
    intro token htoken
    obtain rfl := Option.some.inj htoken
    cases hcommit with
    | other hl => exact absurd rfl hl
    | commit _ hrep _ =>
      rw [hpc] at hrep
      exact .of_rotation (hmine.copy stored (by rw [hpc]; rfl)) hrep
  · by_cases hji : j = i
    · subst hji
      cases hcommit with
      | other hl => exact absurd rfl hl
      | commit hne _ hd' =>
        obtain rfl := Option.some.inj (hd'.symm.trans hd)
        rw [copy_committed_eq_none hne] at ht
        cases ht
    · refine h.others_step hok hstep hd (fun heq => hji ?_) t ht
      rw [hi] at heq
      exact (Refresh.serving.inj (Option.some.inj heq)).symm

theorem Client.Inv.server_step (h : s.Inv K f) (hok : alone K f s (.server l) = true)
    (hstep : s.step K (.server l) = some s') : s'.Inv K f := by
  obtain ⟨server, hserver, rfl⟩ := Option.map_eq_some_iff.mp hstep
  cases hactive : s.tab.activeRefreshRequest with
  | none =>
    rw [Option.map_none, ← hactive]
    exact h.server_stay hok hserver fun i hi => by rw [hactive] at hi; cases hi
  | some r =>
    cases r with
    | sent | answered =>
      rw [Option.map_some, Refresh.after, ← hactive]
      · exact h.server_stay hok hserver fun i hi => by rw [hactive] at hi; cases hi
      · intro i hi
        cases hi
    | serving i =>
      rw [Option.map_some, Refresh.after]
      cases hissued : issuedToken s.server i l with
      | none =>
        rw [← hactive]
        refine h.server_stay hok hserver fun i' hi' => ?_
        obtain rfl : i = i' := Refresh.serving.inj (Option.some.inj (hactive.symm.trans hi'))
        exact hissued
      | some token => exact h.server_issued hok hserver hactive hissued

/-- **A refresh starts with the cookie.** -/
theorem Client.Inv.refreshSession (h : s.Inv K f) (fetches : List Fetch) :
    Client.Inv K f { s with tab := { s.tab.refreshSession with fetches } } := by
  cases hactive : s.tab.activeRefreshRequest with
  | some r =>
    rw [Tab.refreshSession, hactive]
    exact ⟨h.chains, h.cookie, h.refresh, h.others⟩
  | none =>
    have hcookie := h.cookie fun token => by rw [hactive]; intro h; cases h
    rw [Tab.refreshSession, hactive]
    refine ⟨h.chains, fun _ => hcookie, fun r hr => ?_, fun j c hc _ => h.others j c hc ?_⟩
    · obtain rfl := Option.some.inj hr
      exact hcookie
    · rw [hactive]
      intro h
      cases h

theorem Client.Inv.respond (h : s.Inv K f) {k status : ℕ}
    (hstep : s.step K (.respond k status) = some s') : s'.Inv K f := by
  obtain ⟨tab, htab, rfl⟩ := Option.map_eq_some_iff.mp hstep
  rw [Tab.respond] at htab
  split at htab
  · split at htab
    · obtain rfl := Option.some.inj htab
      exact ⟨h.chains, h.cookie, h.refresh, h.others⟩
    · obtain rfl := Option.some.inj htab
      exact h.refreshSession _
  · obtain rfl := Option.some.inj htab
    exact ⟨h.chains, h.cookie, h.refresh, h.others⟩
  · cases htab

/-- **The refresh reaches the server.** -/
theorem Client.Inv.arrive (h : s.Inv K f) (hstep : s.step K .arrive = some s') : s'.Inv K f := by
  simp only [Client.step] at hstep
  split at hstep
  · next cookie hactive =>
    obtain ⟨server, hserver, rfl⟩ := Option.map_eq_some_iff.mp hstep
    have hcookie := h.cookie fun token => by rw [hactive]; intro h; cases h
    have hother : ∀ j, s.tab.activeRefreshRequest ≠ some (.serving j) := by
      intro j hj
      rw [hactive] at hj
      cases hj
    have hchains := h.chains.step trivial hserver
    cases Code.step_cases hserver with
    | call _ =>
      refine ⟨hchains, fun _ => hcookie, fun r hr => ?_, fun j c hc hj t ht => ?_⟩
      · obtain rfl := Option.some.inj hr
        refine ⟨_, List.getElem?_concat_length, fun token htoken => ?_, fun t ht => by cases ht⟩
        exact h.refresh _ hactive token htoken
      · rw [List.getElem?_append] at hc
        split at hc
        · exact h.others j c hc (hother j) t ht
        · obtain rfl := List.mem_singleton.mp (List.mem_of_getElem? hc)
          cases ht
  · cases hstep

theorem copy_of_threw {p : Point} (h : p.threw = true) : p.copy = none := by
  cases p with
  | refreshContext | refreshAccess | rotating => cases h
  | login | loginCompare | createSessionForUser | sessionAccess | issuing | refreshSession
  | revokeSession | revokeRefreshTokenFamily | revoking | switchActiveUniversity | switchFind
  | switchUpdate | switching | switchUser | resetPassword | resetTransaction | resetting | finished
  | failed => rfl

theorem Client.Inv.reject (h : s.Inv K f) (hstep : s.step K .reject = some s') : s'.Inv K f := by
  simp only [Client.step] at hstep
  split at hstep
  · next i hactive =>
    obtain ⟨hthrew, hstep⟩ := Option.ite_none_right_eq_some.mp hstep
    obtain rfl := Option.some.inj hstep
    refine ⟨h.chains, fun _ => h.cookie fun token => ?_, fun r hr => ?_, fun j c hc _ t ht => ?_⟩
    · rw [hactive]
      intro h
      cases h
    · obtain rfl := Option.some.inj hr
      intro token htoken
      cases htoken
    · by_cases hji : s.tab.activeRefreshRequest = some (.serving j)
      · obtain rfl : i = j := Refresh.serving.inj (Option.some.inj (hactive.symm.trans hji))
        rw [hc, Option.any_some] at hthrew
        rw [copy_of_threw hthrew] at ht
        cases ht
      · exact h.others j c hc hji t ht
  · cases hstep

/-- A refresh that no call of the server is for is over. -/
theorem Client.Inv.settled (h : s.Inv K f)
    (hserving : ∀ i, s.tab.activeRefreshRequest ≠ some (.serving i)) {cookie : Option String}
    (hcookie : ∀ token ∈ cookie, Held K f s.server.db token) (ok : Bool) :
    Client.Inv K f { s with tab := { s.tab.settled ok with cookie } } :=
  ⟨h.chains, fun _ => hcookie, fun _ hr => (by cases hr),
    fun j c hc _ => h.others j c hc (hserving j)⟩

theorem Client.Inv.step (h : s.Inv K f) {l : ClientLabel} (hok : alone K f s l = true)
    (hstep : s.step K l = some s') : s'.Inv K f := by
  cases l with
  | server l => exact h.server_step hok hstep
  | fetch =>
    obtain rfl := Option.some.inj hstep
    exact ⟨h.chains, h.cookie, h.refresh, h.others⟩
  | respond k status => exact h.respond hstep
  | refresh =>
    obtain rfl := Option.some.inj hstep
    exact h.refreshSession s.tab.refreshSession.fetches
  | arrive => exact h.arrive hstep
  | reject => exact h.reject hstep
  | receive =>
    simp only [Client.step] at hstep
    split at hstep
    · next token hactive =>
      obtain rfl := Option.some.inj hstep
      refine h.settled (fun i hi => ?_) (h.refresh _ hactive) _
      rw [hactive] at hi
      cases hi
    · cases hstep
  | lose =>
    obtain ⟨r, hactive, rfl⟩ := Option.map_eq_some_iff.mp hstep
    simp only [alone, hactive] at hok
    refine h.settled (fun i hi => ?_) (h.cookie fun token htoken => ?_) false
    · obtain rfl := Option.some.inj (hactive.symm.trans hi)
      cases hok
    · obtain rfl := Option.some.inj (hactive.symm.trans htoken)
      cases hok
  | clearCookie =>
    obtain rfl := Option.some.inj hstep
    exact ⟨h.chains, fun _ _ htoken => (by cases htoken), h.refresh, h.others⟩

theorem inv_of_reachable (hs : (session K f).Reachable (fun s l => alone K f s l = true) s) :
    s.Inv K f := by
  refine hs.invariant (fun {s} hinit => ?_) fun hinv hok hstep => hinv.step hok hstep
  obtain ⟨⟨hchained, hhistory, hcalls⟩, hactive, -, hcookie⟩ := hinit
  refine ⟨⟨hchained, by simp [hcalls]⟩, fun _ => hcookie, fun r hr => ?_, fun j c hc => ?_⟩
  · rw [hactive] at hr
    cases hr
  · rw [hcalls] at hc
    cases hc

/-- **A tab does not replay its refresh tokens.**  In every interleaving in which it is alone with
them, at most one call of the server is on its way to rotating the session's family, and no look-up
for a refresh finds a used token of it. -/
theorem never_replayed (hs : (session K f).Reachable (fun s l => alone K f s l = true) s) :
    (∀ (i j : ℕ) (c d : Session Point) (t t' : RefreshToken), s.server.calls[i]? = some c →
        s.server.calls[j]? = some d → c.pc.copy = some t → d.pc.copy = some t' →
        t.familyId = f → t'.familyId = f → i = j)
      ∧ ∀ l, alone K f s l = true → ¬ Replay K f s l := by
  have hinv := inv_of_reachable hs
  constructor
  · intro i j c d t t' hc hd ht ht' hf hf'
    have hmine : ∀ (k : ℕ) (e : Session Point) (u : RefreshToken), s.server.calls[k]? = some e →
        e.pc.copy = some u → u.familyId = f →
        s.tab.activeRefreshRequest = some (.serving k) := by
      intro k e u he hu huf
      by_contra hne
      exact hinv.others k e he hne u hu huf
    have heq := (hmine i c t hc ht hf).symm.trans (hmine j d t' hd ht' hf')
    exact Refresh.serving.inj (Option.some.inj heq)
  · rintro l hok ⟨j, x, c, token, rfl, hc, hpc, t, ht, hhash, hf, hused⟩
    by_cases hj : s.tab.activeRefreshRequest = some (.serving j)
    · obtain ⟨c', hc', hmine⟩ := hinv.refresh _ hj
      obtain rfl := Option.some.inj (hc'.symm.trans hc)
      have hrow := (hmine.lookup token (by rw [hpc]; rfl)).row ht hhash
      rw [hrow.2] at hused
      cases hused
    · simp only [alone, hj, decide_false, Bool.false_or, hc, Option.map_some, hpc,
        List.all_eq_true, decide_eq_true_eq] at hok
      exact hok t ht hhash hf

/-- The refresh of a session, from its request to the commit of the server's call `i`. -/
def refreshUpTo (i : ℕ) (now : Timestamp) (next : Reading) : List ClientLabel :=
  [.arrive, .server (.read i { now }), .server (.read i next), .server (.write i),
    .server (.write i), .server (.commit i)]

/-- A tab with a session of one token. -/
def oneTab : Client := ⟨oneSession, { cookie := some "a" }⟩

theorem oneTab_init : (session plain 7).init oneTab := by
  refine ⟨oneSession_chained, rfl, rfl, fun token htoken => ?_⟩
  obtain rfl := Option.some.inj htoken
  exact ⟨firstToken, List.mem_singleton_self _, rfl, rfl, rfl⟩

/-- Two requests share a refresh, and a later refresh brings its token. -/
theorem never_replayed_of_shared : ∃ s : Client, s.tab.fetches = [.returned 200, .second]
    ∧ s.server.calls = [⟨.finished (.refreshed ⟨10, "", none, none, none⟩ "b" 100), 0⟩,
      ⟨.refreshSession (some "b"), 0⟩]
    ∧ ¬ Replay plain 7 s (.server (.read 1 { now := 3 })) := by
  obtain ⟨s, hs, hp⟩ := (session plain 7).exists_reachable_guarded (s := oneTab)
    (p := fun s l => alone plain 7 s l)
    (q := fun s => decide (s.tab.fetches = [.returned 200, .second])
      && decide (s.server.calls
        = [⟨.finished (.refreshed ⟨10, "", none, none, none⟩ "b" 100), 0⟩,
      ⟨.refreshSession (some "b"), 0⟩])
      && alone plain 7 s (.server (.read 1 { now := 3 })))
    ([.fetch, .fetch, .respond 0 401, .respond 1 401]
      ++ refreshUpTo 0 1 { id := 2, text := "b", createdAt := 2 }
      ++ [.receive, .respond 0 200, .refresh, .arrive])
    oneTab_init (by decide)
  simp only [Bool.and_eq_true, decide_eq_true_eq] at hp
  exact ⟨s, hp.1.1, hp.1.2, (never_replayed hs).2 _ hp.2⟩

/-- **A lost response ends the session**: the next refresh is a replay, and the server revokes the
family with the token that the tab has never received. -/
theorem replayed_after_loss : ∃ s, (session plain 7).Reachable Machine.free s
    ∧ Replay plain 7 s (.server (.read 1 { now := 3 }))
    ∧ ∃ t, (session plain 7).Run Machine.free s t
      ∧ t.server.db.refreshTokens.rows.all (·.revokedAt.isSome) := by
  obtain ⟨s, hs, hp⟩ := (session plain 7).exists_reachable (s := oneTab)
    (p := fun s => decide (s.server.calls[1]?
        = some (⟨.refreshSession (some "a"), 0⟩ : Session Point))
      && s.server.db.refreshTokens.rows.any (fun t => decide (t.tokenHash = "a" ∧ t.familyId = 7)
        && t.usedAt.isSome)
      && ((session plain 7).exec s [.server (.read 1 { now := 3 }), .server (.read 1 {}),
        .server (.write 1), .server (.commit 1)]).any fun t =>
          t.server.db.refreshTokens.rows.all (·.revokedAt.isSome))
    (.refresh :: refreshUpTo 0 1 { id := 2, text := "b", createdAt := 2 }
      ++ [.lose, .refresh, .arrive])
    oneTab_init (by decide)
  simp only [Bool.and_eq_true, decide_eq_true_eq, List.any_eq_true] at hp
  obtain ⟨⟨hcall, t, ht, ⟨hhash, hf⟩, hused⟩, hexec⟩ := hp
  obtain ⟨u, hrun, hu⟩ := (session plain 7).exists_run _ hexec
  exact ⟨s, hs, ⟨1, _, _, "a", rfl, hcall, rfl, t, ht, hhash, hf, hused⟩, u, hrun, hu⟩

end ResourceHive.Sessions
