import Mathlib.Data.List.DropRight
import Mathlib.Data.List.TakeWhile

/-!
# Machinery/Url — references that begin with a slash, as browsers resolve them

The URL parser of the WHATWG standard for a base with a special scheme other than `file` and a
reference that begins with a slash or a backslash: its states from *relative slash* on.  Parsing
hosts, and references of any other form, are parameters.

The path, the query and the fragment of a URL, written one after the other, are a reference again
(`Url.reference`).  Resolved, it stays on the origin of the base except when its path begins with an
empty segment and another one follows: then what follows the slashes is read as an authority
(`staysOn_reference_iff`).
-/

namespace Url

/-! ## Percent-encoding -/

def hexDigits : List Char := "0123456789ABCDEF".toList

/-- Percent-encode a byte. -/
def encodeByte (b : UInt8) : List Char :=
  ['%', hexDigits.getD (b.toNat / 16) '0', hexDigits.getD (b.toNat % 16) '0']

/-- UTF-8 percent-encode a code point using a percent-encode set. -/
def encodeChar (set : Char → Bool) (c : Char) : List Char :=
  if set c then (String.utf8EncodeChar c).flatMap encodeByte else [c]

def encode (set : Char → Bool) (cs : List Char) : List Char := cs.flatMap (encodeChar set)

/-- The C0 control percent-encode set. -/
def controlSet (c : Char) : Bool := c.toNat ≤ 0x1F || 0x7E < c.toNat

def fragmentSet (c : Char) : Bool := controlSet c || c ∈ [' ', '"', '<', '>', '`']

def querySet (c : Char) : Bool := controlSet c || c ∈ [' ', '"', '#', '<', '>']

def specialQuerySet (c : Char) : Bool := querySet c || c = '\''

def pathSet (c : Char) : Bool := querySet c || c ∈ ['?', '^', '`', '{', '}']

def userinfoSet (c : Char) : Bool :=
  pathSet c || c ∈ ['/', ':', ';', '=', '@', '[', '\\', ']', '|']

/-! ## URLs -/

/-- The special schemes other than `file`. -/
inductive Scheme
  | ftp
  | http
  | https
  | ws
  | wss
  deriving DecidableEq, Repr

def Scheme.defaultPort : Scheme → ℕ
  | ftp => 21
  | http | ws => 80
  | https | wss => 443

abbrev Segment := List Char

structure Authority where
  username : List Char := []
  password : List Char := []
  host : String
  port : Option ℕ := none
  deriving DecidableEq, Repr

end Url

structure Url where
  scheme : Url.Scheme
  authority : Url.Authority
  path : List Url.Segment := [[]]
  query : Option (List Char) := none
  fragment : Option (List Char) := none
  deriving DecidableEq, Repr

namespace Url

/-- **The origin of a URL**: what its serialization determines. -/
def origin (url : Url) : Scheme × String × Option ℕ :=
  (url.scheme, url.authority.host, url.authority.port)

/-- `pathname`. -/
def pathname (url : Url) : List Char := url.path.flatMap ('/' :: ·)

/-- A query or a fragment after its mark, if it is not empty. -/
def marked (mark : Char) : Option (List Char) → List Char
  | none | some [] => []
  | some (c :: cs) => mark :: c :: cs

/-- `search`. -/
def search (url : Url) : List Char := marked '?' url.query

/-- `hash`. -/
def hash (url : Url) : List Char := marked '#' url.fragment

/-- `pathname + search + hash`. -/
def reference (url : Url) : List Char := url.pathname ++ url.search ++ url.hash

/-- The rest of the standard: the parser of the hosts of special URLs, and the parser for references
that do not begin with a slash. -/
structure Standard where
  host : List Char → Option String
  other : Url → List Char → Option Url

/-! ## The parser -/

def isSlash (c : Char) : Bool := c = '/' || c = '\\'

/-- Where an authority ends. -/
def isTerminator (c : Char) : Bool := isSlash c || c = '?' || c = '#'

/-- A C0 control or a space. -/
def isControlOrSpace (c : Char) : Bool := c.toNat ≤ 0x20

def isTabOrNewline (c : Char) : Bool := c = '\t' || c = '\n' || c = '\r'

/-- The input without C0 controls and spaces at its ends, and without tabs and newlines. -/
def prepare (input : List Char) : List Char :=
  ((input.dropWhile isControlOrSpace).rdropWhile isControlOrSpace).filter (!isTabOrNewline ·)

/-- A single-dot path segment. -/
def isSingleDot (s : Segment) : Bool := s.map Char.toLower ∈ [".".toList, "%2e".toList]

/-- A double-dot path segment. -/
def isDoubleDot (s : Segment) : Bool :=
  s.map Char.toLower ∈ ["..".toList, ".%2e".toList, "%2e.".toList, "%2e%2e".toList]

/-- The end of a segment in the *path state*; `last` where no slash follows. -/
def endSegment (path : List Segment) (buffer : Segment) (last : Bool) : List Segment :=
  if isDoubleDot buffer then path.dropLast ++ if last then [[]] else []
  else if isSingleDot buffer then path ++ if last then [[]] else []
  else path ++ [buffer]

/-- The *path state*: the path, and what follows it. -/
def pathState (path : List Segment) (buffer : Segment) : List Char → List Segment × List Char
  | [] => (endSegment path buffer true, [])
  | c :: cs =>
    if c = '?' ∨ c = '#' then (endSegment path buffer true, c :: cs)
    else if isSlash c then pathState (endSegment path buffer false) [] cs
    else pathState path (buffer ++ encodeChar pathSet c) cs

/-- The *fragment state*, from its mark. -/
def fragmentState : List Char → Option (List Char)
  | '#' :: cs => some (encode fragmentSet cs)
  | _ => none

/-- The *query state*, from its mark. -/
def queryState : List Char → Option (List Char)
  | '?' :: cs => some (encode specialQuerySet (cs.takeWhile (· ≠ '#')))
  | _ => none

/-- The *port state*. -/
def portState (scheme : Scheme) (digits : List Char) : Option (Option ℕ) :=
  if digits = [] then some none
  else if digits.all Char.isDigit then
    let port := digits.foldl (fun n c => n * 10 + (c.toNat - '0'.toNat)) 0
    if 65535 < port then none
    else some (if port = scheme.defaultPort then none else some port)
  else none

/-- A host and what follows its colon, which is none between brackets. -/
def splitPort (bracketed : Bool) (host : List Char) : List Char → List Char × Option (List Char)
  | [] => (host, none)
  | ':' :: cs => if bracketed then splitPort bracketed (host ++ [':']) cs else (host, some cs)
  | c :: cs =>
    splitPort (if c = '[' then true else if c = ']' then false else bracketed) (host ++ [c]) cs

variable (S : Standard)

/-- The *authority*, *host* and *port states*, on the text before the next terminator. -/
def authorityState (scheme : Scheme) (text : List Char) : Option Authority :=
  let credentials := (text.rdropWhile (· ≠ '@')).dropLast
  let (host, port) := splitPort false [] (text.rtakeWhile (· ≠ '@'))
  if host = [] then none
  else
    (S.host host).bind fun name =>
      (portState scheme (port.getD [])).map fun port =>
        { username := encode userinfoSet (credentials.takeWhile (· ≠ ':'))
          password := encode userinfoSet ((credentials.dropWhile (· ≠ ':')).drop 1)
          host := name
          port }

/-- What follows the first slash of a reference: the text of an authority, after a second slash and
any more (the states *relative slash* and *special authority ignore slashes*), and where the path
starts (*path start*). -/
def readSlash : List Char → Option (List Char) × List Char
  | [] => (none, [])
  | c :: cs =>
    if isSlash c then
      let text := cs.dropWhile isSlash
      let path := text.dropWhile (!isTerminator ·)
      (some (text.takeWhile (!isTerminator ·)), if path.head?.any isSlash then path.tail else path)
    else (none, c :: cs)

/-- A reference, after its first slash. -/
def resolveSlash (base : Url) (cs : List Char) : Option Url :=
  let (text, start) := readSlash cs
  let (path, rest) := pathState [] [] start
  (text.elim (some base.authority) (authorityState S base.scheme)).map fun authority =>
    { scheme := base.scheme
      authority
      path
      query := queryState rest
      fragment := fragmentState (rest.dropWhile (· ≠ '#')) }

/-- **`new URL(input, base)`**; `none` where it throws. -/
def resolve (base : Url) (input : List Char) : Option Url :=
  match prepare input with
  | [] => S.other base input
  | c :: cs => if isSlash c then resolveSlash S base cs else S.other base input

/-! ## What is written in a URL -/

/-- A character that belongs to a segment wherever it stands in a path. -/
def inSegment (c : Char) : Bool := !isControlOrSpace c && !isTerminator c

theorem inSegment_hexDigit (n : ℕ) : inSegment (hexDigits.getD n '0') = true := by
  have hall : hexDigits.all inSegment = true := by decide
  rw [List.getD_eq_getElem?_getD]
  cases h : hexDigits[n]? with
  | none => decide
  | some c => exact List.all_eq_true.mp hall c (List.mem_of_getElem? h)

theorem inSegment_encodeByte {b : UInt8} {c : Char} (h : c ∈ encodeByte b) :
    inSegment c = true := by
  simp only [encodeByte, List.mem_cons, List.not_mem_nil, or_false] at h
  rcases h with rfl | rfl | rfl
  · decide
  · exact inSegment_hexDigit _
  · exact inSegment_hexDigit _

/-- What is written for a code point: escapes, or the code point itself. -/
theorem mem_encodeChar {set : Char → Bool} {c d : Char} (h : d ∈ encodeChar set c) :
    inSegment d = true ∨ d = c ∧ set c = false := by
  unfold encodeChar at h
  split at h
  · obtain ⟨b, -, hd⟩ := List.mem_flatMap.mp h
    exact .inl (inSegment_encodeByte hd)
  · next hset => exact .inr ⟨List.mem_singleton.mp h, by simpa using hset⟩

theorem not_control {c : Char} (hcontrol : controlSet c = false) (hspace : c ≠ ' ') :
    isControlOrSpace c = false := by
  simp only [controlSet, Bool.or_eq_false_iff, decide_eq_false_iff_not] at hcontrol
  simp only [isControlOrSpace, decide_eq_false_iff_not]
  have hne : c.toNat ≠ ' '.toNat := fun h => hspace (Char.toNat_inj.mp h)
  have hs : ' '.toNat = 32 := rfl
  omega

theorem not_control_of_fragmentSet {c : Char} (h : fragmentSet c = false) :
    isControlOrSpace c = false := by
  simp only [fragmentSet, Bool.or_eq_false_iff, decide_eq_false_iff_not, List.mem_cons, not_or] at h
  exact not_control h.1 h.2.1

theorem not_control_of_querySet {c : Char} (h : querySet c = false) :
    isControlOrSpace c = false := by
  simp only [querySet, Bool.or_eq_false_iff, decide_eq_false_iff_not, List.mem_cons, not_or] at h
  exact not_control h.1 h.2.1

theorem not_control_of_pathSet {c : Char} (h : pathSet c = false) : isControlOrSpace c = false := by
  simp only [pathSet, Bool.or_eq_false_iff] at h
  exact not_control_of_querySet h.1

theorem not_control_of_specialQuerySet {c : Char} (h : specialQuerySet c = false) :
    isControlOrSpace c = false := by
  simp only [specialQuerySet, Bool.or_eq_false_iff] at h
  exact not_control_of_querySet h.1

theorem visible_encode {set : Char → Bool} (hset : ∀ c, set c = false → isControlOrSpace c = false)
    {cs : List Char} {d : Char} (h : d ∈ encode set cs) : isControlOrSpace d = false := by
  obtain ⟨c, -, hd⟩ := List.mem_flatMap.mp h
  rcases mem_encodeChar hd with hd | ⟨rfl, hd⟩
  · simp only [inSegment, Bool.and_eq_true, Bool.not_eq_true'] at hd
    exact hd.1
  · exact hset _ hd

/-- **What is in the path of a URL.** -/
def WellFormedPath (path : List Segment) : Prop := ∀ s ∈ path, ∀ c ∈ s, inSegment c = true

theorem wellFormedPath_endSegment {path : List Segment} {buffer : Segment} (h : WellFormedPath path)
    (hbuffer : ∀ c ∈ buffer, inSegment c = true) (last : Bool) :
    WellFormedPath (endSegment path buffer last) := by
  have hend : WellFormedPath (if last then [[]] else []) := by
    cases last <;> simp [WellFormedPath]
  have happend {p q : List Segment} (hp : WellFormedPath p) (hq : WellFormedPath q) :
      WellFormedPath (p ++ q) := fun s hs =>
    (List.mem_append.mp hs).elim (hp s) (hq s)
  rw [endSegment]
  split
  · exact happend (fun s hs => h s ((List.dropLast_sublist path).mem hs)) hend
  · split
    · exact happend h hend
    · exact happend h (List.forall_mem_singleton.mpr hbuffer)

theorem wellFormedPath_pathState : ∀ {cs : List Char} {path : List Segment} {buffer : Segment},
    WellFormedPath path → (∀ c ∈ buffer, inSegment c = true) →
      WellFormedPath (pathState path buffer cs).1
  | [], path, buffer, h, hbuffer => wellFormedPath_endSegment h hbuffer true
  | c :: cs, path, buffer, h, hbuffer => by
      rw [pathState]
      split_ifs with hmark hslash
      · exact wellFormedPath_endSegment h hbuffer true
      · exact wellFormedPath_pathState (wellFormedPath_endSegment h hbuffer false) nofun
      · refine wellFormedPath_pathState h fun d hd => ?_
        rcases List.mem_append.mp hd with hd | hd
        · exact hbuffer d hd
        · rcases mem_encodeChar hd with hd | ⟨rfl, hset⟩
          · exact hd
          · have hterminator : isTerminator d = false := by
              simpa [isTerminator, not_or, hslash] using hmark
            rw [inSegment, hterminator, not_control_of_pathSet hset]
            rfl

/-- The *path state* leaves a path. -/
theorem endSegment_ne_nil (path : List Segment) (buffer : Segment) :
    endSegment path buffer true ≠ [] := by
  rw [endSegment]
  split
  · simp
  · split <;> simp

theorem pathState_ne_nil : ∀ (cs : List Char) (path : List Segment) (buffer : Segment),
    (pathState path buffer cs).1 ≠ []
  | [], path, buffer => endSegment_ne_nil path buffer
  | c :: cs, path, buffer => by
      rw [pathState]
      split_ifs
      · exact endSegment_ne_nil path buffer
      · exact pathState_ne_nil cs _ _
      · exact pathState_ne_nil cs _ _

/-- **A URL that the parser makes.** -/
structure WellFormed (url : Url) : Prop where
  path_ne_nil : url.path ≠ []
  path : WellFormedPath url.path
  query : ∀ q, url.query = some q → ∀ c ∈ q, isControlOrSpace c = false
  fragment : ∀ f, url.fragment = some f → ∀ c ∈ f, isControlOrSpace c = false

theorem visible_queryState {cs q : List Char} (h : queryState cs = some q) :
    ∀ c ∈ q, isControlOrSpace c = false := by
  unfold queryState at h
  split at h
  · obtain rfl := Option.some.inj h
    exact fun c hc => visible_encode (fun _ => not_control_of_specialQuerySet) hc
  · cases h

theorem visible_fragmentState {cs f : List Char} (h : fragmentState cs = some f) :
    ∀ c ∈ f, isControlOrSpace c = false := by
  unfold fragmentState at h
  split at h
  · obtain rfl := Option.some.inj h
    exact fun c hc => visible_encode (fun _ => not_control_of_fragmentSet) hc
  · cases h

theorem wellFormed_resolveSlash {S : Standard} {base url : Url} {cs : List Char}
    (h : resolveSlash S base cs = some url) : WellFormed url := by
  obtain ⟨authority, -, rfl⟩ := Option.map_eq_some_iff.mp h
  exact
    { path_ne_nil := pathState_ne_nil _ _ _
      path := wellFormedPath_pathState nofun nofun
      query := fun q hq => visible_queryState hq
      fragment := fun f hf => visible_fragmentState hf }

/-! ## A reference made of a URL -/

theorem prepare_eq_self {cs : List Char} (h : ∀ c ∈ cs, isControlOrSpace c = false) :
    prepare cs = cs := by
  have hdrop : cs.dropWhile isControlOrSpace = cs := by
    cases cs with
    | nil => rfl
    | cons c cs => exact List.dropWhile_cons_of_neg (by simp [h c (List.mem_cons_self ..)])
  have hrdrop : cs.rdropWhile isControlOrSpace = cs :=
    List.rdropWhile_eq_self_iff.mpr fun hne => by simp [h _ (List.getLast_mem hne)]
  rw [prepare, hdrop, hrdrop, List.filter_eq_self]
  intro c hc
  have hvisible := h c hc
  have hne {d : Char} (hd : isControlOrSpace d = true) : c ≠ d := by
    rintro rfl
    rw [hvisible] at hd
    cases hd
  have htab : c ≠ '\t' := hne (by decide)
  have hnewline : c ≠ '\n' := hne (by decide)
  have hreturn : c ≠ '\r' := hne (by decide)
  simp [isTabOrNewline, htab, hnewline, hreturn]

theorem mem_marked {mark c : Char} {o : Option (List Char)} (h : c ∈ marked mark o) :
    c = mark ∨ ∃ cs, o = some cs ∧ c ∈ cs := by
  match o with
  | none | some [] => cases h
  | some (d :: cs) => exact (List.mem_cons.mp h).imp_right fun h => ⟨_, rfl, h⟩

theorem WellFormed.visible_reference {url : Url} (h : WellFormed url) :
    ∀ c ∈ url.reference, isControlOrSpace c = false := by
  intro c hc
  rw [reference, List.mem_append, List.mem_append] at hc
  rcases hc with (hc | hc) | hc
  · obtain ⟨s, hs, hc⟩ := List.mem_flatMap.mp hc
    rcases List.mem_cons.mp hc with rfl | hc
    · decide
    · have hin := h.path s hs c hc
      simp only [inSegment, Bool.and_eq_true, Bool.not_eq_true'] at hin
      exact hin.1
  · rcases mem_marked hc with rfl | ⟨q, hq, hc⟩
    · decide
    · exact h.query q hq c hc
  · rcases mem_marked hc with rfl | ⟨f, hf, hc⟩
    · decide
    · exact h.fragment f hf c hc

/-- The authority that a path is read as having, when it comes after the first slash of a
reference. -/
def strayAuthority : List Segment → Option (List Char)
  | [] :: s :: path => some (((s :: path).find? (· ≠ [])).getD [])
  | _ => none

/-- What may follow a path. -/
def EndsPath (cs : List Char) : Prop := ∀ c ∈ cs.head?, c = '?' ∨ c = '#'

theorem endsPath_search_hash (url : Url) : EndsPath (url.search ++ url.hash) := by
  rw [search, hash]
  match url.query, url.fragment with
  | some (d :: cs), _ => exact fun c hc => .inl (Option.some.inj hc).symm
  | none, none | none, some [] | some [], none | some [], some [] => exact nofun
  | none, some (d :: cs) | some [], some (d :: cs) =>
    exact fun c hc => .inr (Option.some.inj hc).symm

theorem takeWhile_endsPath {tail : List Char} (h : EndsPath tail) :
    tail.takeWhile (!isTerminator ·) = [] ∧ tail.dropWhile isSlash = tail := by
  cases tail with
  | nil => exact ⟨rfl, rfl⟩
  | cons c cs => rcases h c rfl with rfl | rfl <;> exact ⟨rfl, rfl⟩

theorem not_slash_of_inSegment {c : Char} (h : inSegment c = true) : isSlash c = false := by
  simp only [inSegment, isTerminator, Bool.and_eq_true, Bool.not_eq_true',
    Bool.or_eq_false_iff] at h
  exact h.2.1.1

/-- After the slashes, the first segment that is not empty. -/
theorem takeWhile_dropWhile_slashes {tail : List Char} (htail : EndsPath tail) :
    ∀ (path : List Segment) (s : Segment), WellFormedPath (s :: path) →
      ((s ++ (path.flatMap ('/' :: ·) ++ tail)).dropWhile isSlash).takeWhile (!isTerminator ·) =
        ((s :: path).find? (· ≠ [])).getD []
  | path, c :: s, h => by
      have hs := h (c :: s) (List.mem_cons_self ..)
      have hslash : isSlash c = false := not_slash_of_inSegment (hs c (List.mem_cons_self ..))
      have hsegment : ∀ d ∈ c :: s, (!isTerminator d) = true := fun d hd => by
        have hin := hs d hd
        rw [inSegment, Bool.and_eq_true] at hin
        exact hin.2
      have hrest : (path.flatMap ('/' :: ·) ++ tail).takeWhile (!isTerminator ·) = [] := by
        cases path with
        | nil => exact (takeWhile_endsPath htail).1
        | cons t path => rfl
      rw [List.cons_append, List.dropWhile_cons_of_neg (by simp [hslash]), ← List.cons_append,
        List.takeWhile_append_of_pos hsegment, hrest]
      simp
  | [], [], _ => by
      obtain ⟨htake, hdrop⟩ := takeWhile_endsPath htail
      simp [hdrop, htake]
  | t :: path, [], h => by
      have ih := takeWhile_dropWhile_slashes htail path t
        fun s hs => h s (List.mem_cons_of_mem _ hs)
      have hslash : isSlash '/' = true := rfl
      rw [List.nil_append, List.flatMap_cons, List.cons_append, List.cons_append,
        List.dropWhile_cons_of_pos hslash, List.append_assoc, ih]
      simp

/-- **How a path is read after the first slash.** -/
theorem readSlash_reference {url : Url} (h : WellFormed url) :
    ∃ cs, url.reference = '/' :: cs ∧ (readSlash cs).1 = strayAuthority url.path := by
  have htail := endsPath_search_hash url
  have hpath := h.path
  rw [reference, pathname, List.append_assoc]
  match hurl : url.path, h.path_ne_nil with
  | s :: path, _ =>
    rw [hurl] at hpath
    refine ⟨s ++ (path.flatMap ('/' :: ·) ++ (url.search ++ url.hash)), by simp, ?_⟩
    match s, path with
    | c :: s, path =>
      have hslash := not_slash_of_inSegment
        (hpath (c :: s) (List.mem_cons_self ..) c (List.mem_cons_self ..))
      rw [List.cons_append, readSlash, if_neg (by simp [hslash])]
      rfl
    | [], [] =>
      cases hcs : url.search ++ url.hash with
      | nil => rfl
      | cons c cs =>
        rw [hcs] at htail
        rcases htail c rfl with rfl | rfl <;> rfl
    | [], t :: path =>
      have htake := takeWhile_dropWhile_slashes htail path t
        fun s hs => hpath s (List.mem_cons_of_mem _ hs)
      have hslash : isSlash '/' = true := rfl
      rw [List.nil_append, List.flatMap_cons, List.cons_append, List.cons_append,
        readSlash, if_pos hslash, List.append_assoc]
      exact congrArg some htake

/-- **The text of an authority names the host and the port of a URL.** -/
def Names (base : Url) (text : Option (List Char)) : Prop :=
  ∀ t, text = some t → ∃ authority, authorityState S base.scheme t = some authority ∧
    authority.host = base.authority.host ∧ authority.port = base.authority.port

/-- **A reference is resolved, and stays on the origin of the base.** -/
def StaysOn (base : Url) (input : List Char) : Prop :=
  ∃ url, resolve S base input = some url ∧ url.origin = base.origin

/-- The authority of a reference that begins with a slash, and the segments of its path. -/
def referenceAuthority (input : List Char) : Option (List Char) :=
  (readSlash (prepare input).tail).1

def referencePath (input : List Char) : List Segment :=
  (pathState [] [] (readSlash (prepare input).tail).2).1

theorem staysOn_iff {base : Url} {input : List Char}
    (h : (prepare input).head?.any isSlash = true) :
    StaysOn S base input ↔ Names S base (referenceAuthority input) := by
  rw [StaysOn, referenceAuthority, resolve]
  match hprepare : prepare input, h with
  | c :: cs, h =>
    have hslash : isSlash c = true := h
    simp only [hslash, if_true, List.tail_cons, resolveSlash]
    cases htext : (readSlash cs).1 with
    | none => exact ⟨fun _ => nofun, fun _ => ⟨_, rfl, rfl⟩⟩
    | some text =>
      constructor
      · rintro ⟨url, hurl, horigin⟩ t ht
        obtain rfl := Option.some.inj ht
        obtain ⟨authority, hauthority, rfl⟩ := Option.map_eq_some_iff.mp hurl
        simp only [origin, Prod.mk.injEq, true_and] at horigin
        exact ⟨authority, hauthority, horigin⟩
      · intro hnames
        obtain ⟨authority, hauthority, hhost, hport⟩ := hnames text rfl
        refine ⟨_, Option.map_eq_some_iff.mpr ⟨authority, hauthority, rfl⟩, ?_⟩
        simp only [origin, hhost, hport]

/-- **The reference that a URL makes, resolved again.** -/
theorem staysOn_reference_iff {base url : Url} (h : WellFormed url) :
    StaysOn S base url.reference ↔ Names S base (strayAuthority url.path) := by
  obtain ⟨cs, hcs, hauthority⟩ := readSlash_reference h
  have hprepare := prepare_eq_self h.visible_reference
  rw [staysOn_iff S (by rw [hprepare, hcs]; rfl), referenceAuthority, hprepare, hcs, List.tail_cons,
    hauthority]

/-- What a URL is that a reference is resolved to. -/
theorem path_of_resolve {base url : Url} {input : List Char}
    (hslash : (prepare input).head?.any isSlash = true) (h : resolve S base input = some url) :
    WellFormed url ∧ url.path = referencePath input := by
  rw [resolve] at h
  rw [referencePath]
  match hprepare : prepare input, hslash with
  | c :: cs, hslash =>
    have hslash : isSlash c = true := hslash
    simp only [hprepare, hslash, if_true] at h
    refine ⟨wellFormed_resolveSlash h, ?_⟩
    obtain ⟨authority, -, rfl⟩ := Option.map_eq_some_iff.mp h
    rfl

/-- A slash at the beginning is not taken away. -/
theorem head?_prepare {cs : List Char} : (prepare ('/' :: cs)).head?.any isSlash = true := by
  have hdrop : ('/' :: cs).dropWhile isControlOrSpace = '/' :: cs := rfl
  have hprefix := List.rdropWhile_prefix isControlOrSpace ('/' :: cs)
  rw [prepare, hdrop]
  cases hrest : ('/' :: cs).rdropWhile isControlOrSpace with
  | nil => exact absurd (List.rdropWhile_eq_nil_iff.mp hrest '/' (List.mem_cons_self ..)) (by decide)
  | cons c rest =>
    rw [hrest, List.cons_prefix_cons] at hprefix
    obtain ⟨rfl, -⟩ := hprefix
    rfl

end Url
