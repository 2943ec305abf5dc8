import ResourceHive.Machinery.Text
import ResourceHive.Machinery.Url

/-!
# Sessions/Redirects — where a sign-in leads back to

`AuthService.safeNext`, `AuthController.frontendRedirect` and `getSafeRedirectPath` of the login
page.  A `next` that stays on the application's origin is given back as the path, the query and the
fragment of the URL it is resolved to, and these are resolved a second time.  A path may then begin
with two slashes, and what follows them becomes a host.
-/

namespace ResourceHive.Sessions

open Url (StaysOn Names referenceAuthority referencePath strayAuthority)

variable (S : Url.Standard)

/-- The path, the query and the fragment that a value resolves to, if that is on the origin of the
base. -/
def sameOriginPath (base : Url) (value : String) : String :=
  match Url.resolve S base value.toList with
  | some parsed =>
    if parsed.origin = base.origin then String.ofList parsed.reference else "/dashboard"
  | none => "/dashboard"

/-- **`safeNext`**, with the URL that `APP_URL` is. -/
def safeNext (app : Url) : Option String → String
  | none => "/dashboard"
  | some next =>
    if next = "" || !startsWith "/" next || startsWith "//" next then "/dashboard"
    else sameOriginPath S app next

/-- **`frontendRedirect`**; `none` where it throws. -/
def frontendRedirect (app : Url) (path : String) : Option Url := Url.resolve S app path.toList

/-- A query parameter of a page. -/
inductive SearchParam
  | undefined
  | one (value : String)
  | many (values : List String)
  deriving DecidableEq, Repr

/-- `applicationOrigin`. -/
def applicationOrigin : Url where
  scheme := .https
  authority := { host := "app.resourcehive.local" }

/-- **`getSafeRedirectPath`.** -/
def getSafeRedirectPath : SearchParam → String
  | .undefined | .many _ => "/dashboard"
  | .one value =>
    if !startsWith "/" value then "/dashboard" else sameOriginPath S applicationOrigin value

/-! ## The second resolution -/

/-- **A path leads back**: resolved against the URL of the application, it stays on its origin. -/
def LeadsBack (app : Url) (path : String) : Prop := StaysOn S app path.toList

variable {S} {app base : Url}

theorem leadsBack_dashboard : LeadsBack S app "/dashboard" := by
  rw [LeadsBack, Url.staysOn_iff S (by decide)]
  exact nofun

theorem startsWith_slash {value : String} (h : startsWith "/" value = true) :
    (Url.prepare value.toList).head?.any Url.isSlash = true := by
  rw [startsWith] at h
  cases hvalue : value.toList with
  | nil => simp [hvalue] at h
  | cons c cs =>
    obtain rfl : '/' = c := by simpa [hvalue] using h
    exact Url.head?_prepare

/-- **What `sameOriginPath` gives back leads back**, unless it takes the value and the path of the
value names another authority. -/
theorem leadsBack_sameOriginPath {value : String} (h : startsWith "/" value = true) :
    LeadsBack S app (sameOriginPath S base value) ↔
      (Names S base (referenceAuthority value.toList) →
        Names S app (strayAuthority (referencePath value.toList))) := by
  have hslash := startsWith_slash h
  rw [← Url.staysOn_iff S hslash, sameOriginPath]
  cases hparsed : Url.resolve S base value.toList with
  | none =>
    refine ⟨fun _ ⟨url, hurl, _⟩ => ?_, fun _ => leadsBack_dashboard⟩
    rw [hparsed] at hurl
    cases hurl
  | some parsed =>
    obtain ⟨hwf, hpath⟩ := Url.path_of_resolve S hslash hparsed
    by_cases horigin : parsed.origin = base.origin
    · simp only [horigin, if_true]
      rw [LeadsBack, String.toList_ofList, Url.staysOn_reference_iff S hwf, hpath]
      exact ⟨fun hnames _ => hnames, fun hnames => hnames ⟨parsed, hparsed, horigin⟩⟩
    · simp only [horigin, if_false]
      refine ⟨fun _ ⟨url, hurl, hsame⟩ => ?_, fun _ => leadsBack_dashboard⟩
      rw [hparsed] at hurl
      obtain rfl := Option.some.inj hurl
      exact absurd hsame horigin

/-- **Redirect safety**: exactly when a path that is given back leads back to the application. -/
theorem redirect_safety_iff (S : Url.Standard) (app : Url) :
    (∀ next, LeadsBack S app (safeNext S app (some next)) ↔
      (startsWith "/" next = true → startsWith "//" next = false →
        Names S app (referenceAuthority next.toList) →
          Names S app (strayAuthority (referencePath next.toList)))) ∧
    ∀ value, LeadsBack S app (getSafeRedirectPath S (.one value)) ↔
      (startsWith "/" value = true → Names S applicationOrigin (referenceAuthority value.toList) →
        Names S app (strayAuthority (referencePath value.toList))) := by
  constructor
  · intro next
    rw [safeNext]
    cases h : startsWith "/" next with
    | false => exact ⟨fun _ => nofun, fun _ => by simpa using leadsBack_dashboard⟩
    | true =>
      have hne : next ≠ "" := by
        rintro rfl
        cases h
      cases hdouble : startsWith "//" next with
      | true => exact ⟨fun _ _ => nofun, fun _ => by simpa using leadsBack_dashboard⟩
      | false =>
        have htaken : (decide (next = "") || !true || false) = false := by simp [hne]
        rw [if_neg (by rw [htaken]; exact Bool.false_ne_true), leadsBack_sameOriginPath h]
        exact ⟨fun hnames _ _ => hnames, fun hnames => hnames rfl rfl⟩
  · intro value
    rw [getSafeRedirectPath]
    cases h : startsWith "/" value with
    | false => exact ⟨fun _ => nofun, fun _ => leadsBack_dashboard⟩
    | true =>
      rw [Bool.not_true, if_neg Bool.false_ne_true, leadsBack_sameOriginPath h]
      exact ⟨fun hnames _ => hnames, fun hnames => hnames rfl⟩

/-- Hosts that are names, of which the letters are written small. -/
def Standard.sample : Url.Standard where
  host text := some (String.ofList (text.map Char.toLower))
  other _ _ := none

/-- `APP_URL` by default. -/
def localhost : Url where
  scheme := .http
  authority := { host := "localhost", port := some 3000 }

/-- **`/.//evil.com` leads to `evil.com`**, whichever function lets it through. -/
theorem leads_away :
    safeNext Standard.sample localhost (some "/.//evil.com") = "//evil.com" ∧
      (frontendRedirect Standard.sample localhost "//evil.com").map Url.origin =
        some (.http, "evil.com", none) ∧
      ¬ LeadsBack Standard.sample localhost
        (safeNext Standard.sample localhost (some "/.//evil.com")) ∧
      getSafeRedirectPath Standard.sample (.one "/.//evil.com") = "//evil.com" ∧
      ¬ LeadsBack Standard.sample localhost
        (getSafeRedirectPath Standard.sample (.one "/.//evil.com")) := by
  have hnext : safeNext Standard.sample localhost (some "/.//evil.com") = "//evil.com" := by
    decide +kernel
  have hvalue : getSafeRedirectPath Standard.sample (.one "/.//evil.com") = "//evil.com" := by
    decide +kernel
  have horigin : (frontendRedirect Standard.sample localhost "//evil.com").map Url.origin =
      some (.http, "evil.com", none) := by decide +kernel
  have haway : ¬ LeadsBack Standard.sample localhost "//evil.com" := by
    rintro ⟨url, hurl, hsame⟩
    rw [frontendRedirect, hurl, Option.map_some, hsame] at horigin
    revert horigin
    decide
  exact ⟨hnext, horigin, hnext ▸ haway, hvalue, hvalue ▸ haway⟩

end ResourceHive.Sessions
