import Mathlib.Data.Rat.Defs
import ResourceHive.Machinery.Text

/-!
# Machinery/Json — JSON values in a language that is not typed

A value read from JSON, or `undefined` (`none`), and the operations of JavaScript on it: a property
of `undefined` or `null` cannot be asked for, and a value is called only if it is a function, which
no JSON value is.  What a function throws is such a `TypeError` or an exception of its own
(`Exception`); `Throws` says that it is one of certain exceptions and never a `TypeError`, and goes
along with sequencing (`Throws.bind`).
-/

/-- A JSON value; of an object, its members. -/
inductive Json
  | null
  | bool (b : Bool)
  | num (n : ℚ)
  | str (s : String)
  | arr (elements : List Json)
  | obj (members : List (String × Json))

/-- What a function throws. -/
inductive Exception (ε : Type)
  | typeError
  | thrown (e : ε)
  deriving DecidableEq, Repr

namespace Json

/-- A member of an object; `none` for `undefined`. -/
def member? (key : String) : Json → Option Json
  | obj members => (members.find? (·.1 = key)).map (·.2)
  | _ => none

@[simp] theorem member?_nil (key : String) : member? key (obj []) = none := rfl

@[simp] theorem member?_cons (key : String) (m : String × Json) (members : List (String × Json)) :
    member? key (obj (m :: members)) = if m.1 = key then some m.2 else member? key (obj members) := by
  by_cases h : m.1 = key <;> simp [member?, h]

/-- `{ ...value }`, and `Object.keys` and `Object.values` of it. -/
def spread : Json → List (String × Json)
  | obj members => members
  | _ => []

/-- A copy of a value by its members. -/
@[simp] theorem member?_spread (key : String) (v : Json) :
    (obj v.spread).member? key = v.member? key := by
  cases v <;> rfl

mutual

/-- `String(value)`, given how a number is written.  An object has no `toString` but that of all
objects, or one that is not a function: then it throws (`none`). -/
def text (number : ℚ → String) : Json → Option String
  | null => some "null"
  | bool b => some (if b then "true" else "false")
  | num n => some (number n)
  | str s => some s
  | arr elements => (texts number elements).map (String.intercalate ",")
  | obj members => if members.any (·.1 = "toString") then none else some "[object Object]"

/-- …and the elements of an array that are joined, a `null` as nothing. -/
def texts (number : ℚ → String) : List Json → Option (List String)
  | [] => some []
  | null :: vs => (texts number vs).map ("" :: ·)
  | v :: vs => (text number v).bind fun t => (texts number vs).map (t :: ·)

end

end Json

/-! ## Operations on values

`none` stands for `undefined`. -/

def truthy : Option Json → Bool
  | none | some .null => false
  | some (.bool b) => b
  | some (.num n) => n ≠ 0
  | some (.str s) => s ≠ ""
  | some (.arr _) | some (.obj _) => true

/-- `value === s`. -/
def isText (s : String) : Option Json → Bool
  | some (.str t) => t = s
  | _ => false

/-- `value === n`. -/
def isNumber (n : ℚ) : Option Json → Bool
  | some (.num m) => m = n
  | _ => false

/-- `typeof value === "string" && p(value)`. -/
def isTextWith (p : String → Bool) : Option Json → Bool
  | some (.str s) => p s
  | _ => false

/-- The member of an enumeration whose name the value is. -/
def oneOf {κ : Type} (name : κ → String) (all : List κ) (value : Option Json) : Option κ :=
  all.find? fun k => isText (name k) value

section Throwing

variable {ε α β : Type}

/-- `value.key`. -/
def property (key : String) : Option Json → Except (Exception ε) (Option Json)
  | none | some .null => .error .typeError
  | some v => .ok (v.member? key)

/-- `value?.trim()`. -/
def optionalTrim : Option Json → Except (Exception ε) (Option String)
  | none | some .null => .ok none
  | some (.str s) => .ok (some (trim s))
  | some _ => .error .typeError

/-- `if (p) throw e`. -/
def refuse (p : Bool) (e : ε) : Except (Exception ε) Unit :=
  if p then .error (.thrown e) else .ok ()

/-- **Nothing is thrown but exceptions that satisfy `Q`**, and no operation of the language
fails. -/
def Throws (Q : ε → Prop) (x : Except (Exception ε) α) : Prop :=
  ∀ e, x = .error e → ∃ t, e = .thrown t ∧ Q t

variable {Q : ε → Prop}

theorem throws_ok (a : α) : Throws Q (.ok a : Except (Exception ε) α) := nofun

theorem throws_thrown {e : ε} (he : Q e) :
    Throws Q (.error (.thrown e) : Except (Exception ε) α) := by
  rintro _ ⟨⟩
  exact ⟨e, rfl, he⟩

theorem not_throws_typeError : ¬ Throws Q (.error .typeError : Except (Exception ε) α) := by
  intro h
  obtain ⟨t, ht, -⟩ := h _ rfl
  cases ht

theorem Throws.bind {x : Except (Exception ε) α} {f : α → Except (Exception ε) β} (hx : Throws Q x)
    (hf : ∀ a, x = .ok a → Throws Q (f a)) : Throws Q (x >>= f) := by
  cases x with
  | error e =>
    intro e' h
    obtain rfl : e = e' := Except.error.inj h
    exact hx e rfl
  | ok a => exact hf a rfl

theorem Throws.map {x : Except (Exception ε) α} (hx : Throws Q x) (f : α → β) :
    Throws Q (x.map f) := by
  cases x with
  | error e =>
    intro e' h
    obtain rfl : e = e' := Except.error.inj h
    exact hx e rfl
  | ok a => exact throws_ok _

theorem Throws.ite {p : Prop} [Decidable p] {x y : Except (Exception ε) α} (hx : p → Throws Q x)
    (hy : ¬ p → Throws Q y) : Throws Q (if p then x else y) := by
  split
  · next h => exact hx h
  · next h => exact hy h

theorem Throws.mono {Q' : ε → Prop} (h : ∀ e, Q e → Q' e) {x : Except (Exception ε) α}
    (hx : Throws Q x) : Throws Q' x := fun e he =>
  (hx e he).imp fun t ht => ⟨ht.1, h t ht.2⟩

theorem throws_refuse {p : Bool} {e : ε} (he : Q e) : Throws Q (refuse p e) :=
  Throws.ite (fun _ => throws_thrown he) fun _ => throws_ok _

/-- The elements of a list, one after the other. -/
theorem Throws.mapM {γ : Type} {f : γ → Except (Exception ε) α} :
    ∀ {l : List γ}, (∀ c ∈ l, Throws Q (f c)) → Throws Q (l.mapM f)
  | [], _ => throws_ok _
  | c :: l, h => by
      rw [List.mapM_cons]
      refine (h c (List.mem_cons_self ..)).bind fun a _ => ?_
      exact (Throws.mapM fun c' hc' => h c' (List.mem_cons_of_mem c hc')).bind fun _ _ =>
        throws_ok _

/-- A value that is not `null` can be asked for a property. -/
theorem property_some {v : Json} (hv : v ≠ .null) (key : String) :
    property (ε := ε) key (some v) = .ok (v.member? key) := by
  cases v with
  | null => exact absurd rfl hv
  | bool | num | str | arr | obj => rfl

@[simp] theorem property_obj (key : String) (members : List (String × Json)) :
    property (ε := ε) key (some (.obj members)) = .ok ((Json.obj members).member? key) := rfl

@[simp] theorem refuse_eq_ok {p : Bool} {e : ε} {u : Unit} :
    refuse p e = .ok u ↔ p = false := by
  cases p <;> simp [refuse]

end Throwing

@[simp] theorem ok_bind {ε α β : Type} (a : α) (f : α → Except ε β) :
    (Except.ok a >>= f) = f a := rfl

/-- A step that succeeds, and then another. -/
theorem bind_eq_ok {ε α β : Type} {x : Except ε α} {f : α → Except ε β} {b : β} :
    x >>= f = .ok b ↔ ∃ a, x = .ok a ∧ f a = .ok b := by
  cases x with
  | error e => exact ⟨nofun, nofun⟩
  | ok a => exact ⟨fun h => ⟨a, rfl, h⟩, fun ⟨_, ha, h⟩ => Except.ok.inj ha ▸ h⟩

theorem map_eq_ok {ε α β : Type} {x : Except ε α} {f : α → β} {b : β} :
    x.map f = .ok b ↔ ∃ a, x = .ok a ∧ f a = b := by
  cases x with
  | error e => exact ⟨nofun, nofun⟩
  | ok a => simp [Except.map]

/-- A list of which every element is dealt with. -/
theorem exists_mapM_eq_ok {ε α β : Type} {f : α → Except ε β} : ∀ {l : List α},
    (∃ bs, l.mapM f = .ok bs) ↔ ∀ a ∈ l, ∃ b, f a = .ok b
  | [] => ⟨fun _ => nofun, fun _ => ⟨[], rfl⟩⟩
  | a :: l => by
      rw [List.forall_mem_cons, ← exists_mapM_eq_ok (l := l)]
      constructor
      · rintro ⟨bs, h⟩
        rw [List.mapM_cons] at h
        obtain ⟨b, hb, h⟩ := bind_eq_ok.mp h
        obtain ⟨cs, hcs, -⟩ := bind_eq_ok.mp h
        exact ⟨⟨b, hb⟩, cs, hcs⟩
      · rintro ⟨⟨b, hb⟩, bs, hbs⟩
        exact ⟨b :: bs, by rw [List.mapM_cons, hb, ok_bind, hbs]; rfl⟩

/-- **What is returned, satisfies `Q`.** -/
def Returns {ε α : Type} (Q : α → Prop) (x : Except ε α) : Prop := ∀ a, x = .ok a → Q a

theorem returns_ok {ε α : Type} {Q : α → Prop} {a : α} (h : Q a) :
    Returns Q (.ok a : Except ε α) := by
  rintro _ ⟨⟩
  exact h

theorem Returns.bind {ε α β : Type} {Q : β → Prop} {x : Except ε α} {f : α → Except ε β}
    (h : ∀ a, x = .ok a → Returns Q (f a)) : Returns Q (x >>= f) := by
  intro b hb
  obtain ⟨a, ha, hb⟩ := bind_eq_ok.mp hb
  exact h a ha b hb

/-! ## Strings among the values -/

theorem isText_eq_true {s : String} {v : Option Json} : isText s v = true ↔ v = some (.str s) := by
  unfold isText
  split
  · simp
  · next h => exact ⟨nofun, fun hv => absurd hv (h s)⟩

theorem isNumber_eq_true {n : ℚ} {v : Option Json} : isNumber n v = true ↔ v = some (.num n) := by
  unfold isNumber
  split
  · simp
  · next h => exact ⟨nofun, fun hv => absurd hv (h n)⟩

theorem isTextWith_eq_true {p : String → Bool} {v : Option Json} :
    isTextWith p v = true ↔ ∃ s, v = some (.str s) ∧ p s = true := by
  unfold isTextWith
  split
  · simp
  · next h => exact ⟨nofun, fun ⟨s, hv, _⟩ => absurd hv (h s)⟩

theorem oneOf_eq_some {κ : Type} {name : κ → String} {all : List κ} {v : Option Json} {k : κ}
    (h : oneOf name all v = some k) : v = some (.str (name k)) := by
  have hk := List.find?_some h
  exact isText_eq_true.mp hk
