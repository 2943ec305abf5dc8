import Mathlib

/-!
# Machinery/Text — strings as JavaScript measures and trims them
-/

/-- What `String.prototype.trim` removes. -/
def isWhiteSpace (c : Char) : Bool :=
  c.toNat ∈ [9, 10, 11, 12, 13, 32, 160, 5760, 8232, 8233, 8239, 8287, 12288, 65279]
    || (8192 ≤ c.toNat && c.toNat ≤ 8202)

def trim (s : String) : String :=
  String.ofList ((s.toList.dropWhile isWhiteSpace).reverse.dropWhile isWhiteSpace).reverse

/-- `length`, in UTF-16 code units. -/
def utf16Length (s : String) : ℕ := (s.toList.map fun c => if c.toNat < 65536 then 1 else 2).sum

/-- `s.startsWith(start)`. -/
def startsWith (start s : String) : Bool := start.toList.isPrefixOf s.toList

@[simp] theorem utf16Length_append (s t : String) :
    utf16Length (s ++ t) = utf16Length s + utf16Length t := by
  simp [utf16Length]

/-- A string with a character that is not white space is not blank. -/
theorem trim_ne_empty {s : String} {c : Char} (hc : c ∈ s.toList) (hblack : isWhiteSpace c = false) :
    trim s ≠ "" := by
  have hkept {l : List Char} (hl : c ∈ l) : c ∈ l.dropWhile isWhiteSpace := by
    rw [← List.takeWhile_append_dropWhile (p := isWhiteSpace) (l := l), List.mem_append] at hl
    refine hl.resolve_left fun h => ?_
    rw [List.mem_takeWhile_imp h] at hblack
    cases hblack
  intro h
  have hmem := List.mem_reverse.mpr (hkept (List.mem_reverse.mpr (hkept hc)))
  rw [← String.toList_ofList (l := List.reverse _), ← trim, h] at hmem
  cases hmem
