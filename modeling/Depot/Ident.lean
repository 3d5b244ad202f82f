import Depot.Failure
import Depot.Text.Blank

/-!
# Names of files and requests

A name is one word. A file's name is also one component of a path, so it holds no slash and is not
one of the two directory names. Names read from records are taken as they are: only a name given
from outside is checked, by `parse`.

## Main statements

* `FileId.parse_text`, `RequestId.parse_text` — an accepted name is its own written form.
-/

namespace Depot

open Text

/-- The name of a file. -/
structure FileId where
  text : String
  deriving DecidableEq, Repr

/-- The name of a request for data. -/
structure RequestId where
  text : String
  deriving DecidableEq, Repr

namespace FileId

instance : Inhabited FileId := ⟨⟨""⟩⟩
instance : Ord FileId := ⟨compareOn FileId.text⟩
instance : Std.TransOrd FileId := inferInstanceAs (Std.TransCmp (compareOn FileId.text))

instance : Std.LawfulEqOrd FileId where
  compare_self := fun {a} => (Std.compare_eq_iff_eq.2 rfl : compare a.text a.text = .eq)
  eq_of_compare := fun {a b} h => by
    have htext : a.text = b.text := Std.compare_eq_iff_eq.1 (show compare a.text b.text = .eq from h)
    cases a; cases b; cases htext; rfl

/-- One word that is a component of a path. -/
def Valid (cs : List Char) : Prop :=
  cs ≠ [] ∧ (∀ c ∈ cs, isBlank c = false ∧ c ≠ '/') ∧ cs ≠ ['.'] ∧ cs ≠ ['.', '.']

instance (cs : List Char) : Decidable (Valid cs) :=
  @instDecidableAnd _ _ _ (@instDecidableAnd _ _ (List.decidableBAll _ cs) _)

/-- The name that a text gives to a file, blanks around it apart. -/
def parse (value : String) : Except Failure FileId :=
  if Valid (trim value.toList) then .ok ⟨String.ofList (trim value.toList)⟩
  else .error (.invalidFileId value)

end FileId

namespace RequestId

instance : Inhabited RequestId := ⟨⟨""⟩⟩
instance : Ord RequestId := ⟨compareOn RequestId.text⟩
instance : Std.TransOrd RequestId := inferInstanceAs (Std.TransCmp (compareOn RequestId.text))

instance : Std.LawfulEqOrd RequestId where
  compare_self := fun {a} => (Std.compare_eq_iff_eq.2 rfl : compare a.text a.text = .eq)
  eq_of_compare := fun {a b} h => by
    have htext : a.text = b.text := Std.compare_eq_iff_eq.1 (show compare a.text b.text = .eq from h)
    cases a; cases b; cases htext; rfl

/-- One word. -/
def Valid (cs : List Char) : Prop :=
  cs ≠ [] ∧ ∀ c ∈ cs, isBlank c = false

instance (cs : List Char) : Decidable (Valid cs) :=
  @instDecidableAnd _ _ _ (List.decidableBAll _ cs)

/-- The name that a text gives to a request, blanks around it apart. -/
def parse (value : String) : Except Failure RequestId :=
  if Valid (trim value.toList) then .ok ⟨String.ofList (trim value.toList)⟩
  else .error (.invalidRequestId value)

end RequestId

/-! ### Accepted names -/

/-- The written form of an accepted name is accepted, as the same name. -/
theorem FileId.parse_text {value : String} {id : FileId} (h : FileId.parse value = .ok id) :
    FileId.parse id.text = .ok id := by
  unfold FileId.parse at h ⊢
  split at h
  · rename_i hv
    obtain rfl := Except.ok.inj h
    have htrim : trim (trim value.toList) = trim value.toList :=
      trim_eq_self fun c hc => (hv.2.1 c hc).1
    simp [htrim, hv]
  · simp at h

/-- The written form of an accepted name is accepted, as the same name. -/
theorem RequestId.parse_text {value : String} {id : RequestId}
    (h : RequestId.parse value = .ok id) : RequestId.parse id.text = .ok id := by
  unfold RequestId.parse at h ⊢
  split at h
  · rename_i hv
    obtain rfl := Except.ok.inj h
    have htrim : trim (trim value.toList) = trim value.toList :=
      trim_eq_self fun c hc => hv.2 c hc
    simp [htrim, hv]
  · simp at h

end Depot
