import Runbook.Http.Client
import Runbook.Proofs.Entries

/-! Header fields as they are sent.

Fields are sent under their names in small letters, and those of one name are joined in order
(`get?_of_sentFields`). They are sent unless a name or a value has a character beyond ASCII. -/
namespace Runbook.Http

/-- Whether a header field can be sent. -/
def IsAscii (s : String) : Prop := ∀ c ∈ s.toList, c.toNat < 128

instance (s : String) : Decidable (IsAscii s) :=
  decidable_of_iff (s.toList.all (·.toNat < 128) = true) <| by
    simp only [List.all_eq_true, decide_eq_true_eq, IsAscii]

theorem sentFields_isOk (fields : List (String × String)) :
    (∃ sent, sentFields fields = .ok sent) ↔ ∀ f ∈ fields, IsAscii f.1 ∧ IsAscii f.2 := by
  have ascii : (fields.all fun f => (f.1 ++ f.2).toList.all (·.toNat < 128)) = true ↔
      ∀ f ∈ fields, IsAscii f.1 ∧ IsAscii f.2 := by
    simp only [List.all_eq_true, String.toList_append, List.all_append, Bool.and_eq_true,
      decide_eq_true_eq, IsAscii]
  rw [← ascii]
  unfold sentFields
  constructor
  · rintro ⟨sent, h⟩
    split at h
    · assumption
    · cases h
  · exact fun all => ⟨_, if_pos all⟩

/-- The values of the fields of a name, in whatever case it is written. -/
def valuesOf (name : String) (fields : List (String × String)) : List String :=
  (fields.filter (Text.lowered ·.1 == name)).map (·.2)

/-- One field more among those to be sent. -/
def addField (sent : List (String × String)) (f : String × String) : List (String × String) :=
  match Entries.get? (Text.lowered f.1) sent with
  | some before => Entries.insert (Text.lowered f.1) (before ++ ", " ++ f.2) sent
  | none => sent ++ [(Text.lowered f.1, f.2)]

/-- A value behind those before it. -/
def joinTo (before : Option String) (v : String) : Option String :=
  some (match before with
    | some before => before ++ ", " ++ v
    | none => v)

theorem get?_addField (name : String) (sent : List (String × String)) (f : String × String) :
    Entries.get? name (addField sent f) =
      if Text.lowered f.1 == name then joinTo (Entries.get? name sent) f.2
      else Entries.get? name sent := by
  unfold addField
  by_cases same : Text.lowered f.1 = name
  · subst same
    rw [beq_self_eq_true, if_pos rfl]
    split
    · rename_i before there
      rw [Entries.get?_insert_self, there, joinTo]
    · rename_i free
      rw [Entries.get?_append, free]
      simp [Entries.get?, joinTo]
  · rw [beq_eq_false_iff_ne.mpr same, if_neg Bool.false_ne_true]
    split
    · rw [Entries.get?_insert_of_ne _ _ (Ne.symm same)]
    · rw [Entries.get?_append]
      simp [Entries.get?, same]

theorem get?_foldl_addField (name : String) (fields sent : List (String × String)) :
    Entries.get? name (fields.foldl addField sent) =
      (valuesOf name fields).foldl joinTo (Entries.get? name sent) := by
  induction fields generalizing sent with
  | nil => rfl
  | cons f fields ih =>
    rw [List.foldl_cons, ih, get?_addField]
    cases same : Text.lowered f.1 == name with
    | true =>
      have values : valuesOf name (f :: fields) = f.2 :: valuesOf name fields := by
        simp [valuesOf, same]
      rw [values, if_pos rfl, List.foldl_cons]
    | false =>
      have values : valuesOf name (f :: fields) = valuesOf name fields := by
        simp [valuesOf, same]
      rw [values, if_neg Bool.false_ne_true]

theorem foldl_joinTo (v : String) (vs : List String) :
    vs.foldl joinTo (some v) = some (", ".intercalate (v :: vs)) := by
  induction vs generalizing v with
  | nil => rfl
  | cons w vs ih =>
    rw [List.foldl_cons, joinTo, ih]
    rfl

/-- What is sent under a name is what the fields of that name are, joined. -/
theorem get?_of_sentFields {fields sent : List (String × String)} (h : sentFields fields = .ok sent)
    {name v : String} {vs : List String} (values : valuesOf name fields = v :: vs) :
    Entries.get? name sent = some (", ".intercalate (v :: vs)) := by
  unfold sentFields at h
  split at h
  · rw [← Except.ok.inj h]
    show Entries.get? name (fields.foldl addField []) = _
    rw [get?_foldl_addField, values]
    exact foldl_joinTo v vs
  · cases h

end Runbook.Http
