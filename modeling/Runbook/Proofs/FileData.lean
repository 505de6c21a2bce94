import Runbook.FileData
import Runbook.Literal
import Runbook.Proofs.Entries
import Runbook.Proofs.Json.Roundtrip
import Runbook.Proofs.Text.Encoding

/-! Files that are held by variables.

A file is a mapping of texts, so it comes back both from the mapping itself and from the text that
a placeholder for it is filled with. One that carries bytes gives them back in either form. -/
namespace Runbook.FileData

variable {f : FileData} {b : List UInt8}

/-! ### The mapping and its text -/

theorem contentType?_word (t : ContentType) : contentType? (.str t.word) = some t := by
  cases t <;> rfl

theorem ofMap?_toValue (f : FileData) : ofMap? f.toValue = some f := by
  have fields : f.toValue.field? "contentType" = some (.str f.contentType.word) ∧
      f.toValue.field? "data" = some (.str f.data) ∧
      f.toValue.field? "mimeType" = some (.str f.mimeType) ∧
      f.toValue.field? "path" = some (.str f.path) ∧
      f.toValue.field? "basename" = some (.str f.basename) ∧
      f.toValue.field? "name" = some (.str f.name) ∧
      f.toValue.field? "extension" = some (.str f.extension) := by
    simp [toValue, Value.field?_record, Entries.get?]
  obtain ⟨contentType, data, mimeType, path, basename, name, extension⟩ := fields
  simp only [ofMap?, optional?, contentType, data, mimeType, path, basename, name, extension,
    Option.bind_eq_bind, Option.bind_some, contentType?_word, text?]
  rfl

theorem ofValue?_toValue (f : FileData) : ofValue? f.toValue = .ok (some f) :=
  congrArg Except.ok (ofMap?_toValue f)

theorem legible_toValue (f : FileData) : Json.Legible 1 f.toValue := by
  have distinct : ["path", "basename", "name", "extension", "mimeType", "contentType",
      "data"].Nodup := by decide
  refine .record distinct fun e there => ?_
  simp only [List.mem_cons, List.not_mem_nil, or_false] at there
  rcases there with rfl | rfl | rfl | rfl | rfl | rfl | rfl <;> exact .scalar trivial

/-- A value that holds the file: the mapping, or the text that stands for it in other texts. -/
inductive Holds (f : FileData) : Value → Prop
  | mapping : Holds f f.toValue
  | text {s : String} (h : Literal.stringify f.toValue = .ok s) : Holds f (.str s)

theorem Holds.ofValue? {v : Value} (h : f.Holds v) : ofValue? v = .ok (some f) := by
  cases h with
  | mapping => exact ofValue?_toValue f
  | @text s written =>
    have layout : Json.compact ∈ Json.layouts := List.mem_cons_self ..
    have legible : Json.Legible Json.depthLimit f.toValue :=
      f.legible_toValue.mono (Nat.succ_le_of_lt (by decide))
    have read : Json.parse s = .ok f.toValue := Json.parse_of_legible layout legible written
    simp only [FileData.ofValue?, read, ofMap?_toValue]

theorem exists_text (f : FileData) : ∃ s, Literal.stringify f.toValue = .ok s :=
  (Json.render_isOk Json.compact _).mpr f.legible_toValue.writable

theorem Holds.ne_empty {s : String} (h : f.Holds (.str s)) : s.isEmpty = false := by
  cases empty : s.isEmpty with
  | false => rfl
  | true =>
    rw [String.isEmpty_iff] at empty
    subst empty
    cases (show FileData.ofValue? (.str "") = .ok none from rfl).symm.trans h.ofValue?

/-! ### Bytes -/

/-- A file with these bytes for its content. -/
structure Carries (f : FileData) (b : List UInt8) : Prop where
  binary : f.contentType = .binary
  data : f.data = Base64.text b

theorem carries_ofName (n : FileName) (mime : String) (b : List UInt8) :
    Carries (.ofName n mime .binary (Base64.text b)) b := ⟨rfl, rfl⟩

theorem Carries.bytes (h : f.Carries b) : f.bytes = .ok b := by
  simp only [FileData.bytes, h.data, Base64.decode_text]

theorem Carries.data_isEmpty (h : f.Carries b) (some_bytes : b ≠ []) : f.data.isEmpty = false := by
  rw [h.data, Base64.text_isEmpty some_bytes]

end Runbook.FileData
