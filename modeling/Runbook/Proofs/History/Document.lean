import Runbook.History.Document
import Runbook.Proofs.Entries
import Runbook.Proofs.Json.Roundtrip
import Runbook.Redaction

/-! Records as values, there and back.

The value of a record describes that record (`recordOfValue?_recordValue`), and redacting the value
is redacting the record: each of its texts and values by itself, and each mapping by its fields
(`redact_recordValue`). -/

/-! ## What redaction makes of a value

A mapping with text keys stays one, with the same keys in the same order; a text that does not look
like a file stays as it is; and a value that data text brings back stays one that it brings back. -/
namespace Runbook.Redaction

variable {text : String → String} {depth : Nat} {v : Value}

/-! ### Mappings with text keys -/

/-- The length of the content of a mapping, from its two fields, where it is not kept. -/
def excess? : Option Value → Option Value → Option Nat
  | some (.str "binary"), some (.str data) =>
    if limit < data.length then some data.length else none
  | _, _ => none

theorem content_eq (entries inside : List (Scalar × Value)) :
    content entries inside =
      (excess? (Entries.get? (.str "contentType") entries)
        (Entries.get? (.str "data") entries)).elim inside
          fun n => Entries.insert (.str "data") (.str (note n)) inside := by
  unfold content
  generalize Entries.get? (Scalar.str "contentType") entries = contentType
  generalize Entries.get? (Scalar.str "data") entries = data
  split
  · rw [excess?]
    split <;> rfl
  · rename_i other
    unfold excess?
    split
    · exact absurd rfl (other _ rfl)
    · rfl

/-- The fields of a mapping, redacted. -/
def fields (text : String → String) (entries : List (String × Value)) : List (String × Value) :=
  let inside := entries.map fun e => (e.1, value text e.2)
  (excess? (Entries.get? "contentType" entries) (Entries.get? "data" entries)).elim inside
    fun n => Entries.insert "data" (.str (note n)) inside

theorem values_eq (items : List Value) : values text items = items.map (value text) := by
  induction items with
  | nil => rfl
  | cons v rest ih => rw [values, ih, List.map_cons]

theorem entryValues_eq (entries : List (Scalar × Value)) :
    entryValues text entries = entries.map fun e => (e.1, value text e.2) := by
  induction entries with
  | nil => rfl
  | cons e rest ih => rw [entryValues, ih, List.map_cons]

/-- A mapping with text keys is redacted by its fields. -/
theorem value_record (entries : List (String × Value)) :
    value text (.record entries) = .record (fields text entries) := by
  have found (key : String) : Entries.get? (Scalar.str key)
      (entries.map fun e => (Scalar.str e.1, e.2)) = Entries.get? key entries :=
    Value.field?_record entries key
  have inside : entryValues text (entries.map fun e => (Scalar.str e.1, e.2)) =
      (entries.map fun e => (e.1, value text e.2)).map fun e => (Scalar.str e.1, e.2) := by
    rw [entryValues_eq, List.map_map, List.map_map]
    rfl
  show value text (.map (entries.map fun e => (Scalar.str e.1, e.2))) = _
  rw [value, content_eq, found, found, inside]
  unfold fields Value.record
  cases excess? (Entries.get? "contentType" entries) (Entries.get? "data" entries) with
  | none => rfl
  | some n =>
    exact congrArg Value.map (Entries.insert_map Scalar.str_beq (id : Value → Value) "data" _ _)

/-- A mapping without a type of content is redacted field by field. -/
theorem fields_of_untyped {entries : List (String × Value)}
    (untyped : Entries.get? "contentType" entries = none) :
    fields text entries = entries.map fun e => (e.1, value text e.2) := by
  rw [fields, untyped]
  rfl

theorem mem_keys_of_excess? {entries : List (String × Value)} {contentType : Option Value} {n : Nat}
    (excess : excess? contentType (Entries.get? "data" entries) = some n) :
    "data" ∈ Entries.keys entries := by
  cases found : Entries.get? "data" entries with
  | some v => exact List.mem_map_of_mem (Entries.mem_of_get? found)
  | none =>
    rw [found] at excess
    unfold excess? at excess
    split at excess
    · rename_i none
      cases none
    · cases excess

theorem keys_fields (entries : List (String × Value)) :
    Entries.keys (fields text entries) = Entries.keys entries := by
  have inside :
      Entries.keys (entries.map fun e => (e.1, value text e.2)) = Entries.keys entries := by
    rw [Entries.keys, List.map_map]
    rfl
  unfold fields
  cases excess : excess? (Entries.get? "contentType" entries) (Entries.get? "data" entries) with
  | none => exact inside
  | some n => exact (Entries.keys_insert_of_mem (inside ▸ mem_keys_of_excess? excess)).trans inside

/-- Each field is redacted or tells the length of what was there. -/
theorem forall_mem_fields {P : Value → Prop} {entries : List (String × Value)}
    (notes : ∀ s, P (.str s)) (h : ∀ e ∈ entries, P (value text e.2)) :
    ∀ e ∈ fields text entries, P e.2 := by
  unfold fields
  cases excess? (Entries.get? "contentType" entries) (Entries.get? "data" entries) with
  | none => exact List.forall_mem_map.mpr h
  | some n =>
    have inside : ∀ e ∈ entries.map fun e => (e.1, value text e.2), P e.2 :=
      List.forall_mem_map.mpr h
    exact fun e there => (Entries.forall_mem_insert (P := fun _ => True) trivial (notes _)
      (fun e there => ⟨trivial, inside e there⟩) e there).2

/-! ### Values that data text brings back -/

theorem legible_value (h : Json.Legible depth v) : Json.Legible depth (value text v) := by
  induction h with
  | @scalar depth s h =>
    cases s with
    | str s => exact .scalar trivial
    | _ => exact .scalar h
  | list _ ih =>
    rw [value, values_eq]
    exact .list (List.forall_mem_map.mpr ih)
  | @record depth entries distinct _ ih =>
    rw [value_record]
    refine .record ?_ (forall_mem_fields (fun s => .scalar trivial) ih)
    rw [keys_fields]
    exact distinct

/-- What can be redacted within a depth is nested no deeper. -/
theorem legible_of_fits {limit : Nat} (h : Json.Legible depth v) (fit : fits limit v = true) :
    Json.Legible limit v := by
  induction h generalizing limit with
  | scalar h => exact .scalar h
  | list _ ih =>
    cases limit with
    | zero => cases fit
    | succ limit => exact .list fun v there => ih v there (List.all_eq_true.mp fit v there)
  | @record depth entries distinct _ ih =>
    cases limit with
    | zero => cases fit
    | succ limit =>
      refine .record distinct fun e there => ih e there ?_
      exact List.all_eq_true.mp fit _ (List.mem_map_of_mem there)

/-! ### Texts that stay -/

/-- The text that is kept of a text. -/
def keptText (s : String) : String := Redaction.text s.length s

theorem length_of_suspect {s : String} (suspect : isSuspect s = true) : limit < s.length := by
  rw [isSuspect, Bool.and_eq_true, Bool.and_eq_true] at suspect
  exact of_decide_eq_true suspect.1.1

theorem suspect_of_short {s : String} (short : s.length ≤ limit) : isSuspect s = false :=
  Bool.eq_false_iff.mpr fun suspect => Nat.not_lt.mpr short (length_of_suspect suspect)

theorem keptText_of_short {s : String} (short : s.length ≤ limit) : keptText s = s := by
  unfold keptText
  cases s.length with
  | zero => rfl
  | succ n => rw [Redaction.text, if_neg (by rw [suspect_of_short short]; exact Bool.false_ne_true)]

end Runbook.Redaction

namespace Runbook

/-! ### Redacted records -/

/-- A step as the history keeps it. -/
def Step.redacted (s : Step) : Step :=
  { nodeId := Redaction.keptText s.nodeId
    kind := Redaction.keptText s.kind
    timestamp := Redaction.keptText s.timestamp
    input := Redaction.fields Redaction.keptText s.input
    output := Redaction.redact s.output
    status := s.status
    error := s.error.map Redaction.keptText }

/-- A record as the history keeps it. -/
def Record.redacted (r : Record) : Record :=
  { id := Redaction.keptText r.id
    workflowName := Redaction.keptText r.workflowName
    workflowPath := r.workflowPath.map Redaction.keptText
    startTime := Redaction.keptText r.startTime
    endTime := r.endTime.map Redaction.keptText
    status := r.status
    steps := r.steps.map Step.redacted
    errorNodeId := r.errorNodeId.map Redaction.keptText
    bindings := Redaction.fields Redaction.keptText r.bindings }

namespace History

/-! ### Redacted values -/

theorem redact_str (s : String) : Redaction.redact (.str s) = .str (Redaction.keptText s) := rfl

theorem redact_opt (s : Option String) :
    Redaction.redact (.opt s) = .opt (s.map Redaction.keptText) := by
  cases s <;> rfl

theorem redact_list (items : List Value) :
    Redaction.redact (.list items) = .list (items.map Redaction.redact) :=
  congrArg Value.list (Redaction.values_eq items)

theorem redact_record (entries : List (String × Value)) :
    Redaction.redact (.record entries) = .record (Redaction.fields Redaction.keptText entries) :=
  Redaction.value_record entries

theorem redact_untyped {entries : List (String × Value)}
    (untyped : Entries.get? "contentType" entries = none) :
    Redaction.redact (.record entries) =
      .record (entries.map fun e => (e.1, Redaction.redact e.2)) :=
  (redact_record entries).trans (congrArg Value.record (Redaction.fields_of_untyped untyped))

theorem keptText_stepWord (s : StepStatus) : Redaction.keptText s.word = s.word :=
  Redaction.keptText_of_short (by cases s <;> decide)

theorem keptText_runWord (s : RunStatus) : Redaction.keptText s.word = s.word :=
  Redaction.keptText_of_short (by cases s <;> decide)

theorem redact_stepValue (s : Step) : Redaction.redact (stepValue s) = stepValue s.redacted := by
  rw [stepValue, redact_untyped rfl]
  simp only [List.map_cons, List.map_nil, redact_str, redact_opt, redact_record, keptText_stepWord]
  rfl

/-- Redacting the value of a record is redacting the record. -/
theorem redact_recordValue (r : Record) :
    Redaction.redact (recordValue r) = recordValue r.redacted := by
  have steps : (r.steps.map stepValue).map Redaction.redact =
      (r.steps.map Step.redacted).map stepValue := by
    rw [List.map_map, List.map_map]
    exact List.map_congr_left fun s _ => redact_stepValue s
  rw [recordValue, redact_untyped rfl]
  simp only [List.map_cons, List.map_nil, redact_str, redact_opt, redact_record, redact_list,
    keptText_runWord, steps]
  rfl

/-! ### Described records -/

theorem textEntries?_record (entries : List (String × Value)) :
    textEntries? (entries.map fun e => (.str e.1, e.2)) = some entries := by
  induction entries with
  | nil => rfl
  | cons e rest ih =>
    rw [List.map_cons, textEntries?, ih]
    rfl

theorem ofWord?_stepWord (s : StepStatus) : StepStatus.ofWord? s.word = some s := by
  cases s <;> rfl

theorem ofWord?_runWord (s : RunStatus) : RunStatus.ofWord? s.word = some s := by
  cases s <;> rfl

theorem textOf?_opt (s : Option String) (n : FieldName) {v : Value}
    (found : n.get? v = some (.opt s)) : optionalText? n v = some s := by
  unfold optionalText?
  rw [found]
  cases s <;> rfl

theorem stepOfValue?_stepValue (s : Step) : stepOfValue? (stepValue s) = some s := by
  have nodeId : requiredText? .nodeId (stepValue s) = some s.nodeId := rfl
  have kind : requiredText? .nodeType (stepValue s) = some s.kind := rfl
  have timestamp : requiredText? (.own "timestamp") (stepValue s) = some s.timestamp := rfl
  have input : entriesOr? (.own "input") (stepValue s) = some s.input := textEntries?_record s.input
  have output : (stepValue s).field? "output" = some s.output := rfl
  have status : stepStatus? (stepValue s) = some s.status := ofWord?_stepWord s.status
  have error : optionalText? (.own "error") (stepValue s) = some s.error :=
    textOf?_opt s.error _ rfl
  rw [stepOfValue?, nodeId, kind, timestamp, input, output, status, error]
  rfl

theorem recordOfValue?_recordValue (r : Record) : recordOfValue? (recordValue r) = some r := by
  have id : requiredText? (.own "id") (recordValue r) = some r.id := rfl
  have name : textOr? .workflowName "" (recordValue r) = some r.workflowName := rfl
  have path : optionalText? .workflowPath (recordValue r) = some r.workflowPath :=
    textOf?_opt r.workflowPath _ rfl
  have startTime : requiredText? .startTime (recordValue r) = some r.startTime := rfl
  have endTime : optionalText? .endTime (recordValue r) = some r.endTime :=
    textOf?_opt r.endTime _ rfl
  have status : runStatus? (recordValue r) = some r.status := ofWord?_runWord r.status
  have steps : stepsOr? (recordValue r) = some r.steps := by
    show (r.steps.map stepValue).mapM stepOfValue? = some r.steps
    induction r.steps with
    | nil => rfl
    | cons s rest ih =>
      rw [List.map_cons, List.mapM_cons, stepOfValue?_stepValue, ih]
      rfl
  have node : optionalText? .errorNodeId (recordValue r) = some r.errorNodeId :=
    textOf?_opt r.errorNodeId _ rfl
  have bindings : entriesOr? (.own "variables") (recordValue r) = some r.bindings :=
    textEntries?_record r.bindings
  rw [recordOfValue?, id, name, path, startTime, endTime, status, steps, node, bindings]
  rfl

/-- The redacted value of a record describes the redacted record. -/
theorem recordOfValue?_redact (r : Record) :
    recordOfValue? (Redaction.redact (recordValue r)) = some r.redacted := by
  rw [redact_recordValue, recordOfValue?_recordValue]

end History
end Runbook
