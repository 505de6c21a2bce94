import Runbook.Proofs.Json.Roundtrip

/-! How deep values are nested.

Data text brings a value back as it is when it can hold the value, when it can be written, and when
no more containers are one inside another than can be read (`legible_iff`). Data text of any other
depth is given up for that reason (`parse_render_tooDeep`). -/
namespace Runbook

mutual

/-- How many containers are one inside another. -/
def Value.nesting : Value → Nat
  | .scalar _ => 0
  | .list items => Value.nestingOfItems items + 1
  | .map entries => Value.nestingOfEntries entries + 1

def Value.nestingOfItems : List Value → Nat
  | [] => 0
  | v :: rest => max v.nesting (Value.nestingOfItems rest)

def Value.nestingOfEntries : List (Scalar × Value) → Nat
  | [] => 0
  | (_, v) :: rest => max v.nesting (Value.nestingOfEntries rest)

end

namespace Value

theorem nestingOfItems_le {vs : List Value} {n : Nat} :
    nestingOfItems vs ≤ n ↔ ∀ v ∈ vs, v.nesting ≤ n := by
  induction vs with
  | nil => simp [nestingOfItems]
  | cons v vs ih => simp [nestingOfItems, ih]

theorem nestingOfEntries_le {es : List (Scalar × Value)} {n : Nat} :
    nestingOfEntries es ≤ n ↔ ∀ e ∈ es, e.2.nesting ≤ n := by
  induction es with
  | nil => simp [nestingOfEntries]
  | cons e es ih => simp only [nestingOfEntries, List.forall_mem_cons, ← ih, Nat.max_le]

theorem nesting_list_le {vs : List Value} {n : Nat} :
    (Value.list vs).nesting ≤ n + 1 ↔ ∀ v ∈ vs, v.nesting ≤ n := by
  rw [nesting, Nat.add_le_add_iff_right, nestingOfItems_le]

theorem nesting_map_le {es : List (Scalar × Value)} {n : Nat} :
    (Value.map es).nesting ≤ n + 1 ↔ ∀ e ∈ es, e.2.nesting ≤ n := by
  rw [nesting, Nat.add_le_add_iff_right, nestingOfEntries_le]

theorem areData_iff {vs : List Value} : AreData vs ↔ ∀ v ∈ vs, v.IsData := by
  induction vs with
  | nil => simp [AreData]
  | cons v vs ih => simp only [AreData, List.forall_mem_cons, ih]

theorem entriesAreData_iff {es : List (Scalar × Value)} :
    EntriesAreData es ↔ ∀ e ∈ es, (∃ s, e.1 = .str s) ∧ e.2.IsData := by
  induction es with
  | nil => simp [EntriesAreData]
  | cons e es ih => simp only [EntriesAreData, List.forall_mem_cons, ih, and_assoc]

/-- A mapping whose keys are texts is one with named fields. -/
theorem exists_fields {es : List (Scalar × Value)} (h : ∀ e ∈ es, ∃ s, e.1 = .str s) :
    ∃ fields : List (String × Value), es = fields.map fun e => (.str e.1, e.2) := by
  induction es with
  | nil => exact ⟨[], rfl⟩
  | cons e es ih =>
    obtain ⟨⟨s, key⟩, behind⟩ := List.forall_mem_cons.mp h
    obtain ⟨fields, rfl⟩ := ih behind
    exact ⟨(s, e.2) :: fields, by rw [List.map_cons, ← key]⟩

theorem isData_record {fields : List (String × Value)} :
    (Value.record fields).IsData ↔
      (Entries.keys fields).Nodup ∧ ∀ e ∈ fields, e.2.IsData := by
  have names : (fields.map fun e => (Scalar.str e.1, e.2)).map (·.1) =
      (Entries.keys fields).map .str := by
    rw [Entries.keys, List.map_map, List.map_map]
    rfl
  have distinct : ((Entries.keys fields).map Scalar.str).Nodup ↔ (Entries.keys fields).Nodup :=
    List.nodup_map_iff fun a b same => Scalar.str.inj same
  show ((fields.map fun e => (Scalar.str e.1, e.2)).map (·.1)).Nodup ∧
    EntriesAreData (fields.map fun e => (Scalar.str e.1, e.2)) ↔ _
  rw [names, distinct, entriesAreData_iff, List.forall_mem_map]
  exact and_congr_right fun _ => forall₂_congr fun e _ => and_iff_right ⟨e.1, rfl⟩

end Value

namespace Json

/-- A value comes back as it is exactly when data text can hold it, when it can be written, and when
it is not nested too deeply. -/
theorem legible_iff {n : Nat} {v : Value} : Legible n v ↔ v.IsData ∧ v.Writable ∧ v.nesting ≤ n := by
  constructor
  · intro h
    refine ⟨?_, h.writable, ?_⟩
    · induction h with
      | @scalar _ s h =>
        cases s with
        | bytes | moment => exact h
        | _ => trivial
      | list _ ih => exact Value.areData_iff.mpr ih
      | record distinct _ ih => exact Value.isData_record.mpr ⟨distinct, ih⟩
    · induction h with
      | scalar => exact Nat.zero_le _
      | list _ ih => exact Value.nesting_list_le.mpr ih
      | record _ _ ih => exact Value.nesting_map_le.mpr (List.forall_mem_map.mpr ih)
  · rintro ⟨data, written, deep⟩
    induction n generalizing v with
    | zero =>
      cases v with
      | scalar s =>
        cases written with
        | scalar h => exact .scalar h
      | list | map => simp [Value.nesting] at deep
    | succ n ih =>
      cases written with
      | scalar h => exact .scalar h
      | list h =>
        have inside := Value.nesting_list_le.mp deep
        have items := Value.areData_iff.mp data
        exact .list fun v there => ih (items v there) (h v there) (inside v there)
      | map keys values =>
        obtain ⟨fields, rfl⟩ := Value.exists_fields fun e there =>
          (Value.entriesAreData_iff.mp data.2 e there).1
        obtain ⟨distinct, parts⟩ := Value.isData_record.mp data
        have inside := List.forall_mem_map.mp (Value.nesting_map_le.mp deep)
        have written := List.forall_mem_map.mp values
        exact .record distinct fun e there => ih (parts e there) (written e there) (inside e there)

theorem readable_nesting : Readable fun depth _ v => v.nesting ≤ depth where
  text _ := Nat.zero_le _
  atom h := by
    obtain ⟨s, rfl, -⟩ := scalar_of_atom h
    exact Nat.zero_le _
  list h := Value.nesting_list_le.mpr h
  record _ h := Value.nesting_map_le.mpr (List.forall_mem_map.mpr h)

/-- The data text of a value that it can hold is read as that value unless it is nested too
deeply. -/
theorem parse_render_iff {style : Style} (layout : style ∈ layouts) {v : Value} {text : String}
    (data : v.IsData) (rendered : render style v = .ok text) :
    parse text = .ok v ↔ v.nesting ≤ depthLimit := by
  constructor
  · exact readable_nesting.parse
  · intro shallow
    have written := (render_isOk style v).mp ⟨text, rendered⟩
    exact parse_of_legible layout (legible_iff.mpr ⟨data, written, shallow⟩) rendered

/-! ### Values nested too deeply -/

mutual

/-- What is nested too deeply does not come back, and everything else does. -/
theorem reread_cases : (depth : Nat) → (v : Value) →
    depth < v.nesting ∧ reread depth v = .error .tooDeep ∨
      v.nesting ≤ depth ∧ ∃ w, reread depth v = .ok w
  | _, .scalar s => .inr ⟨Nat.zero_le _, _, by rw [reread]⟩
  | 0, .list _ => .inl ⟨Nat.succ_pos _, by rw [reread]⟩
  | 0, .map _ => .inl ⟨Nat.succ_pos _, by rw [reread]⟩
  | depth + 1, .list items => by
    rw [reread, Value.nesting, Nat.add_lt_add_iff_right, Nat.add_le_add_iff_right]
    rcases rereadItems_cases depth items with ⟨deep, failed⟩ | ⟨shallow, items', back⟩
    · exact .inl ⟨deep, by rw [failed]; rfl⟩
    · exact .inr ⟨shallow, _, by rw [back]; rfl⟩
  | depth + 1, .map entries => by
    rw [reread, Value.nesting, Nat.add_lt_add_iff_right, Nat.add_le_add_iff_right]
    rcases rereadEntries_cases depth entries with ⟨deep, failed⟩ | ⟨shallow, entries', back⟩
    · exact .inl ⟨deep, by rw [failed]; rfl⟩
    · exact .inr ⟨shallow, _, by rw [back]; rfl⟩

theorem rereadItems_cases (depth : Nat) : (items : List Value) →
    depth < Value.nestingOfItems items ∧ rereadItems depth items = .error .tooDeep ∨
      Value.nestingOfItems items ≤ depth ∧ ∃ ws, rereadItems depth items = .ok ws
  | [] => .inr ⟨Nat.zero_le _, [], rfl⟩
  | v :: rest => by
    rw [rereadItems, Value.nestingOfItems, lt_max_iff, Nat.max_le]
    rcases reread_cases depth v with ⟨deep, failed⟩ | ⟨shallow, w, back⟩
    · exact .inl ⟨.inl deep, by rw [failed]; rfl⟩
    · rcases rereadItems_cases depth rest with ⟨deep, failed⟩ | ⟨shallow', ws, back'⟩
      · exact .inl ⟨.inr deep, by rw [back, failed]; rfl⟩
      · exact .inr ⟨⟨shallow, shallow'⟩, _, by rw [back, back']; rfl⟩

theorem rereadEntries_cases (depth : Nat) : (entries : List (Scalar × Value)) →
    depth < Value.nestingOfEntries entries ∧ rereadEntries depth entries = .error .tooDeep ∨
      Value.nestingOfEntries entries ≤ depth ∧ ∃ es, rereadEntries depth entries = .ok es
  | [] => .inr ⟨Nat.zero_le _, [], rfl⟩
  | (k, v) :: rest => by
    rw [rereadEntries, Value.nestingOfEntries, lt_max_iff, Nat.max_le]
    rcases reread_cases depth v with ⟨deep, failed⟩ | ⟨shallow, w, back⟩
    · exact .inl ⟨.inl deep, by rw [failed]; rfl⟩
    · rcases rereadEntries_cases depth rest with ⟨deep, failed⟩ | ⟨shallow', es, back'⟩
      · exact .inl ⟨.inr deep, by rw [back, failed]; rfl⟩
      · exact .inr ⟨⟨shallow, shallow'⟩, _, by rw [back, back']; rfl⟩

end

/-- Data text of a value that is nested too deeply is given up for that reason. -/
theorem parse_render_tooDeep {style : Style} (layout : style ∈ layouts) {v : Value} {text : String}
    (rendered : render style v = .ok text) (deep : depthLimit < v.nesting) :
    parse text = .error .tooDeep := by
  have written := (render_isOk style v).mp ⟨text, rendered⟩
  have back := document_write layout written
  have failed : reread depthLimit v = .error .tooDeep :=
    (reread_cases depthLimit v).elim And.right fun shallow => absurd deep (Nat.not_lt.mpr shallow.1)
  unfold render at rendered
  simp only [(write_refused style 0 v).mpr written, Except.ok.injEq] at rendered
  rw [parse, ← rendered, String.toList_ofList, back, failed]
  rfl

end Json
end Runbook
