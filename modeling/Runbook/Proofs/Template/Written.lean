import Runbook.Proofs.Literal
import Runbook.Proofs.Template.Path
import Runbook.Visit.Tool

/-! Paths into written values.

A path goes into data text as it goes into the value that the text is read as. Between two scopes of
which one holds a container and the other its text, a path of more than one step is looked up alike:
what else it takes from the scope are indices, and neither a container nor its text is one.

`data_text`: where a container is written as a text that is read as the container again, the text
serves as well as the container does, for paths into it and for a node that reads it; and a container
is read from its text unless it is nested too deeply or two code fences stand in the text. -/
namespace Runbook.Template

open Number

/-! ### Texts that are no numbers -/

theorem trim_cons {c : Char} (solid : Text.isBlank c = false) (cs : List Char) :
    ∃ more, Text.trim (c :: cs) = c :: more := by
  have start : Text.trimStart (c :: cs) = c :: cs := List.dropWhile_cons_of_neg (by simp [solid])
  rw [Text.trim, start, Text.trimEnd, List.reverse_cons, List.dropWhile_append]
  split
  · exact ⟨[], by rw [List.dropWhile_cons_of_neg (by simp [solid])]; rfl⟩
  · exact ⟨_, by rw [List.reverse_append]; rfl⟩

/-- A text that starts with a bracket or a brace is no number. -/
theorem plain?_of_opens {c : Char} (opens : c = '[' ∨ c = '{') (cs : List Char) :
    plain? (c :: cs) = none := by
  have solid : Text.isBlank c = false := by rcases opens with rfl | rfl <;> rfl
  obtain ⟨more, trimmed⟩ := trim_cons solid cs
  rw [plain?, trimmed]
  rcases opens with rfl | rfl <;> rfl

/-- The text of a container starts with a bracket or a brace. -/
theorem opens_of_stringify {v : Value} (container : ∀ s, v ≠ .scalar s) {text : String}
    (written : Literal.stringify v = .ok text) :
    ∃ c cs, text.toList = c :: cs ∧ (c = '[' ∨ c = '{') := by
  have rendered {v : Value} (h : Json.render Json.compact v = .ok text) :
      text.toList = (Json.write Json.compact 0 v).text := by
    unfold Json.render at h
    dsimp only at h
    split at h
    · cases h
      exact String.toList_ofList
    · cases h
  cases v with
  | scalar s => exact absurd rfl (container s)
  | list items =>
    obtain ⟨more, first⟩ := Json.exists_write_list Json.compact 0 items
    exact ⟨_, more, (rendered written).trans first, .inl rfl⟩
  | map entries =>
    obtain ⟨more, first⟩ := Json.exists_write_map Json.compact 0 entries
    exact ⟨_, more, (rendered written).trans first, .inr rfl⟩

/-- Neither a container nor its text is an index. -/
theorem indexFrom_container {v : Value} (container : ∀ s, v ≠ .scalar s) {text : String}
    (written : Literal.stringify v = .ok text) :
    indexFrom v = .ok none ∧ indexFrom (.str text) = .ok none := by
  obtain ⟨c, cs, first, opens⟩ := opens_of_stringify container written
  refine ⟨?_, ?_⟩
  · cases v with
    | scalar s => exact absurd rfl (container s)
    | list | map => rfl
  · simp only [indexFrom, Literal.number?, first, plain?_of_opens opens, Option.map_none]

/-! ### Two scopes -/

/-- Two scopes that differ in one variable alone, which holds a value in the one and a text in the
other. -/
structure Alternate (name : String) (v : Value) (text : String) (scope scope' : Scope) : Prop where
  held : scope.get? name = some v
  written : scope'.get? name = some (.str text)
  others : ∀ other, other ≠ name → scope.get? other = scope'.get? other

variable {scope scope' : Scope}

/-- A step needs the index that its variable holds, if it is not an index itself. -/
theorem stepInto_congr {key : List Char}
    (same : looksLikeIndex key = false → (scope.get? (String.ofList key)).map indexFrom =
      (scope'.get? (String.ofList key)).map indexFrom)
    (v : Value) : stepInto scope v key = stepInto scope' v key := by
  cases v with
  | list items =>
    simp only [stepInto]
    split
    · rfl
    · rename_i named
      have held := same (Bool.not_eq_true _ ▸ named)
      generalize scope.get? (String.ofList key) = here at held ⊢
      generalize scope'.get? (String.ofList key) = there at held ⊢
      cases here with
      | none =>
        cases there with
        | none => rfl
        | some w => cases held
      | some v =>
        cases there with
        | none => cases held
        | some w =>
          have index : indexFrom v = indexFrom w := Option.some.inj held
          simp only [index]
  | _ => rfl

theorem walkInto_congr {keys : List (List Char)}
    (same : ∀ key ∈ keys, looksLikeIndex key = false →
      (scope.get? (String.ofList key)).map indexFrom =
        (scope'.get? (String.ofList key)).map indexFrom)
    (v : Value) : walkInto scope v keys = walkInto scope' v keys := by
  induction keys generalizing v with
  | nil => rfl
  | cons key rest ih =>
    obtain ⟨here, behind⟩ := List.forall_mem_cons.mp same
    rw [walkInto, walkInto, stepInto_congr here]
    simp only [ih behind]

/-- A path into a container is looked up alike where the container is written as a text that is read
as the container again. -/
theorem lookup_alternate {v : Value} (container : ∀ s, v ≠ .scalar s) {text : String}
    (written : Literal.stringify v = .ok text) (back : Literal.load (.str text) = .ok v)
    {path root key : List Char} {rest : List (List Char)}
    (steps : pathSteps path = root :: key :: rest)
    (h : Alternate (String.ofList root) v text scope scope') :
    lookup path scope = lookup path scope' := by
  obtain ⟨value, text'⟩ := indexFrom_container container written
  have same (name : String) :
      (scope.get? name).map indexFrom = (scope'.get? name).map indexFrom := by
    by_cases root_name : name = String.ofList root
    · rw [root_name, h.held, h.written, Option.map_some, Option.map_some, value, text']
    · rw [h.others name root_name]
  have itself : Literal.load v = .ok v := by
    cases v with
    | scalar s => exact absurd rfl (container s)
    | list | map => rfl
  have walked : walkInto scope v (key :: rest) = walkInto scope' v (key :: rest) :=
    walkInto_congr (fun step _ _ => same (String.ofList step)) v
  rw [lookup_inside steps h.held, lookup_inside steps h.written, itself, back]
  simp only [walked]

end Runbook.Template

namespace Runbook.Visit

open Template

variable {σ : Type}

theorem writes_saveTo {c : Context σ} (named : (c.trimmed "saveTo").isEmpty = false) (v : Value) :
    c.writes [("saveTo", v)] = [(c.trimmed "saveTo", v)] := by
  simp only [Context.writes, List.filterMap_cons, List.filterMap_nil, named, Bool.false_eq_true,
    if_false]
  rfl

/-- A node that reads data text stores the value of the text. -/
theorem readData_eq {c : Context σ} (source : (c.trimmed "source").isEmpty = false)
    (named : (c.trimmed "saveTo").isEmpty = false) {held v : Value}
    (bound : c.scope.get? (c.trimmed "source") = some held) (read : Literal.load held = .ok v) :
    readData c = pure { output := v, writes := [(c.trimmed "saveTo", v)] } := by
  simp only [readData, source, named, bound, read, writes_saveTo named, Bool.false_eq_true, if_false]

/-- A container has a text exactly when data text can be written for it. It is read from that text
unless it is nested too deeply or two code fences stand in the text, and where it is, a path of two
steps or more is looked up in the text as it is in the container, and a node that reads the text
stores the container. -/
theorem data_text {v : Value} (data : v.IsData) (container : ∀ s, v ≠ .scalar s) :
    ((∃ text, Literal.stringify v = .ok text) ↔ v.Writable) ∧
      ∀ text, Literal.stringify v = .ok text →
        (Literal.load (.str text) = .ok v ↔
          v.nesting ≤ Json.depthLimit ∧ ¬ Literal.Fenced text.toList) ∧
        (Literal.load (.str text) = .ok v →
          (∀ path root key rest scope scope', pathSteps path = root :: key :: rest →
            Alternate (String.ofList root) v text scope scope' →
            lookup path scope = lookup path scope') ∧
          ∀ c : Context σ, (c.trimmed "source").isEmpty = false →
            (c.trimmed "saveTo").isEmpty = false →
            c.scope.get? (c.trimmed "source") = some (.str text) →
            readData c = pure { output := v, writes := [(c.trimmed "saveTo", v)] }) := by
  have writable : (∃ text, Literal.stringify v = .ok text) ↔ v.Writable := by
    cases v with
    | scalar s => exact absurd rfl (container s)
    | list | map => exact Json.render_isOk ..
  refine ⟨writable, fun text written => ⟨Literal.load_iff data container written, fun back => ⟨?_, ?_⟩⟩⟩
  · intro path root key rest scope scope' steps h
    exact lookup_alternate container written back steps h
  · intro c source named bound
    exact readData_eq source named bound back

/-- A mapping with one code fence in it: its text is read as the mapping, and a path is looked up in
the text as it is in the mapping. -/
theorem data_text_one_fence :
    (Value.record [("a", .str "```x")]).IsData ∧
      Literal.load (.str "\x7b\"a\":\"```x\"\x7d") = .ok (.record [("a", .str "```x")]) ∧
      lookup "r.a".toList ⟨[("r", .record [("a", .str "```x")])]⟩ =
        lookup "r.a".toList ⟨[("r", .str "\x7b\"a\":\"```x\"\x7d")]⟩ := by
  have data : (Value.record [("a", .str "```x")]).IsData :=
    Value.isData_record.mpr ⟨List.nodup_singleton _, List.forall_mem_singleton.mpr trivial⟩
  obtain ⟨iff, alike⟩ := (data_text (σ := Unit) data nofun).2 "\x7b\"a\":\"```x\"\x7d" rfl
  have single : ¬ Literal.Fenced "\x7b\"a\":\"```x\"\x7d".toList := fun fenced =>
    absurd fenced.six_le_count (by decide)
  have back := iff.mpr ⟨by decide, single⟩
  refine ⟨data, back, (alike back).1 _ "r".toList "a".toList [] _ _ rfl ⟨rfl, rfl, ?_⟩⟩
  intro other differs
  have apart : ("r" == other) = false := beq_eq_false_iff_ne.mpr (Ne.symm differs)
  simp [Scope.get?, Entries.get?, apart]

end Runbook.Visit
