import Runbook.Proofs.Template.Written
import Runbook.Workflow.Loading

/-! Which variables a template reads.

A placeholder reads the variable at the root of its path. Behind the root, a step into a list that
is no index itself names the variable that holds the index. A template leaves the same text in two
scopes that agree on all of these (`resolve_congr`), and each of the latter can decide what is left
(`fill_indexed`). The names of a workflow's variables are the roots alone. -/
namespace Runbook.Template

open Number

/-! ### Names -/

/-- The variable that a placeholder starts from. -/
def Placeholder.rootNames (p : Placeholder) : List String :=
  match pathSteps p.path with
  | root :: _ => [String.ofList root]
  | [] => []

/-- The variables that a placeholder may take an index from. -/
def Placeholder.indexNames (p : Placeholder) : List String :=
  match pathSteps p.path with
  | _ :: rest => (rest.filter (!looksLikeIndex ·)).map String.ofList
  | [] => []

/-- The placeholders of a template. -/
def holes (s : String) : List Placeholder :=
  (parts s.toList).filterMap fun
    | .char _ => none
    | .hole p => some p

theorem mem_holes {s : String} {p : Placeholder} : p ∈ holes s ↔ .hole p ∈ parts s.toList := by
  rw [holes, List.mem_filterMap]
  constructor
  · rintro ⟨part, there, same⟩
    cases part with
    | char c => cases same
    | hole q =>
      cases same
      exact there
  · exact fun there => ⟨.hole p, there, rfl⟩

/-- The names of a template are the roots of its placeholders. -/
theorem mem_names {s name : String} : name ∈ names s ↔ ∃ p ∈ holes s, name ∈ p.rootNames := by
  -- What is collected from a list of pieces, behind what was collected before.
  have collected (pieces : List Part) : ∀ acc : List String,
      name ∈ pieces.foldl (fun acc part =>
        match part with
        | .char _ => acc
        | .hole p =>
          match pathSteps p.path with
          | root :: _ =>
            let name := String.ofList root
            if acc.contains name then acc else acc ++ [name]
          | [] => acc) acc ↔ name ∈ acc ∨ ∃ p, .hole p ∈ pieces ∧ name ∈ p.rootNames := by
    induction pieces with
    | nil => simp
    | cons piece rest ih =>
      intro acc
      rw [List.foldl_cons, ih]
      cases piece with
      | char c => simp
      | hole p =>
        have first : (∃ q, .hole q ∈ Part.hole p :: rest ∧ name ∈ q.rootNames) ↔
            name ∈ p.rootNames ∨ ∃ q, .hole q ∈ rest ∧ name ∈ q.rootNames := by
          simp [or_and_right, exists_or]
        rw [first, ← or_assoc]
        refine or_congr_left ?_
        dsimp only [Placeholder.rootNames]
        generalize pathSteps p.path = steps
        cases steps with
        | nil => simp
        | cons root keys =>
          by_cases known : String.ofList root ∈ acc
          · simpa [known] using fun same : name = String.ofList root => same ▸ known
          · simp [known]
  have all := collected (parts s.toList) []
  simp only [List.not_mem_nil, false_or, ← mem_holes] at all
  exact all

/-! ### Scopes that agree -/

section

variable {scope scope' : Scope}

/-- Two scopes have the same in each of the variables. -/
def AgreeOn (scope scope' : Scope) (names : List String) : Prop :=
  ∀ name ∈ names, scope.get? name = scope'.get? name

theorem lookup_congr {p : Placeholder} (roots : AgreeOn scope scope' p.rootNames)
    (indices : AgreeOn scope scope' p.indexNames) : lookup p.path scope = lookup p.path scope' := by
  unfold Placeholder.rootNames at roots
  unfold Placeholder.indexNames at indices
  cases steps : pathSteps p.path with
  | nil => simp only [lookup, steps]
  | cons root rest =>
    rw [steps] at roots indices
    have same := roots _ (List.mem_singleton_self _)
    cases rest with
    | nil => simp only [lookup, steps, same, List.isEmpty_nil, if_true]
    | cons key rest =>
      cases bound : scope.get? (String.ofList root) with
      | none => simp only [lookup, steps, bound, same.symm.trans bound]
      | some v =>
        have walked (w : Value) :
            walkInto scope w (key :: rest) = walkInto scope' w (key :: rest) :=
          walkInto_congr (fun step there named => by
            rw [indices _ (List.mem_map_of_mem (List.mem_filter.mpr ⟨there, by simp [named]⟩))]) w
        rw [lookup_inside steps bound, lookup_inside steps (same.symm.trans bound)]
        simp only [walked]

theorem fillAll_congr {pieces : List Part}
    (same : ∀ p : Placeholder, .hole p ∈ pieces → lookup p.path scope = lookup p.path scope') :
    fillAll scope pieces = fillAll scope' pieces := by
  induction pieces with
  | nil => rfl
  | cons piece rest ih =>
    have here : fill scope piece = fill scope' piece := by
      cases piece with
      | char c => rfl
      | hole p => rw [fill, fill, same p (List.mem_cons_self ..)]
    rw [fillAll, fillAll, here, ih fun p there => same p (List.mem_cons_of_mem _ there)]

/-- A template leaves the same text where its roots and its indices are the same. -/
theorem resolve_congr {s : String}
    (roots : ∀ p ∈ holes s, AgreeOn scope scope' p.rootNames)
    (indices : ∀ p ∈ holes s, AgreeOn scope scope' p.indexNames) :
    resolve s scope = resolve s scope' := by
  have same (p : Placeholder) (there : .hole p ∈ parts s.toList) :
      lookup p.path scope = lookup p.path scope' :=
    lookup_congr (roots p (mem_holes.mpr there)) (indices p (mem_holes.mpr there))
  rw [resolve, resolve, fillAll_congr same]

end

/-! ### Scopes that differ -/

/-- A value at the end of keys into mappings. -/
def nest (keys : List (List Char)) (v : Value) : Value :=
  keys.foldr (fun key inner => .map [(.str (String.ofList key), inner)]) v

theorem walkInto_nest (scope : Scope) (keys rest : List (List Char)) (v : Value) :
    walkInto scope (nest keys v) (keys ++ rest) = walkInto scope v rest := by
  induction keys with
  | nil => rfl
  | cons key keys ih =>
    have into : stepInto scope (nest (key :: keys) v) key = .ok (some (nest keys v)) := by
      show Except.ok (Entries.get? (.str (String.ofList key))
        [(Scalar.str (String.ofList key), nest keys v)]) = _
      rw [Entries.get?, Scalar.str_beq, beq_self_eq_true, if_pos rfl]
    rw [List.cons_append, walkInto, into]
    exact ih

section

variable {scope : Scope} {path root key : List Char} {before after : List (List Char)}

/-- A list in which one item lies at the end of some keys, and at the end of other keys itself. -/
def shelf (before after : List (List Char)) : Value :=
  nest before (.list [nest after (.str "x")])

/-- A path that takes an index from a variable ends at the list, or goes on in it. -/
theorem lookup_shelf (steps : pathSteps path = root :: (before ++ key :: after))
    (bound : scope.get? (String.ofList root) = some (shelf before after)) :
    lookup path scope =
      (stepInto scope (.list [nest after (.str "x")]) key >>= fun
        | some v => walkInto scope v after
        | none => pure none).map (·.getD .null) := by
  have itself : Literal.load (shelf before after) = .ok (shelf before after) := by
    unfold shelf
    cases before <;> rfl
  obtain ⟨first, rest, some_keys⟩ := List.exists_cons_of_ne_nil
    (List.append_ne_nil_of_right_ne_nil before (List.cons_ne_nil key after))
  rw [some_keys] at steps
  rw [lookup_inside steps bound, itself, ← some_keys]
  dsimp only
  rw [shelf, walkInto_nest]
  rfl

theorem lookup_shelf_unbound (steps : pathSteps path = root :: (before ++ key :: after))
    (named : looksLikeIndex key = false)
    (bound : scope.get? (String.ofList root) = some (shelf before after))
    (free : scope.get? (String.ofList key) = none) : lookup path scope = .ok .null := by
  rw [lookup_shelf steps bound, stepInto_of_index (.unbound named free)]
  rfl

theorem lookup_shelf_zero (steps : pathSteps path = root :: (before ++ key :: after))
    (named : looksLikeIndex key = false)
    (bound : scope.get? (String.ofList root) = some (shelf before after))
    (zero : scope.get? (String.ofList key) = some (.int 0)) :
    lookup path scope = .ok (.str "x") := by
  have index : Index scope key (some 0) := .held named zero
    (by decide : ¬ Binary64.exceeds 0 = true)
  have bottom := walkInto_nest scope after [] (.str "x")
  rw [List.append_nil] at bottom
  rw [lookup_shelf steps bound, stepInto_of_index index]
  show (walkInto scope (nest after (.str "x")) after).map _ = _
  rw [bottom]
  rfl

end

/-- Whatever variable a placeholder may take an index from, what it leaves can depend on that
variable alone. -/
theorem fill_indexed {p : Placeholder} {name : String} (indexed : name ∈ p.indexNames)
    (other : name ∉ p.rootNames) :
    ∃ scope scope' : Scope, (∀ name', name' ≠ name → scope.get? name' = scope'.get? name') ∧
      fill scope (.hole p) = .ok [] ∧ fill scope' (.hole p) = .ok ['x'] := by
  unfold Placeholder.indexNames at indexed
  unfold Placeholder.rootNames at other
  cases steps : pathSteps p.path with
  | nil => simp [steps] at indexed
  | cons root rest =>
    rw [steps] at indexed other
    obtain ⟨key, there, rfl⟩ := List.mem_map.mp indexed
    obtain ⟨there, named⟩ := List.mem_filter.mp there
    have named : looksLikeIndex key = false := by simpa using named
    obtain ⟨before, after, rfl⟩ := List.append_of_mem there
    have apart : (String.ofList root == String.ofList key) = false :=
      beq_eq_false_iff_ne.mpr fun same => other (same ▸ List.mem_singleton_self _)
    refine ⟨⟨[(String.ofList root, shelf before after)]⟩,
      ⟨[(String.ofList root, shelf before after), (String.ofList key, .int 0)]⟩, ?_, ?_, ?_⟩
    · intro name' differs
      have : (String.ofList key == name') = false := beq_eq_false_iff_ne.mpr (Ne.symm differs)
      simp [Scope.get?, Entries.get?, this]
    · rw [fill, lookup_shelf_unbound steps named (by simp [Scope.get?, Entries.get?])
        (by simp [Scope.get?, Entries.get?, apart])]
      cases p.escaped <;> rfl
    · rw [fill, lookup_shelf_zero steps named (by simp [Scope.get?, Entries.get?])
        (by simp [Scope.get?, Entries.get?, apart])]
      cases p.escaped <;> rfl

end Runbook.Template

namespace Runbook.Workflow

open Template

/-- The variables that the placeholders in the properties may take an index from. -/
def indexNames (w : Workflow) : List String :=
  w.nodes.flatMap fun n => n.properties.flatMap fun (_, v) => (holes v).flatMap (·.indexNames)

theorem mem_variableNames {w : Workflow} {name : String} :
    name ∈ w.variableNames ↔
      ∃ n ∈ w.nodes, ∃ e ∈ n.properties, ∃ p ∈ holes e.2, name ∈ p.rootNames := by
  simp only [variableNames, List.mem_eraseDups, List.mem_flatMap, mem_names]

/-- The properties of a workflow leave the same texts in scopes that agree on the variables at the
roots of its placeholders and on those that it may take an index from. The names of its variables
are the former only: whatever other variable a placeholder may take an index from, two scopes that
differ in that one alone can leave something else in its place. -/
theorem variableNames_cover (w : Workflow) :
    (∀ scope scope', AgreeOn scope scope' w.variableNames → AgreeOn scope scope' w.indexNames →
      ∀ n ∈ w.nodes, ∀ e ∈ n.properties, resolve e.2 scope = resolve e.2 scope') ∧
    ∀ n ∈ w.nodes, ∀ e ∈ n.properties, ∀ p ∈ holes e.2, ∀ name ∈ p.indexNames,
      name ∉ w.variableNames →
        ∃ scope scope' : Scope, (∀ other, other ≠ name → scope.get? other = scope'.get? other) ∧
          fill scope (.hole p) = .ok [] ∧ fill scope' (.hole p) = .ok ['x'] := by
  constructor
  · intro scope scope' roots indices n hn e he
    refine resolve_congr (fun p hp name there => roots name ?_)
      fun p hp name there => indices name ?_
    · exact mem_variableNames.mpr ⟨n, hn, e, he, p, hp, there⟩
    · exact List.mem_flatMap.mpr ⟨n, hn, List.mem_flatMap.mpr ⟨e, he,
        List.mem_flatMap.mpr ⟨p, hp, there⟩⟩⟩
  · intro n hn e he p hp name there other
    exact fill_indexed there fun root => other (mem_variableNames.mpr ⟨n, hn, e, he, p, hp, root⟩)

/-- One node with an item of a list in a property, and the index in a variable. -/
def indexed : Workflow :=
  ⟨"", [{ id := "a", kind := "set", properties := [("value", "\x7b\x7bitems[idx]\x7d\x7d")] }],
    none⟩

/-- Variables that no placeholder names make no difference. -/
theorem variableNames_cover_indexed :
    resolve "\x7b\x7bitems[idx]\x7d\x7d" ⟨[("items", .list [.int 1, .int 2]), ("idx", .int 1)]⟩ =
      resolve "\x7b\x7bitems[idx]\x7d\x7d"
        ⟨[("n", .int 7), ("idx", .int 1), ("items", .list [.int 1, .int 2])]⟩ := by
  refine (variableNames_cover indexed).1 _ _ ?_ ?_ _ (List.mem_singleton_self _) ("value", _)
    (List.mem_singleton_self _)
  · have roots : indexed.variableNames = ["items"] := by decide
    rw [roots]
    exact List.forall_mem_singleton.mpr rfl
  · have indices : indexed.indexNames = ["idx"] := by decide
    rw [indices]
    exact List.forall_mem_singleton.mpr rfl

/-- The variable with the index is not among the names, and what is left depends on it. -/
theorem variableNames_indexed :
    Workflow.ofValue (.record [("nodes", .list [.record [("id", .str "a"), ("type", .str "set"),
        ("value", .str "\x7b\x7bitems[idx]\x7d\x7d")]])]) none = .ok indexed ∧
      indexed.variableNames = ["items"] ∧
      AgreeOn ⟨[("items", .list [.int 1, .int 2]), ("idx", .int 0)]⟩
        ⟨[("items", .list [.int 1, .int 2]), ("idx", .int 1)]⟩ indexed.variableNames ∧
      resolve "\x7b\x7bitems[idx]\x7d\x7d"
        ⟨[("items", .list [.int 1, .int 2]), ("idx", .int 0)]⟩ = .ok "1" ∧
      resolve "\x7b\x7bitems[idx]\x7d\x7d"
        ⟨[("items", .list [.int 1, .int 2]), ("idx", .int 1)]⟩ = .ok "2" := by
  have roots : indexed.variableNames = ["items"] := by decide
  refine ⟨by with_unfolding_all rfl, roots, ?_, by rfl, by rfl⟩
  rw [roots]
  exact List.forall_mem_singleton.mpr rfl

end Runbook.Workflow
