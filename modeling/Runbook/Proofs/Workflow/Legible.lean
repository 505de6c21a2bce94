import Runbook.Proofs.Json.Reading
import Runbook.Workflow.Loading

/-! Which values are nodes.

What a value describes as a node is read off it without regard to failures (`nodeOf`). It is what
the value loads as, just where all of it can be read (`Legible`). A value that is no mapping is
refused as a node; a mapping that cannot be read fails in another way. -/
namespace Runbook

/-- Whether the failure is the refusal of a workflow. -/
def Fault.IsLoad (f : Fault) : Prop := ∃ message findings, f = .load message findings

namespace Workflow

/-! ### What is described -/

/-- The text of a value in place of it, where it has one. -/
def textOf (v : Value) : String :=
  match Literal.stringify v with
  | .ok text => text
  | .error _ => ""

def idOf (position : Nat) (raw : Value) : String :=
  match raw.field? "id" with
  | some v => if v.truthy then v.display else defaultId position
  | none => defaultId position

def kindOf (raw : Value) : String := ((raw.field? "type").getD (.str "")).display

def targetOf (raw : Value) (name : String) : Option String :=
  match raw.field? name with
  | none | some .null => none
  | some v => some v.display

/-- What a node is given for the entry that holds properties. -/
def givenProperties (raw : Value) : Value := (raw.field? "properties").getD .null

/-- The entries of a node that become properties: those given together, and over them those that
stand beside the id and the kind. -/
def propertiesOf (raw : Value) : List (Scalar × Value) :=
  match raw, propertyEntries (givenProperties raw) with
  | .map entries, .ok inner => Entries.merge inner (entries.filter fun (k, _) => !isReserved k)
  | _, _ => []

def nodeOf (position : Nat) (raw : Value) : Node :=
  { id := idOf position raw
    kind := kindOf raw
    properties := Entries.ofList ((propertiesOf raw).map fun (k, v) =>
      ((Value.scalar k).display, textOf v))
    next := targetOf raw "next"
    trueNext := targetOf raw "trueNext"
    falseNext := targetOf raw "falseNext" }

/-! ### What can be read -/

def IsMapping (v : Value) : Prop := ∃ entries, v = .map entries

/-- Whether a value is a mapping, or builds one up: nothing, or members that are pairs of a key and
a value. -/
def BuildsMapping (v : Value) : Prop :=
  v.truthy = false ∨ IsMapping v ∨
    ∃ members, members? v = some members ∧ ∀ m ∈ members, ∃ k x, members? m = some [.scalar k, x]

/-- Whether a node can be read: it is a mapping, its properties are given as one, and all of it has
a text. -/
structure Legible (raw : Value) : Prop where
  mapping : IsMapping raw
  fields : ∀ name ∈ ["id", "type", "next", "trueNext", "falseNext"], ∀ v,
    raw.field? name = some v → v.hasNumerals = true
  given : BuildsMapping (givenProperties raw)
  texts : ∀ e ∈ propertiesOf raw, (Value.scalar e.1).hasNumerals = true ∧ e.2.HasText

/-- The first of the nodes that cannot be read is a mapping nevertheless. -/
def Trips (raws : List Value) : Prop :=
  ∃ before raw after, raws = before ++ raw :: after ∧ (∀ r ∈ before, Legible r) ∧
    IsMapping raw ∧ ¬ Legible raw

/-! ### Texts -/

theorem written_eq_ok {v : Value} {s : String} :
    v.written = .ok s ↔ v.hasNumerals = true ∧ s = v.display := by
  unfold Value.written
  split
  · rename_i has
    simp [has, eq_comm]
  · rename_i lacks
    simp [lacks]

theorem hasNumerals_of_not_truthy {v : Value} (h : v.truthy = false) : v.hasNumerals = true := by
  cases v with
  | scalar s =>
    cases s with
    | int n =>
      have zero : n = 0 := by simpa [Value.truthy] using h
      rw [zero, Value.hasNumerals]
      exact Json.numeral?_isSome Nat.one_pos (by decide) (by decide)
    | _ => simp [Value.hasNumerals]
  | list items =>
    cases items with
    | nil => simp [Value.hasNumerals, itemsHaveNumerals]
    | cons => cases h
  | map entries =>
    cases entries with
    | nil => simp [Value.hasNumerals, entriesHaveNumerals]
    | cons => cases h

theorem targetOf_null {raw : Value} {name : String}
    (h : raw.field? name = none ∨ raw.field? name = some .null) : targetOf raw name = none := by
  unfold targetOf
  rcases h with h | h <;> rw [h]

theorem targetOf_some {raw v : Value} {name : String} (h : raw.field? name = some v)
    (filled : v ≠ .null) : targetOf raw name = some v.display := by
  unfold targetOf
  rw [h]
  split
  · rename_i none
    cases none
  · rename_i null
    exact absurd (Option.some.inj null) filled
  · rename_i same
    rw [Option.some.inj same]

theorem pointer_eq_ok {raw : Value} {name : String} {target : Option String} :
    pointer raw name = .ok target ↔
      (∀ v, raw.field? name = some v → v.hasNumerals = true) ∧ target = targetOf raw name := by
  unfold pointer
  split
  · rename_i none
    rw [targetOf_null (.inl none), none]
    refine ok_eq_ok_iff ?_
    rintro _ ⟨⟩
  · rename_i null
    rw [targetOf_null (.inr null), null]
    refine ok_eq_ok_iff ?_
    rintro v ⟨⟩
    simp [Value.hasNumerals]
  · rename_i v filled given
    rw [targetOf_some given filled, given, map_eq_ok]
    constructor
    · rintro ⟨s, shown, rfl⟩
      obtain ⟨has, rfl⟩ := written_eq_ok.mp shown
      exact ⟨fun _ same => Option.some.inj same ▸ has, rfl⟩
    · rintro ⟨has, rfl⟩
      exact ⟨_, written_eq_ok.mpr ⟨has v rfl, rfl⟩, rfl⟩

theorem ofPairs_isOk (position : Nat) (members : List Value) :
    (∃ entries, ofPairs position members = .ok entries) ↔
      ∀ m ∈ members, ∃ k x, members? m = some [.scalar k, x] := by
  induction members generalizing position with
  | nil => simp [ofPairs]
  | cons m rest ih =>
    rw [List.forall_mem_cons, ← ih (position + 1), ofPairs]
    split
    · rename_i none
      simp [none]
    · rename_i k x pair
      simp [bind_eq_ok, pair, pure, Except.pure]
    · rename_i notKey pair
      refine ⟨nofun, ?_⟩
      rintro ⟨⟨k, x, keyed⟩, -⟩
      cases pair.symm.trans keyed
      exact absurd rfl (notKey k)
    · rename_i members _ noPair given
      refine ⟨nofun, ?_⟩
      rintro ⟨⟨k, x, keyed⟩, -⟩
      cases given.symm.trans keyed
      exact absurd rfl (noPair _ x)

theorem propertyEntries_isOk (v : Value) :
    (∃ entries, propertyEntries v = .ok entries) ↔ BuildsMapping v := by
  unfold propertyEntries BuildsMapping
  cases filled : v.truthy with
  | false => simp
  | true =>
    simp only [Bool.not_true, Bool.false_eq_true, if_false, reduceCtorEq, false_or]
    split
    · rename_i entries
      exact ⟨fun _ => .inl ⟨entries, rfl⟩, fun _ => ⟨entries, rfl⟩⟩
    · rename_i notMap
      have other : ¬ IsMapping v := by
        rintro ⟨entries, same⟩
        exact notMap entries same
      cases given : members? v with
      | none => simp [other]
      | some members =>
        simp only [other, false_or, Option.some.injEq, exists_eq_left', ← ofPairs_isOk 0,
          bind_eq_ok]
        constructor
        · rintro ⟨_, pairs, read, -⟩
          exact ⟨pairs, read⟩
        · rintro ⟨pairs, read⟩
          exact ⟨_, pairs, read, rfl⟩

theorem textOf_eq {v : Value} {text : String} (h : Literal.stringify v = .ok text) :
    textOf v = text := by rw [textOf, h]

theorem propertyTexts_eq_ok {entries : List (Scalar × Value)} {texts : List (String × String)} :
    propertyTexts entries = .ok texts ↔
      (∀ e ∈ entries, (Value.scalar e.1).hasNumerals = true ∧ e.2.HasText) ∧
        texts = entries.map fun (k, v) => ((Value.scalar k).display, textOf v) := by
  induction entries generalizing texts with
  | nil => exact ok_eq_ok_iff (List.forall_mem_nil _)
  | cons e rest ih =>
    obtain ⟨k, v⟩ := e
    simp only [propertyTexts, bind_eq_ok, List.forall_mem_cons, List.map_cons]
    constructor
    · rintro ⟨name, shown, text, written, more, read, same⟩
      cases same
      obtain ⟨has, rfl⟩ := written_eq_ok.mp shown
      obtain ⟨others, rfl⟩ := ih.mp read
      exact ⟨⟨⟨has, (Literal.stringify_isOk v).mp ⟨text, written⟩⟩, others⟩,
        by rw [textOf_eq written]⟩
    · rintro ⟨⟨⟨has, hasText⟩, others⟩, rfl⟩
      obtain ⟨text, written⟩ := (Literal.stringify_isOk v).mpr hasText
      exact ⟨_, written_eq_ok.mpr ⟨has, rfl⟩, text, written, _, ih.mpr ⟨others, rfl⟩,
        by rw [textOf_eq written]; rfl⟩

/-! ### Failures that refuse no workflow -/

/-- No failure here is the refusal of a workflow. -/
def Unrefused {α : Type} (x : Except Fault α) : Prop := ∀ f, x = .error f → ¬ f.IsLoad

namespace Unrefused

variable {α β : Type}

theorem ok (a : α) : Unrefused (.ok a) := nofun

theorem bind {x : Except Fault α} {g : α → Except Fault β} (first : Unrefused x)
    (more : ∀ a, Unrefused (g a)) : Unrefused (x >>= g) := by
  intro f failed
  rcases bind_eq_error.mp failed with here | ⟨a, -, behind⟩
  · exact first f here
  · exact more a f behind

theorem written (v : Value) : Unrefused v.written := by
  unfold Value.written
  split
  · exact ok _
  · rintro f ⟨⟩ ⟨_, _, ⟨⟩⟩

theorem pointer (raw : Value) (name : String) : Unrefused (Workflow.pointer raw name) := by
  unfold Workflow.pointer
  split
  iterate 2 exact ok _
  exact fun f failed => written _ f (map_eq_error.mp failed)

theorem ofPairs (position : Nat) (members : List Value) :
    Unrefused (Workflow.ofPairs position members) := by
  induction members generalizing position with
  | nil => exact ok _
  | cons m rest ih =>
    unfold Workflow.ofPairs
    split
    · rintro f ⟨⟩ ⟨_, _, ⟨⟩⟩
    · exact bind (ih _) fun _ => ok _
    iterate 2 rintro f ⟨⟩ ⟨_, _, ⟨⟩⟩

theorem propertyEntries (v : Value) : Unrefused (Workflow.propertyEntries v) := by
  unfold Workflow.propertyEntries
  split
  · exact ok _
  · split
    · exact ok _
    · split
      · exact bind (ofPairs _ _) fun _ => ok _
      · rintro f ⟨⟩ ⟨_, _, ⟨⟩⟩

theorem stringify (v : Value) : Unrefused (Literal.stringify v) := by
  rintro f failed ⟨_, _, rfl⟩
  rcases Literal.stringify_error failed with same | same <;> cases same

theorem propertyTexts (entries : List (Scalar × Value)) :
    Unrefused (Workflow.propertyTexts entries) := by
  induction entries with
  | nil => exact ok _
  | cons e rest ih =>
    exact bind (written _) fun _ => bind (stringify _) fun _ => bind ih fun _ => ok _

end Unrefused

theorem written_fails (v : Value) :
    (∃ f, v.written = .error f ∧ ¬ f.IsLoad) ↔ v.hasNumerals = false := by
  constructor
  · rintro ⟨f, failed, -⟩
    refine Bool.eq_false_iff.mpr fun has => ?_
    cases failed.symm.trans (written_eq_ok.mpr ⟨has, rfl⟩)
  · intro lacks
    cases shown : v.written with
    | ok s => exact absurd (written_eq_ok.mp shown).1 (by simp [lacks])
    | error f => exact ⟨f, rfl, Unrefused.written v f shown⟩

/-! ### Nodes -/

/-- The id of a node as it is read. -/
def readId (position : Nat) (raw : Value) : Except Fault String :=
  match raw.field? "id" with
  | some v => if v.truthy then v.written else .ok (defaultId position)
  | none => .ok (defaultId position)

/-- How a mapping is read as a node. -/
theorem nodeOfValue_map (position : Nat) {raw : Value} {entries : List (Scalar × Value)}
    (h : raw = .map entries) :
    nodeOfValue position raw = do
      let id ← readId position raw
      let kind ← ((raw.field? "type").getD (.str "")).written
      let next ← pointer raw "next"
      let trueNext ← pointer raw "trueNext"
      let falseNext ← pointer raw "falseNext"
      let inner ← propertyEntries (givenProperties raw)
      let texts ← propertyTexts
        (Entries.merge inner (entries.filter fun (k, _) => !isReserved k))
      return ⟨id, kind, Entries.ofList texts, next, trueNext, falseNext⟩ := by
  subst h
  unfold nodeOfValue readId
  dsimp only
  cases Value.field? "id" (.map entries) with
  | none => rfl
  | some v => cases filled : v.truthy <;> simp only [filled] <;> rfl

theorem readId_eq_ok {position : Nat} {raw : Value} {id : String} :
    readId position raw = .ok id ↔
      (∀ v, raw.field? "id" = some v → v.hasNumerals = true) ∧ id = idOf position raw := by
  unfold readId idOf
  cases raw.field? "id" with
  | none =>
    refine ok_eq_ok_iff ?_
    rintro _ ⟨⟩
  | some v =>
    cases filled : v.truthy with
    | true => simp [filled, written_eq_ok]
    | false => simp [filled, hasNumerals_of_not_truthy filled, eq_comm (a := id)]

theorem propertiesOf_eq {raw : Value} {entries inner : List (Scalar × Value)}
    (h : raw = .map entries) (given : propertyEntries (givenProperties raw) = .ok inner) :
    propertiesOf raw = Entries.merge inner (entries.filter fun (k, _) => !isReserved k) := by
  unfold propertiesOf
  rw [given, h]

/-- The kind is read as every other field is. -/
theorem kind_eq_ok {raw : Value} {kind : String} :
    ((raw.field? "type").getD (.str "")).written = .ok kind ↔
      (∀ v, raw.field? "type" = some v → v.hasNumerals = true) ∧ kind = kindOf raw := by
  rw [written_eq_ok, kindOf]
  cases raw.field? "type" with
  | none => simp [Value.str, Value.hasNumerals]
  | some v => simp

theorem nodeOfValue_eq_ok {position : Nat} {raw : Value} {n : Node} :
    nodeOfValue position raw = .ok n ↔ Legible raw ∧ n = nodeOf position raw := by
  by_cases mapping : IsMapping raw
  · obtain ⟨entries, h⟩ := mapping
    simp only [nodeOfValue_map position h, bind_eq_ok]
    constructor
    · rintro ⟨id, readId, kind, readKind, next, readNext, onTrue, readTrue, onFalse, readFalse,
        inner, given, texts, written, same⟩
      cases same
      obtain ⟨hid, rfl⟩ := readId_eq_ok.mp readId
      obtain ⟨hkind, rfl⟩ := kind_eq_ok.mp readKind
      obtain ⟨hnext, rfl⟩ := pointer_eq_ok.mp readNext
      obtain ⟨htrue, rfl⟩ := pointer_eq_ok.mp readTrue
      obtain ⟨hfalse, rfl⟩ := pointer_eq_ok.mp readFalse
      obtain ⟨hasTexts, rfl⟩ := propertyTexts_eq_ok.mp written
      rw [← propertiesOf_eq h given] at hasTexts ⊢
      refine ⟨⟨⟨entries, h⟩, ?_, (propertyEntries_isOk _).mp ⟨inner, given⟩, hasTexts⟩, rfl⟩
      simp only [List.forall_mem_cons]
      exact ⟨hid, hkind, hnext, htrue, hfalse, List.forall_mem_nil _⟩
    · rintro ⟨⟨-, fields, builds, hasTexts⟩, rfl⟩
      simp only [List.forall_mem_cons] at fields
      obtain ⟨hid, hkind, hnext, htrue, hfalse, -⟩ := fields
      obtain ⟨inner, given⟩ := (propertyEntries_isOk _).mpr builds
      refine ⟨_, readId_eq_ok.mpr ⟨hid, rfl⟩, _, kind_eq_ok.mpr ⟨hkind, rfl⟩,
        _, pointer_eq_ok.mpr ⟨hnext, rfl⟩, _, pointer_eq_ok.mpr ⟨htrue, rfl⟩,
        _, pointer_eq_ok.mpr ⟨hfalse, rfl⟩, inner, given, _,
        propertyTexts_eq_ok.mpr ⟨propertiesOf_eq h given ▸ hasTexts, rfl⟩, ?_⟩
      rw [← propertiesOf_eq h given]
      rfl
  · unfold nodeOfValue
    split
    · exact absurd ⟨_, rfl⟩ mapping
    · refine ⟨fun failed => ?_, fun h => absurd h.1.mapping mapping⟩
      cases failed

/-- A node is refused if it is no mapping, and fails in another way if it is one that cannot be
read. -/
theorem nodeOfValue_fails (position : Nat) (raw : Value) :
    (∃ f, nodeOfValue position raw = .error f ∧ ¬ f.IsLoad) ↔ IsMapping raw ∧ ¬ Legible raw := by
  by_cases mapping : IsMapping raw
  · obtain ⟨entries, h⟩ := mapping
    have unrefused : Unrefused (nodeOfValue position raw) := by
      rw [nodeOfValue_map position h]
      refine .bind ?_ fun _ => .bind (.written _) fun _ => .bind (.pointer _ _) fun _ =>
        .bind (.pointer _ _) fun _ => .bind (.pointer _ _) fun _ => .bind (.propertyEntries _)
        fun _ => .bind (.propertyTexts _) fun _ => .ok _
      unfold readId
      split
      · split
        · exact .written _
        · exact .ok _
      · exact .ok _
    constructor
    · rintro ⟨f, failed, -⟩
      refine ⟨⟨entries, h⟩, fun legible => ?_⟩
      cases failed.symm.trans (nodeOfValue_eq_ok.mpr ⟨legible, rfl⟩)
    · rintro ⟨-, illegible⟩
      cases read : nodeOfValue position raw with
      | ok n => exact absurd (nodeOfValue_eq_ok.mp read).1 illegible
      | error f => exact ⟨f, rfl, unrefused f read⟩
  · refine ⟨?_, fun h => absurd h.1 mapping⟩
    rintro ⟨f, failed, other⟩
    unfold nodeOfValue at failed
    split at failed
    · exact absurd ⟨_, rfl⟩ mapping
    · cases failed
      exact absurd ⟨_, _, rfl⟩ other

theorem nodesOfValues_eq_ok {position : Nat} {raws : List Value} {nodes : List Node} :
    nodesOfValues position raws = .ok nodes ↔
      (∀ raw ∈ raws, Legible raw) ∧ nodes = raws.mapIdx fun i raw => nodeOf (position + i) raw := by
  induction raws generalizing position nodes with
  | nil => exact ok_eq_ok_iff (List.forall_mem_nil _)
  | cons raw rest ih =>
    have behind : (rest.mapIdx fun i raw => nodeOf (position + (i + 1)) raw) =
        rest.mapIdx fun i raw => nodeOf (position + 1 + i) raw := by
      simp only [Nat.add_assoc, Nat.add_comm 1]
    simp only [nodesOfValues, bind_eq_ok, nodeOfValue_eq_ok, ih, List.forall_mem_cons,
      List.mapIdx_cons, behind]
    constructor
    · rintro ⟨n, ⟨legible, rfl⟩, more, ⟨others, rfl⟩, same⟩
      cases same
      exact ⟨⟨legible, others⟩, rfl⟩
    · rintro ⟨⟨legible, others⟩, rfl⟩
      refine ⟨_, ⟨legible, rfl⟩, _, ⟨others, rfl⟩, ?_⟩
      rfl

theorem trips_cons {raw : Value} {rest : List Value} :
    Trips (raw :: rest) ↔ (IsMapping raw ∧ ¬ Legible raw) ∨ (Legible raw ∧ Trips rest) := by
  constructor
  · rintro ⟨before, other, after, same, legible, trips⟩
    cases before with
    | nil =>
      cases same
      exact .inl trips
    | cons r before =>
      cases same
      obtain ⟨here, legible⟩ := List.forall_mem_cons.mp legible
      exact .inr ⟨here, before, other, after, rfl, legible, trips⟩
  · rintro (trips | ⟨here, before, other, after, rfl, legible, trips⟩)
    · exact ⟨[], raw, rest, rfl, List.forall_mem_nil _, trips⟩
    · exact ⟨raw :: before, other, after, rfl, List.forall_mem_cons.mpr ⟨here, legible⟩, trips⟩

theorem nodesOfValues_fails (position : Nat) (raws : List Value) :
    (∃ f, nodesOfValues position raws = .error f ∧ ¬ f.IsLoad) ↔ Trips raws := by
  induction raws generalizing position with
  | nil =>
    constructor
    · rintro ⟨f, failed, -⟩
      cases failed
    · rintro ⟨_ | _, _, _, same, -⟩ <;> cases same
  | cons raw rest ih =>
    rw [trips_cons, ← nodeOfValue_fails position raw, ← ih (position + 1)]
    simp only [nodesOfValues, bind_eq_error, nodeOfValue_eq_ok]
    constructor
    · rintro ⟨f, here | ⟨n, ⟨legible, rfl⟩, behind | ⟨nodes, -, done⟩⟩, other⟩
      · exact .inl ⟨f, here, other⟩
      · exact .inr ⟨legible, f, behind, other⟩
      · cases done
    · rintro (⟨f, here, other⟩ | ⟨legible, f, behind, other⟩)
      · exact ⟨f, .inl here, other⟩
      · exact ⟨f, .inr ⟨_, ⟨legible, rfl⟩, .inl behind⟩, other⟩

/-! ### Values from data text -/

end Workflow

theorem itemsHaveNumerals_iff {items : List Value} :
    itemsHaveNumerals items = true ↔ ∀ v ∈ items, v.hasNumerals = true := by
  induction items with
  | nil => simp [itemsHaveNumerals]
  | cons v rest ih => simp [itemsHaveNumerals, ih]

theorem entriesHaveNumerals_iff {entries : List (Scalar × Value)} :
    entriesHaveNumerals entries = true ↔
      ∀ e ∈ entries, (Value.scalar e.1).hasNumerals = true ∧ e.2.hasNumerals = true := by
  induction entries with
  | nil => simp [entriesHaveNumerals]
  | cons e rest ih =>
    obtain ⟨k, v⟩ := e
    rw [entriesHaveNumerals, Bool.and_eq_true, Bool.and_eq_true, ih, List.forall_mem_cons]

theorem Scalar.Writable.hasNumerals {s : Scalar} (h : s.Writable) :
    (Value.scalar s).hasNumerals = true := by
  cases s with
  | int n => rw [Value.hasNumerals]; exact h
  | _ => simp [Value.hasNumerals]

theorem Value.Writable.hasNumerals {v : Value} (h : v.Writable) : v.hasNumerals = true := by
  induction h with
  | scalar h => exact h.hasNumerals
  | list _ ih =>
    rw [Value.hasNumerals]
    exact itemsHaveNumerals_iff.mpr ih
  | map keys _ ih =>
    rw [Value.hasNumerals]
    exact entriesHaveNumerals_iff.mpr fun e he => ⟨(keys e he).hasNumerals, ih e he⟩

theorem Value.Writable.field {v x : Value} {name : String} (h : v.Writable)
    (there : v.field? name = some x) : x.Writable := by
  cases h with
  | map keys values =>
    obtain ⟨k, hk⟩ := Entries.exists_mem_of_get? there
    exact values _ hk
  | _ => cases there

theorem Value.Writable.item {items : List Value} (h : (Value.list items).Writable) :
    ∀ v ∈ items, v.Writable := by
  cases h with
  | list h => exact h

theorem Value.Writable.entries {entries : List (Scalar × Value)}
    (h : (Value.map entries).Writable) :
    ∀ e ∈ entries, e.1.Writable ∧ e.2.Writable := by
  cases h with
  | map keys values => exact fun e he => ⟨keys e he, values e he⟩

namespace Workflow

/-- Whether the properties are given as a mapping, or not at all. -/
def PlainProperties (raw : Value) : Prop :=
  ∀ v, raw.field? "properties" = some v → v = .null ∨ IsMapping v

theorem propertyEntries_map (entries : List (Scalar × Value)) :
    propertyEntries (.map entries) = .ok entries := by
  cases entries <;> rfl

/-- A node of data text can be read, if its properties are given as a mapping or not at all. -/
theorem legible_of_writable {raw : Value} (h : raw.Writable) (mapping : IsMapping raw)
    (plain : PlainProperties raw) : Legible raw := by
  obtain ⟨entries, rfl⟩ := mapping
  have inner : ∃ inner, propertyEntries (givenProperties (.map entries)) = .ok inner ∧
      ∀ e ∈ inner, e.1.Writable ∧ e.2.Writable := by
    unfold givenProperties
    cases there : Value.field? "properties" (.map entries) with
    | none => exact ⟨[], rfl, List.forall_mem_nil _⟩
    | some v =>
      rcases plain v there with rfl | ⟨inner, rfl⟩
      · exact ⟨[], rfl, List.forall_mem_nil _⟩
      · exact ⟨inner, propertyEntries_map inner, (h.field there).entries⟩
  obtain ⟨inner, given, writable⟩ := inner
  have texts : ∀ e ∈ propertiesOf (.map entries), e.1.Writable ∧ e.2.Writable := by
    rw [propertiesOf_eq rfl given]
    exact Entries.forall_mem_merge writable fun e he => h.entries e (List.mem_filter.mp he).1
  exact
    { mapping := ⟨entries, rfl⟩
      fields := fun name _ v there => (h.field there).hasNumerals
      given := (propertyEntries_isOk _).mp ⟨inner, given⟩
      texts := fun e he => ⟨(texts e he).1.hasNumerals, (texts e he).2.hasText⟩ }

end Workflow
end Runbook
