import Runbook.Proofs.Entries
import Runbook.Proofs.Workflow.Loading

/-! Saving a workflow and loading it again.

A saved node holds its properties beside its id, its kind and its pointers, and only the names keep
them apart. So a workflow comes back as it was, its empty pointers left out, just where none of its
properties has the name of another field (`ofValue_toValue`). -/
namespace Runbook

/-! ### Displays -/

theorem Number.Layout.decimal_ne_nil (l : Number.Layout) (d : Number.Decimal) :
    l.decimal d ≠ [] := by
  unfold Number.Layout.decimal
  dsimp only
  split
  · split
    · simp
    · split <;> simp
  · simp

theorem Number.Layout.plain_ne_empty (x : Number.Binary64) : Number.plain.text x ≠ "" := by
  unfold Number.Layout.text
  split
  · decide
  · split <;> decide
  · rename_i sign rank
    have filled : (if rank.val = 0 then ['0', '.', '0']
        else Number.plain.decimal (Number.shortest rank)) ≠ [] := by
      split
      · decide
      · exact Number.Layout.decimal_ne_nil Number.plain (Number.shortest rank)
    dsimp only
    split
    · simp
    · simpa using filled

theorem Scalar.shown_int_ne_empty (n : Int) : (Scalar.int n).shown ≠ "" := by
  show toString n ≠ ""
  cases n with
  | ofNat m =>
    show Nat.repr m ≠ ""
    intro empty
    have positive : 0 < (Nat.repr m).length := Nat.length_repr_pos
    rw [empty] at positive
    exact absurd positive (by decide)
  | negSucc m =>
    show "-" ++ Nat.repr (m + 1) ≠ ""
    simp

/-- What counts for something is shown as something, but for a moment without a text. -/
theorem Value.display_ne_empty {v : Value} (counts : v.truthy = true)
    (dated : v ≠ .scalar (.moment "")) : v.display ≠ "" := by
  cases v with
  | scalar s =>
    cases s with
    | null => cases counts
    | bool b => cases b <;> decide
    | int n => exact Scalar.shown_int_ne_empty n
    | float x => exact Number.Layout.plain_ne_empty x
    | str s => simpa [Value.truthy, Value.display, Scalar.display] using counts
    | bytes b => simp [Value.display, Scalar.display, Scalar.shown, Text.quotedBytes]
    | moment t =>
      rintro rfl
      exact dated rfl
  | list items => simp [Value.display, Value.shown]
  | map entries => simp [Value.display, Value.shown]

/-! ### Nodes as they are saved -/

namespace Node

/-- A node that can be told from its fields: it has an id, and no property has the name of another
field. -/
structure Rereads (n : Node) : Prop where
  named : n.id ≠ ""
  apart : ∀ p ∈ n.properties, p.1 ∉ Workflow.reserved

/-- A node without its empty pointers. -/
def reread (n : Node) : Node :=
  { n with
    next := Workflow.pointed? n.next
    trueNext := Workflow.pointed? n.trueNext
    falseNext := Workflow.pointed? n.falseNext }

/-- The pointers that are set, as they are saved. -/
def savedPointers (n : Node) : List (String × String) :=
  [("next", Workflow.pointed? n.next), ("trueNext", Workflow.pointed? n.trueNext),
    ("falseNext", Workflow.pointed? n.falseNext)].filterMap
      fun (name, target) => target.map (name, ·)

/-- A node as it is saved. -/
def saved (n : Node) : Value := .record ((Workflow.fieldsOf n).map fun (k, s) => (k, .str s))

end Node

namespace Workflow

variable {n : Node}

theorem fieldsOf_eq (n : Node) :
    fieldsOf n =
      Entries.merge (Entries.merge [("id", n.id), ("type", n.kind)] n.properties)
        n.savedPointers := rfl

theorem field?_saved (n : Node) (name : String) :
    n.saved.field? name = (Entries.get? name (fieldsOf n)).map .str := by
  rw [Node.saved, Value.field?_record]
  exact Entries.get?_map (f := id) (fun _ _ => rfl) Value.str name (fieldsOf n)

theorem keys_fieldsOf_nodup (n : Node) : (Entries.keys (fieldsOf n)).Nodup := by
  have given : (Entries.keys [("id", n.id), ("type", n.kind)]).Nodup := by simp [Entries.keys]
  exact Entries.keys_nodup_merge (Entries.keys_nodup_merge given)

/-- Members of a text are characters, and no character is a pair. -/
theorem not_buildsMapping_str {s : String} (filled : s ≠ "") : ¬ BuildsMapping (.str s) := by
  rintro (empty | ⟨entries, mapping⟩ | ⟨members, given, pairs⟩)
  · exact filled (by simpa [Value.truthy] using empty)
  · cases mapping
  · cases given
    have some : s.toList ≠ [] := fun none => filled (String.toList_eq_nil_iff.mp none)
    obtain ⟨c, rest, chars⟩ := List.exists_cons_of_ne_nil some
    rw [chars] at pairs
    obtain ⟨k, x, pair⟩ := (List.forall_mem_cons.mp pairs).1
    simp [members?] at pair

/-- The properties that a saved node gives together are a text, if any, and no text but the empty
one builds a mapping. -/
theorem propertyEntries_saved (legible : Legible n.saved) :
    propertyEntries (givenProperties n.saved) = .ok [] := by
  have builds := legible.given
  unfold givenProperties at builds ⊢
  rw [field?_saved] at builds ⊢
  rcases given : Entries.get? "properties" (fieldsOf n) with _ | s <;> rw [given] at builds
  · rfl
  · have empty : s = "" := by
      by_contra filled
      exact not_buildsMapping_str filled builds
    rw [empty]
    rfl

/-- The fields of a saved node that are read as its properties. -/
def ownFields (n : Node) : List (String × String) :=
  (fieldsOf n).filter fun p => !reserved.contains p.1

theorem keys_ownFields_nodup (n : Node) : (Entries.keys (ownFields n)).Nodup :=
  (keys_fieldsOf_nodup n).sublist (List.filter_sublist.map _)

theorem propertiesOf_saved (given : propertyEntries (givenProperties n.saved) = .ok []) :
    propertiesOf n.saved = (ownFields n).map fun e => (Scalar.str e.1, Value.str e.2) := by
  have entries : n.saved = .map ((fieldsOf n).map fun e => (Scalar.str e.1, Value.str e.2)) := by
    simp [Node.saved, Value.record]
  have merged := Entries.merge_map Scalar.str_beq Value.str [] (ownFields n)
  have distinct : Entries.merge [] (ownFields n) = ownFields n :=
    Entries.ofList_of_nodup (keys_ownFields_nodup n)
  rw [distinct] at merged
  rw [propertiesOf_eq entries given, List.filter_map]
  exact merged

theorem nodeOf_saved_properties (given : propertyEntries (givenProperties n.saved) = .ok [])
    (position : Nat) : (nodeOf position n.saved).properties = ownFields n := by
  have texts : (ownFields n).map (fun e => ((Value.scalar (.str e.1)).display,
      textOf (.str e.2))) = ownFields n := List.map_id _
  show Entries.ofList ((propertiesOf n.saved).map _) = ownFields n
  rw [propertiesOf_saved given, List.map_map]
  exact (congrArg Entries.ofList texts).trans (Entries.ofList_of_nodup (keys_ownFields_nodup n))

theorem idOf_str {raw : Value} {s : String} (h : raw.field? "id" = some (.str s)) (position : Nat) :
    idOf position raw = if s = "" then defaultId position else s := by
  unfold idOf
  rw [h]
  by_cases empty : s = "" <;> simp [Value.truthy, Value.display, Scalar.display, empty]

/-- Whatever a saved node is read as, it can be told from its fields. -/
theorem rereads_nodeOf_saved (legible : Legible n.saved) (position : Nat) :
    (nodeOf position n.saved).Rereads where
  named := by
    show idOf position n.saved ≠ ""
    rcases id : Entries.get? "id" (fieldsOf n) with _ | s
    · rw [idOf, field?_saved, id]
      simp [defaultId]
    · rw [idOf_str (by rw [field?_saved, id]; rfl)]
      split
      · simp [defaultId]
      · assumption
  apart := by
    intro p there
    rw [nodeOf_saved_properties (propertyEntries_saved legible)] at there
    simpa using (List.mem_filter.mp there).2

/-! ### Nodes that come back -/

theorem keys_savedPointers (n : Node) :
    (Entries.keys n.savedPointers).Sublist ["next", "trueNext", "falseNext"] :=
  Entries.keys_given_sublist _

theorem reserved_of_savedPointers {k : String} (h : k ∈ Entries.keys n.savedPointers) :
    k ∈ reserved := by
  have pointers : ∀ k ∈ ["next", "trueNext", "falseNext"], k ∈ reserved := by decide
  exact pointers k ((keys_savedPointers n).subset h)

theorem get?_savedPointers (n : Node) :
    Entries.get? "next" n.savedPointers = pointed? n.next ∧
      Entries.get? "trueNext" n.savedPointers = pointed? n.trueNext ∧
      Entries.get? "falseNext" n.savedPointers = pointed? n.falseNext := by
  unfold Node.savedPointers
  cases pointed? n.next <;> cases pointed? n.trueNext <;> cases pointed? n.falseNext <;>
    exact ⟨rfl, rfl, rfl⟩

/-- The fields of a node that can be told from them do not get into each other's way. -/
theorem fieldsOf_rereads (rereads : n.Rereads) (distinct : (Entries.keys n.properties).Nodup) :
    fieldsOf n = [("id", n.id), ("type", n.kind)] ++ n.properties ++ n.savedPointers := by
  have apart : ∀ k ∈ Entries.keys n.properties, k ∉ reserved := by
    intro k there
    obtain ⟨p, hp, rfl⟩ := List.mem_map.mp there
    exact rereads.apart p hp
  have own : ∀ k ∈ ["id", "type"], k ∈ reserved ∧ k ∉ ["next", "trueNext", "falseNext"] := by
    decide
  have front : (Entries.keys ([("id", n.id), ("type", n.kind)] ++ n.properties)).Nodup := by
    rw [Entries.keys, List.map_append]
    refine List.nodup_append.mpr ⟨by simp, distinct, ?_⟩
    rintro k here _ there rfl
    exact apart k there (own k here).1
  have all : (Entries.keys ([("id", n.id), ("type", n.kind)] ++ n.properties ++
      n.savedPointers)).Nodup := by
    rw [Entries.keys, List.map_append]
    refine List.nodup_append.mpr ⟨front, (keys_savedPointers n).nodup (by decide), ?_⟩
    rintro k here _ there rfl
    rw [List.map_append] at here
    rcases List.mem_append.mp here with here | here
    · exact (own k here).2 ((keys_savedPointers n).subset there)
    · exact apart k here (reserved_of_savedPointers there)
  rw [fieldsOf_eq, Entries.merge_of_nodup front, Entries.merge_of_nodup all]

/-- What a saved node has under the name of one of its own fields. -/
theorem get?_fieldsOf (rereads : n.Rereads) (distinct : (Entries.keys n.properties).Nodup)
    {name : String} (own : name ∈ reserved) :
    Entries.get? name (fieldsOf n) =
      (Entries.get? name [("id", n.id), ("type", n.kind)]).or
        (Entries.get? name n.savedPointers) := by
  have none : Entries.get? name n.properties = none := by
    refine Entries.get?_of_not_mem fun there => ?_
    obtain ⟨p, hp, rfl⟩ := List.mem_map.mp there
    exact rereads.apart p hp own
  rw [fieldsOf_rereads rereads distinct, Entries.get?_append, Entries.get?_append, none,
    Option.or_none]

theorem propertyEntries_rereads (rereads : n.Rereads)
    (distinct : (Entries.keys n.properties).Nodup) :
    propertyEntries (givenProperties n.saved) = .ok [] := by
  have none : Entries.get? "properties" (fieldsOf n) = none := by
    rw [get?_fieldsOf rereads distinct (by decide)]
    refine Entries.get?_of_not_mem fun there => ?_
    have pointer := (keys_savedPointers n).subset there
    revert pointer
    decide
  rw [givenProperties, field?_saved, none]
  rfl

theorem legible_saved (rereads : n.Rereads) (distinct : (Entries.keys n.properties).Nodup) :
    Legible n.saved where
  mapping := ⟨_, rfl⟩
  fields := by
    intro name _ v there
    rw [field?_saved] at there
    obtain ⟨s, -, rfl⟩ := Option.map_eq_some_iff.mp there
    simp [Value.str, Value.hasNumerals]
  given := (propertyEntries_isOk _).mp ⟨_, propertyEntries_rereads rereads distinct⟩
  texts := by
    rw [propertiesOf_saved (propertyEntries_rereads rereads distinct)]
    refine List.forall_mem_map.mpr fun e _ => ⟨?_, ?_⟩
    · simp [Value.hasNumerals]
    · simp [Value.HasText]

theorem ownFields_rereads (rereads : n.Rereads) (distinct : (Entries.keys n.properties).Nodup) :
    ownFields n = n.properties := by
  have kept : n.properties.filter (fun p => !reserved.contains p.1) = n.properties :=
    List.filter_eq_self.mpr fun p there => by simpa using rereads.apart p there
  have dropped : n.savedPointers.filter (fun p => !reserved.contains p.1) = [] :=
    List.filter_eq_nil_iff.mpr fun p there => by
      simpa using reserved_of_savedPointers (List.mem_map_of_mem there)
  rw [ownFields, fieldsOf_rereads rereads distinct, List.filter_append, List.filter_append, kept,
    dropped, List.append_nil]
  rfl

theorem targetOf_saved {name : String} {target : Option String}
    (there : Entries.get? name (fieldsOf n) = target) : targetOf n.saved name = target := by
  have field := field?_saved n name
  rw [there] at field
  cases target with
  | none => exact targetOf_null (.inl field)
  | some s => exact targetOf_some field nofun

/-- A node that can be told from its fields is read from them again. -/
theorem nodeOf_saved (rereads : n.Rereads) (distinct : (Entries.keys n.properties).Nodup)
    (position : Nat) : nodeOf position n.saved = n.reread := by
  have field {name : String} (own : name ∈ reserved) := get?_fieldsOf rereads distinct own
  obtain ⟨next, onTrue, onFalse⟩ := get?_savedPointers n
  have id : idOf position n.saved = n.id := by
    rw [idOf_str (by rw [field?_saved, field (by decide)]; rfl), if_neg rereads.named]
  have kind : kindOf n.saved = n.kind := by
    rw [kindOf, field?_saved, field (by decide)]
    rfl
  have read := nodeOf_saved_properties (propertyEntries_rereads rereads distinct) position
  have targets : targetOf n.saved "next" = pointed? n.next ∧
      targetOf n.saved "trueNext" = pointed? n.trueNext ∧
      targetOf n.saved "falseNext" = pointed? n.falseNext :=
    ⟨targetOf_saved ((field (by decide)).trans next),
      targetOf_saved ((field (by decide)).trans onTrue),
      targetOf_saved ((field (by decide)).trans onFalse)⟩
  obtain ⟨next, onTrue, onFalse⟩ := targets
  rw [ownFields_rereads rereads distinct] at read
  show Node.mk _ _ (nodeOf position n.saved).properties _ _ _ = _
  rw [read, id, kind, next, onTrue, onFalse]
  rfl

/-! ### Workflows that come back -/

theorem field?_toValue (w : Workflow) :
    w.toValue.field? "name" = some (.str w.name) ∧
      w.toValue.field? "nodes" = some (.list (w.nodes.map Node.saved)) := by
  rw [toValue, Value.field?_record, Value.field?_record]
  exact ⟨rfl, rfl⟩

/-- A workflow with the nodes of another one, without their empty pointers, from another place. -/
def reread (w : Workflow) (other : Option String) : Workflow :=
  ⟨w.name, w.nodes.map Node.reread, other⟩

/-- Whether two workflows have one name and the same nodes in order; an empty pointer counts as
none. -/
def Same (a b : Workflow) : Prop :=
  a.name = b.name ∧ a.nodes.map Node.reread = b.nodes.map Node.reread

theorem pointed?_pointed? (p : Option String) : pointed? (pointed? p) = pointed? p := by
  cases filled : pointed? p with
  | none => rfl
  | some target => exact pointed?_eq_some.mpr ⟨rfl, (pointed?_eq_some.mp filled).2⟩

theorem reread_reread (n : Node) : n.reread.reread = n.reread := by
  simp only [Node.reread, pointed?_pointed?]

theorem same_reread (w : Workflow) (other : Option String) : Same (w.reread other) w := by
  refine ⟨rfl, ?_⟩
  rw [reread, List.map_map]
  exact List.map_congr_left fun n _ => reread_reread n

theorem ids_reread (w : Workflow) (other : Option String) : (w.reread other).ids = w.ids := by
  rw [ids, reread, List.map_map]
  rfl

theorem pointers_reread {n : Node} {p : String × Option String} (h : p ∈ n.reread.pointers)
    {target : String} (set : p.2 = some target) : (p.1, some target) ∈ n.pointers := by
  have kept {q : Option String} (there : pointed? q = some target) : q = some target :=
    (pointed?_eq_some.mp there).1
  have named : n.reread.pointers =
      [("next", pointed? n.next), ("trueNext", pointed? n.trueNext),
        ("falseNext", pointed? n.falseNext), ("onCancel", n.onCancel)] := rfl
  rw [named] at h
  simp only [List.mem_cons, List.not_mem_nil, or_false] at h
  rcases h with rfl | rfl | rfl | rfl
  iterate 3 simp [Node.pointers, kept set]
  simp [Node.pointers, ← show n.onCancel = some target from set]

theorem sound_reread {w : Workflow} (h : w.Sound) (other : Option String) :
    (w.reread other).Sound where
  nonempty := fun none => h.nonempty (List.map_eq_nil_iff.mp none)
  distinct := by
    rw [ids_reread]
    exact h.distinct
  leads := by
    rw [ids_reread]
    intro _ there p pointer target set filled
    obtain ⟨n, hn, rfl⟩ := List.mem_map.mp there
    exact h.leads n hn _ (pointers_reread pointer set) target rfl filled

/-- How a saved workflow is read, whose nodes can be told from their fields. -/
theorem described_toValue {w : Workflow} (rereads : ∀ n ∈ w.nodes, n.Rereads)
    (distinct : ∀ n ∈ w.nodes, (Entries.keys n.properties).Nodup) (other : Option String) :
    described w.toValue other (w.nodes.map Node.saved) = w.reread other := by
  have nodes : (w.nodes.map Node.saved).mapIdx (fun i raw => nodeOf (i + 1) raw) =
      w.nodes.map Node.reread := by
    refine List.ext_getElem (by simp) fun i here _ => ?_
    have there := List.getElem_mem (l := w.nodes) (by simpa using here)
    simp only [List.getElem_mapIdx, List.getElem_map]
    exact nodeOf_saved (rereads _ there) (distinct _ there) (i + 1)
  rw [described, nodes, givenName, (field?_toValue w).1]
  rfl

/-- What a workflow is read from is told from its fields again, if it is read from what a workflow
is saved as. -/
theorem rereads_of_ofValue {w w' : Workflow} {other : Option String}
    (h : ofValue w.toValue other = .ok w') : ∀ n ∈ w'.nodes, n.Rereads := by
  obtain ⟨raws, listed, legible, -, -, rfl⟩ := ofValue_eq_ok.mp h
  cases (field?_toValue w).2.symm.trans listed
  intro n there
  obtain ⟨i, here, rfl⟩ := List.mem_mapIdx.mp there
  have saved := legible _ (List.getElem_mem here)
  rw [List.getElem_map] at saved ⊢
  exact rereads_nodeOf_saved saved (i + 1)

theorem rereads_reread (n : Node) : n.reread.Rereads ↔ n.Rereads :=
  ⟨fun h => ⟨h.named, h.apart⟩, fun h => ⟨h.named, h.apart⟩⟩

theorem rereads_of_same {w w' : Workflow} (same : Same w' w) (h : ∀ n ∈ w'.nodes, n.Rereads) :
    ∀ n ∈ w.nodes, n.Rereads := by
  intro n there
  have image := List.mem_map_of_mem (f := Node.reread) there
  rw [← same.2] at image
  obtain ⟨n', there', alike⟩ := List.mem_map.mp image
  exact (rereads_reread n).mp (alike ▸ (rereads_reread n').mpr (h n' there'))

/-! ### Workflows that were read -/

theorem keys_nodup_of_ofValue {v : Value} {path : Option String} {w : Workflow}
    (h : ofValue v path = .ok w) : ∀ n ∈ w.nodes, (Entries.keys n.properties).Nodup := by
  obtain ⟨raws, -, -, -, -, rfl⟩ := ofValue_eq_ok.mp h
  intro n there
  obtain ⟨i, here, rfl⟩ := List.mem_mapIdx.mp there
  exact Entries.keys_nodup_ofList _

/-- A node has an empty id only where its id is given as a moment without a text. -/
theorem idOf_eq_empty {position : Nat} {raw : Value} (h : idOf position raw = "") :
    raw.field? "id" = some (.scalar (.moment "")) := by
  unfold idOf at h
  split at h
  · rename_i v given
    split at h
    · rename_i counts
      by_contra dated
      refine Value.display_ne_empty counts (fun same => dated ?_) h
      rw [given, same]
    · simp [defaultId] at h
  · simp [defaultId] at h

/-- A workflow that was read and is saved comes back as the same workflow just where every node can
be told from its fields: none of its properties has the name of another field. Then it comes back
without its empty pointers and otherwise as it was. An empty id, which does not come back either,
has no other source than a moment without a text. -/
theorem ofValue_toValue {v : Value} {path : Option String} {w : Workflow}
    (accepted : ofValue v path = .ok w) (other : Option String) :
    ((∃ w', ofValue w.toValue other = .ok w' ∧ Same w' w) ↔ ∀ n ∈ w.nodes, n.Rereads) ∧
      ((∀ n ∈ w.nodes, n.Rereads) → ofValue w.toValue other = .ok (w.reread other)) ∧
      ∀ n ∈ w.nodes, n.id = "" → ∃ raws raw, v.field? "nodes" = some (.list raws) ∧ raw ∈ raws ∧
        raw.field? "id" = some (.scalar (.moment "")) := by
  have returns (rereads : ∀ n ∈ w.nodes, n.Rereads) :
      ofValue w.toValue other = .ok (w.reread other) := by
    have distinct := keys_nodup_of_ofValue accepted
    have described := described_toValue rereads distinct other
    obtain ⟨raws, -, -, -, sound, rfl⟩ := ofValue_eq_ok.mp accepted
    refine ofValue_eq_ok.mpr ⟨_, (field?_toValue _).2, ?_, ?_, ?_, described.symm⟩
    · exact List.forall_mem_map.mpr fun n there =>
        legible_saved (rereads n there) (distinct n there)
    · rw [givenName, (field?_toValue _).1]
      simp [Value.str, Value.hasNumerals]
    · rw [described]
      exact sound_reread sound other
  refine ⟨⟨?_, fun rereads => ⟨_, returns rereads, same_reread w other⟩⟩, returns, ?_⟩
  · rintro ⟨w', read, same⟩
    exact rereads_of_same same (rereads_of_ofValue read)
  · obtain ⟨raws, listed, -, -, -, rfl⟩ := ofValue_eq_ok.mp accepted
    intro n there empty
    obtain ⟨i, here, rfl⟩ := List.mem_mapIdx.mp there
    exact ⟨raws, _, listed, List.getElem_mem here, idOf_eq_empty empty⟩

/-- The workflow of one node with an id, a kind, one property and an empty pointer. -/
def pointless : Workflow := ⟨"", [⟨"a", "set", [("x", "1")], some "", none, none⟩], none⟩

theorem ofValue_toValue_pointless :
    ofValue (single (setting ++ [("x", .int 1), ("next", .str "")])) none = .ok pointless ∧
      (∀ n ∈ pointless.nodes, n.Rereads) ∧
      ofValue pointless.toValue (some "w.yaml") =
        .ok ⟨"", [⟨"a", "set", [("x", "1")], none, none, none⟩], some "w.yaml"⟩ := by
  have accepted : ofValue (single (setting ++ [("x", .int 1), ("next", .str "")])) none =
      .ok pointless := by
    with_unfolding_all rfl
  have rereads : ∀ n ∈ pointless.nodes, n.Rereads :=
    List.forall_mem_singleton.mpr ⟨by decide, by decide⟩
  exact ⟨accepted, rereads, (ofValue_toValue accepted (some "w.yaml")).2.1 rereads⟩

/-- A node whose properties are given together, and are one property. -/
def gathered (name value : String) : List (String × Value) :=
  setting ++ [("properties", .record [(name, .str value)])]

/-- Three workflows that are read and do not come back as they were: a property has the name of the
id, of a pointer, or of the entry for the properties. The first comes back under another id and
without its property, the second is refused, and the third fails with no refusal. -/
theorem ofValue_toValue_shadowed :
    let saved (name value : String) : Except Fault Workflow := do
      ofValue (← ofValue (single (gathered name value)) none).toValue none
    ofValue (single (gathered "id" "b")) none =
        .ok ⟨"", [⟨"a", "set", [("id", "b")], none, none, none⟩], none⟩ ∧
      saved "id" "b" = .ok ⟨"", [⟨"b", "set", [], none, none, none⟩], none⟩ ∧
      ofValue (single (gathered "next" "gone")) none =
        .ok ⟨"", [⟨"a", "set", [("next", "gone")], none, none, none⟩], none⟩ ∧
      saved "next" "gone" = .error (refused (.dangling "a" "next" "gone")) ∧
      ofValue (single (gathered "properties" "x")) none =
        .ok ⟨"", [⟨"a", "set", [("properties", "x")], none, none, none⟩], none⟩ ∧
      saved "properties" "x" = .error (.badValue (pairMessage 0 1)) := by
  refine ⟨?_, ?_, ?_, ?_, ?_, ?_⟩
  all_goals with_unfolding_all rfl

end Workflow
end Runbook
