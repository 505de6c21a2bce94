import Runbook.Handover
import Runbook.Proofs.Run.Steps
import Runbook.Proofs.Scope
import Runbook.Proofs.Walk.Isolation

/-! What a node that runs a workflow writes.

A node that describes its outputs binds none but the variables that the description mentions, and
these to what the variables of the workflow hold that are mentioned for them. A description that
names no variable of the workflow does not limit anything: then all of them are bound. -/

/-! ## What a nested call may write

The text that describes the outputs of a call mentions variables of the caller, each with one of
the call, as the entries of a mapping or as pairs. Only what the text mentions is handed back, if it
names any variable of the call (`mem_exports`). A text that names none is taken for no description
at all, and everything is handed back (`outputs_eq_nil`). -/
namespace Runbook

/-- A piece of text is a pair: a name and a value around its first equals sign. -/
def Listing.IsPair (piece : List Char) (name value : String) : Prop :=
  ∃ key rest, Text.cutAt '=' piece = (key, some rest) ∧ Text.trim key ≠ [] ∧
    name = String.ofList (Text.trim key) ∧ value = String.ofList (Text.trim rest)

theorem Listing.isPair_of_mem {s name value : String} (h : (name, value) ∈ pairs s) :
    ∃ piece ∈ Text.splitAt ',' s.toList, IsPair piece name value := by
  obtain ⟨piece, among, read⟩ := List.mem_filterMap.mp (Entries.mem_of_mem_ofList h)
  refine ⟨piece, among, ?_⟩
  split at read
  · rename_i key rest cut
    dsimp only at read
    split at read
    · cases read
    · rename_i filled
      cases read
      exact ⟨key, rest, cut, fun empty => filled (by rw [empty]; rfl), rfl, rfl⟩
  · cases read

namespace Handover

/-- The text mentions a variable of the caller, for one of the call. -/
inductive Mentions (text : String) : String → String → Prop
  | entry {entries : List (Scalar × Value)} {k : Scalar} {child : String}
    (reads : Json.parse text = .ok (.map entries)) (among : (k, .str child) ∈ entries) :
    Mentions text k.display child
  | pair {piece : List Char} {parent child : String}
    (other : ∀ entries, Json.parse text ≠ .ok (.map entries))
    (among : piece ∈ Text.splitAt ',' text.toList) (pair : Listing.IsPair piece parent child)
    (filled : child ≠ "") : Mentions text parent child

/-- The text names no variable of the call. -/
inductive Nameless (text : String) : Prop
  | entries {entries : List (Scalar × Value)} (reads : Json.parse text = .ok (.map entries))
    (nowhere : ∀ e ∈ entries, ∀ name, e.2 ≠ .str name)
  | pairs (other : ∀ entries, Json.parse text ≠ .ok (.map entries))
    (nowhere : ∀ b ∈ Listing.pairs text, b.2 = "")

theorem mapping?_some {text : String} {entries : List (Scalar × Value)} :
    mapping? text = .ok (some entries) ↔ Json.parse text = .ok (.map entries) := by
  unfold mapping?
  cases Json.parse text with
  | ok v => cases v <;> simp
  | error f => cases bad : f.isBadValue <;> simp [bad]

theorem mapping?_none {text : String} (h : mapping? text = .ok none)
    (entries : List (Scalar × Value)) : Json.parse text ≠ .ok (.map entries) := by
  intro reads
  rw [mapping?_some.mpr reads] at h
  cases h

/-- Of a text that is not blank, the outputs are read as the entries of a mapping or as pairs. -/
theorem outputs_cases {text : String} {outs : List (String × String)}
    (filled : Text.blank text.toList = false) (h : outputs text = .ok outs) :
    (∃ entries, Json.parse text = .ok (.map entries) ∧ outs = entries.filterMap fun (k, v) =>
        match v with
        | .str name => some (k.display, name)
        | _ => none) ∨
      (∀ entries, Json.parse text ≠ .ok (.map entries)) ∧
        outs = (Listing.pairs text).filter fun (_, name) => !name.isEmpty := by
  simp only [outputs, filled, Bool.false_eq_true, if_false] at h
  rcases read : mapping? text with f | _ | entries <;> rw [read] at h <;> cases h
  · exact .inr ⟨mapping?_none read, rfl⟩
  · exact .inl ⟨entries, mapping?_some.mp read, rfl⟩

/-- Every output is mentioned. -/
theorem mentions_of_mem {text parent child : String} {outs : List (String × String)}
    (filled : Text.blank text.toList = false) (h : outputs text = .ok outs)
    (among : (parent, child) ∈ outs) : Mentions text parent child := by
  rcases outputs_cases filled h with ⟨entries, reads, rfl⟩ | ⟨other, rfl⟩
  · obtain ⟨⟨k, v⟩, entry, taken⟩ := List.mem_filterMap.mp among
    dsimp only at taken
    split at taken
    · cases taken
      exact .entry reads entry
    · cases taken
  · obtain ⟨pair, named⟩ := List.mem_filter.mp among
    obtain ⟨piece, there, isPair⟩ := Listing.isPair_of_mem pair
    exact .pair other there isPair (by simpa using named)

/-- There is no output just where the text names no variable of the call. -/
theorem outputs_eq_nil {text : String} {outs : List (String × String)}
    (filled : Text.blank text.toList = false) (h : outputs text = .ok outs) :
    outs = [] ↔ Nameless text := by
  rcases outputs_cases filled h with ⟨entries, reads, rfl⟩ | ⟨other, rfl⟩
  · rw [List.filterMap_eq_nil_iff]
    constructor
    · refine fun passed => .entries reads ?_
      rintro ⟨k, v⟩ there name rfl
      cases passed _ there
    · rintro (⟨reads', nowhere⟩ | ⟨other, -⟩)
      · cases reads.symm.trans reads'
        rintro ⟨k, v⟩ there
        dsimp only
        split
        · exact absurd rfl (nowhere _ there _)
        · rfl
      · exact absurd reads (other entries)
  · rw [List.filter_eq_nil_iff]
    constructor
    · exact fun passed => .pairs other fun b there => by simpa using passed b there
    · rintro (⟨reads, -⟩ | ⟨-, nowhere⟩)
      · exact absurd reads (other _)
      · intro b there
        simp [nowhere b there]

end Handover

namespace Scope

/-- What a description hands back is the variable that it gives for the name. -/
theorem mem_exports {child : Scope} {outs : List (String × String)} {beginning : String}
    {b : String × Value} (some : outs ≠ []) (h : b ∈ child.exports outs beginning) :
    ∃ name, (b.1, name) ∈ outs ∧ child.get? name = .some b.2 := by
  have explicit : outs.isEmpty = false := by
    cases outs with
    | nil => exact absurd rfl some
    | cons => rfl
  simp only [exports, explicit, Bool.false_eq_true, if_false] at h
  obtain ⟨⟨parent, name⟩, described, found⟩ :=
    List.mem_filterMap.mp (Entries.mem_of_mem_ofList h)
  obtain ⟨v, held, rfl⟩ := Option.map_eq_some_iff.mp found
  exact ⟨name, described, held⟩

/-- Without a description every variable is handed back behind the common beginning. -/
theorem mem_keys_exports_nil {child : Scope} {beginning name : String} :
    name ∈ Entries.keys (child.exports [] beginning) ↔
      ∃ own ∈ child.names, beginning ++ own = name := by
  show name ∈ Entries.keys (Entries.ofList (child.bindings.map _)) ↔ _
  rw [Entries.mem_keys_ofList]
  simp [Entries.keys, names]

end Scope
end Runbook

namespace Runbook

open Visit Handover

variable {σ : Type}

namespace Visiting

variable {v : Visiting σ} {properties : List (String × String)}

theorem descends_context (filled : fillProperties v.place.scope v.node.properties = .ok properties)
    {d : Descent σ} (visit : v.prelude.1 = .descends d) : d.context = v.context properties := by
  have visit : v.prelude = (.descends d, v.prelude.2) := Prod.ext visit rfl
  obtain ⟨-, properties', filled', context⟩ := prelude_descends visit
  cases filled.symm.trans filled'
  exact context

/-- A node that runs a workflow and describes its outputs with a text that is not blank. It binds
nothing if it does not come to the workflow. If the text names variables of the workflow, what is
handed back is mentioned with the variable whose value it is, and behind the visit a variable has
such a value or the one from before. If the text names none, every variable of the workflow is
handed back. -/
theorem describes_outputs (starts : v.Starts)
    (nested : v.walk.registry.handler? v.node.kind = some .nested)
    (filled : fillProperties v.place.scope v.node.properties = .ok properties)
    (explicit : Text.blank ((v.context properties).property "output").toList = false) (fuel : Nat) :
    let text := (v.context properties).property "output"
    let behind := (v.walk.advance (Walk.walk fuel) v.place v.session).1.scope
    (∀ r, v.prelude.1 = .settled r → behind = v.place.scope) ∧
      ∀ d, v.prelude.1 = .descends d →
        let child := (v.nestedRun d fuel).1.2
        (¬ Nameless text →
          (∀ writes, d.handedBack child = .ok writes → ∀ b ∈ writes,
            ∃ name, Mentions text b.1 name ∧ child.get? name = some b.2) ∧
          ∀ name, behind.get? name = v.place.scope.get? name ∨
            ∃ own value, Mentions text name own ∧ child.get? own = some value ∧
              behind.get? name = some value) ∧
        (Nameless text → ∀ writes, d.handedBack child = .ok writes → ∀ name,
          name ∈ Entries.keys writes ↔
            ∃ own ∈ child.names, (v.context properties).property "prefix" ++ own = name) := by
  intro text behind
  refine ⟨fun r visit => v.advance_scope_settled starts nested visit _, ?_⟩
  intro d visit child
  have context := descends_context filled visit
  have mentioned (named : ¬ Nameless text) (writes : List (String × Value))
      (handed : d.handedBack child = .ok writes) (b : String × Value) (among : b ∈ writes) :
      ∃ name, Mentions text b.1 name ∧ child.get? name = some b.2 := by
    obtain ⟨outs, described, rfl⟩ := Descent.handedBack_ok.mp handed
    rw [context] at described
    have some : outs ≠ [] := mt (outputs_eq_nil explicit described).mp named
    obtain ⟨name, output, held⟩ := Scope.mem_exports some among
    exact ⟨name, mentions_of_mem explicit described output, held⟩
  refine ⟨fun named => ⟨mentioned named, fun name => ?_⟩, fun nameless writes handed name => ?_⟩
  · rcases v.advance_scope starts visit fuel with same | ⟨-, writes, handed, bound⟩
    · exact .inl (congrArg (·.get? name) same)
    · rw [show behind = _ from bound]
      refine (Scope.get?_setAll v.place.scope name writes).imp_right ?_
      rintro ⟨value, among, held⟩
      obtain ⟨own, mentions, from_child⟩ := mentioned named writes handed _ among
      exact ⟨own, value, mentions, from_child, held⟩
  · obtain ⟨outs, described, rfl⟩ := Descent.handedBack_ok.mp handed
    rw [context] at described ⊢
    rw [(outputs_eq_nil explicit described).mpr nameless]
    exact Scope.mem_keys_exports_nil

end Visiting

namespace Start

/-- A node that hands back one variable under another name. -/
def passing : Node := { calling with properties := [("path", "s"), ("output", "y=x")] }

def atPassing : Visiting (List Record) :=
  ⟨(handing passing found).outermost, ⟨"p", [], ⟨[("x", .str "kept")]⟩⟩, passing,
    (handing passing found).session []⟩

theorem names_pair : ¬ Nameless "y=x" := by
  have unread : Json.parse "y=x" = .error (.badData _) := rfl
  have pairs : Listing.pairs "y=x" = [("y", "x")] := rfl
  rintro (⟨reads, -⟩ | ⟨-, nowhere⟩)
  · rw [unread] at reads
    cases reads
  · rw [pairs] at nowhere
    exact absurd (nowhere _ (List.mem_singleton.mpr rfl)) (by decide)

theorem describes_outputs_passing :
    ∃ d, atPassing.prelude.1 = .descends d ∧ (atPassing.nestedRun d 1).1.1 = .finished ∧
      let child := (atPassing.nestedRun d 1).1.2
      (∀ writes, d.handedBack child = .ok writes → ∀ b ∈ writes,
        ∃ name, Mentions "y=x" b.1 name ∧ child.get? name = some b.2) ∧
      ∀ name,
        let behind :=
          (atPassing.walk.advance (Walk.walk 1) atPassing.place atPassing.session).1.scope
        behind.get? name = atPassing.place.scope.get? name ∨
          ∃ own value, Mentions "y=x" name own ∧ child.get? own = some value ∧
            behind.get? name = some value := by
  have visit : ∃ d, atPassing.prelude.1 = .descends d ∧
      (atPassing.nestedRun d 1).1.1 = .finished := ⟨_, rfl, rfl⟩
  obtain ⟨d, visit, finished⟩ := visit
  have filled : fillProperties atPassing.place.scope passing.properties =
      .ok passing.properties := rfl
  have described := Visiting.describes_outputs (v := atPassing) ⟨rfl, rfl⟩ rfl filled rfl 1
  exact ⟨d, visit, finished, (described.2 d visit).1 names_pair⟩

/-- A node whose description names no variable of the workflow. -/
def unlimited : Node := { calling with properties := [("path", "s"), ("output", "result")] }

/-- Runs it with a variable that the workflow has as well. -/
def caller : Start (List Record) :=
  { handing unlimited found with bindings := [("x", .str "kept")] }

/-- A description that is not blank and mentions nothing, and the variable of the caller that is
lost to the one of the workflow. -/
theorem everything_handed_back :
    caller.workflow.fault? = none ∧ caller.bindings = [("x", .str "kept")] ∧
      Text.blank "result".toList = false ∧ (∀ parent own, ¬ Mentions "result" parent own) ∧
      (caller.run 2 []).2.recorder.record.bindings = [("x", .str "")] := by
  have unread : Json.parse "result" = .error (.badData _) := rfl
  refine ⟨rfl, rfl, rfl, ?_, rfl⟩
  rintro parent own (⟨reads, -⟩ | ⟨-, among, ⟨key, rest, cut, -⟩, -⟩)
  · rw [unread] at reads
    cases reads
  · cases List.mem_singleton.mp among
    cases cut

end Start
end Runbook
