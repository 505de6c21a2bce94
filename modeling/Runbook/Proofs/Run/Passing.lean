import Runbook.Proofs.Json.Roundtrip
import Runbook.Proofs.Run.Handover
import Runbook.Proofs.Template
import Runbook.Proofs.Visit.Prelude

/-! A value on its way through a nested walk and back.

A node may pass the value of one variable on, as another variable of the workflow that it runs, and
take that variable back. It writes so with the text of a mapping from the one name to a placeholder,
and with the text of a mapping from the other name to the first. The value crosses the filling of
the properties, both readings of data text, the nested walk, and the binding of what is handed back,
and comes out as it was. -/
namespace Runbook

open Visit Template

variable {σ : Type} {p c : String} {value : Value} {scope : Scope}

/-! ### The two descriptions -/

/-- The text of a mapping from a name to the placeholder for a variable. -/
def PassesIn (p c text : String) : Prop :=
  ∃ style ∈ Json.layouts, Json.render style (.record [(c, .str (holeFor p))]) = .ok text

/-- The text of a mapping from a variable to a name. -/
def PassesBack (p c text : String) : Prop :=
  ∃ style ∈ Json.layouts, Json.render style (.record [(p, .str c)]) = .ok text

/-- The text of a mapping from a key to a text. -/
def Json.entryText (style : Style) (key s : String) : List Char :=
  '{' :: (newline style 1 ++ (quote key ++ (style.colon.toList ++ (quote s ++
    (newline style 0 ++ ['}'])))))

theorem Json.render_entry (style : Style) (key s : String) :
    render style (.record [(key, .str s)]) = .ok (String.ofList (entryText style key s)) := by
  have written : write style 0 (.record [(key, .str s)]) = .ok (entryText style key s) := by
    show write style 0 (.map [(.str key, .scalar (.str s))]) = _
    simp only [write, writeKey, writeScalar, writeEntries, Written.ok_append, entryText]
    simp only [List.append_assoc, List.cons_append]
  rw [render, written]
  rfl

theorem Json.visible_of_render {style : Style} {key s text : String}
    (rendered : render style (.record [(key, .str s)]) = .ok text) :
    Text.blank text.toList = false := by
  cases (render_entry style key s).symm.trans rendered
  rw [String.toList_ofList]
  rfl

theorem Json.isPlain_of_isNameChar {d : Char} (h : isNameChar d = true) : IsPlain d := by
  have printable := toNat_of_isNameChar h
  unfold IsPlain escape
  split
  iterate 7 cases h
  exact if_neg (Nat.not_lt.mpr (Nat.le_trans (by decide) printable))

theorem Json.quote_plain {s : String} (h : ∀ c ∈ s.toList, IsPlain c) :
    quote s = '"' :: (s.toList ++ ['"']) := by
  rw [quote, escapeAll_of_plain h, List.cons_append]

theorem Json.quote_name (h : IsName p) : quote p = '"' :: (p.toList ++ ['"']) :=
  quote_plain fun c there => isPlain_of_isNameChar (h.isNameChar c there)

theorem Json.quote_holeFor (h : IsName p) :
    quote (holeFor p) = '"' :: ((holeFor p).toList ++ ['"']) := by
  refine quote_plain ?_
  have name : ∀ c ∈ p.toList, IsPlain c := fun c there =>
    isPlain_of_isNameChar (h.isNameChar c there)
  have closing : ∀ c ∈ ['}', '}'], IsPlain c := isPlain_of_all rfl
  have opening : IsPlain '{' := rfl
  rw [holeFor, String.toList_ofList]
  exact List.forall_mem_cons.mpr ⟨opening, List.forall_mem_cons.mpr
    ⟨opening, List.forall_mem_append.mpr ⟨name, closing⟩⟩⟩

theorem Json.no_brace_quote (h : IsName p) : '{' ∉ Json.quote p := by
  rw [Json.quote_name h]
  simp [h.not_mem (c := '{') (by decide)]

theorem Json.no_brace_newline (style : Json.Style) (level : Nat) : '{' ∉ Json.newline style level :=
  fun there => nomatch Json.isSpace_of_newline style level _ there

theorem Json.no_brace_colon {style : Json.Style} (h : style ∈ Json.layouts) :
    '{' ∉ style.colon.toList := by
  obtain ⟨blanks, colon, blank⟩ := Json.colon_eq h
  rw [colon]
  refine List.not_mem_cons_of_ne_of_not_mem (by decide) fun there => ?_
  cases blank _ there

/-- The description of the input reads as the value itself. -/
theorem PassesIn.inputs {text : String} (h : PassesIn p c text) (hp : IsName p) (hc : IsName c)
    (holds : scope.get? p = some value) (filled : value ≠ .null) :
    Handover.inputs text scope = .ok [(c, value)] := by
  obtain ⟨style, layout, rendered⟩ := h
  have read : Handover.mapping? text = .ok (some [(.str c, .str (holeFor p))]) :=
    Handover.mapping?_some.mpr (Json.parse_render layout rendered rfl)
  have visible := Json.visible_of_render rendered
  have name : Template.resolve (Scalar.str c).display scope = .ok c :=
    resolve_plain (hc.not_mem (by decide)) scope
  have passed := resolveValue_holeFor hp holds filled
  have entries : Handover.fillEntries scope [(.str c, .str (holeFor p))] = .ok [(c, value)] := by
    simp only [Handover.fillEntries, name, passed]
    rfl
  simp only [Handover.inputs, visible, read, Bool.false_eq_true, if_false]
  refine bind_eq_ok.mpr ⟨_, rfl, bind_eq_ok.mpr ⟨_, entries, rfl⟩⟩

/-- The description of the output reads as the one name for the other. -/
theorem PassesBack.outputs {text : String} (h : PassesBack p c text) :
    Handover.outputs text = .ok [(p, c)] := by
  obtain ⟨style, layout, rendered⟩ := h
  have read : Handover.mapping? text = .ok (some [(.str p, .str c)]) :=
    Handover.mapping?_some.mpr (Json.parse_render layout rendered rfl)
  have visible := Json.visible_of_render rendered
  simp only [Handover.outputs, visible, read, Bool.false_eq_true, if_false]
  rfl

/-- The description of the output has no placeholder. -/
theorem PassesBack.resolve {text : String} (h : PassesBack p c text) (hp : IsName p)
    (hc : IsName c) (scope : Scope) : Template.resolve text scope = .ok text := by
  obtain ⟨style, layout, rendered⟩ := h
  cases (Json.render_entry style p c).symm.trans rendered
  refine resolve_braced ?_ scope
  simp [Json.no_brace_newline, Json.no_brace_quote hp, Json.no_brace_quote hc,
    Json.no_brace_colon layout]

/-- The description of the input is filled with the text of the value; what comes out need not be
data text. -/
theorem PassesIn.resolve {text : String} (h : PassesIn p c text) (hp : IsName p) (hc : IsName c)
    (holds : scope.get? p = some value) (written : value.HasText) :
    ∃ filled, Template.resolve text scope = .ok filled := by
  obtain ⟨style, layout, rendered⟩ := h
  obtain ⟨shown, written⟩ := (Literal.stringify_isOk value).mpr written
  cases (Json.render_entry style c (holeFor p)).symm.trans rendered
  let before := Json.newline style 1 ++ (Json.quote c ++ (style.colon.toList ++ ['"']))
  let after := '"' :: (Json.newline style 0 ++ ['}'])
  have cut : Json.entryText style c (holeFor p) =
      '{' :: (before ++ ((holeFor p).toList ++ after)) := by
    simp [before, after, Json.entryText, Json.quote_holeFor hp]
  rw [cut]
  refine ⟨_, resolve_around hp (lookup_name hp holds) written ?_ ?_ ?_⟩
  · simp [before]
  · simp [before, Json.no_brace_newline, Json.no_brace_quote hc, Json.no_brace_colon layout]
  · simp [after, Json.no_brace_newline]

/-! ### The nested walk -/

/-- No visit of the walk itself binds the variable; the walks inside it have variables of their
own. -/
def Trail.Spares (t : Trail) (name : String) : Prop :=
  ∀ v ∈ t.stations, ∀ x, v.result = .ok x → name ∉ Entries.keys x.outcome.writes

theorem Walk.onward_spares {w : Walk σ} {place : Place} {n : Node} {r : Except Halt Visited}
    {name : String} (h : ∀ x, r = .ok x → name ∉ Entries.keys x.outcome.writes) :
    (w.onward place n r).scope.get? name = place.scope.get? name := by
  cases r with
  | error halt => rw [w.onward_halt_scope]
  | ok x => rw [w.onward_ok_scope, Scope.get?_setAll_of_not_mem (h x rfl)]

/-- A variable that no visit binds is at the end of a walk what it was. -/
theorem Walks.get?_of_spares {w : Walk σ} {at_ : Progress} {s s' : Session σ} {t : Trail}
    {name : String} (h : Walks w at_ s t s') (spares : t.Spares name) :
    t.scope.get? name = at_.scope.get? name := by
  induction h with
  | ended | fired | lost => rfl
  | plain quiet here visit onward ih | nested quiet here visit inside onward _ ih =>
    obtain ⟨own, others⟩ := List.forall_mem_cons.mp spares
    exact (ih others).trans (Walk.onward_spares own)

/-! ### A visit that passes a value on -/

namespace Visiting

variable {v : Visiting σ}

/-- The visit of a node that passes a variable on under a name, and takes that back. Its other
properties are any that can be filled. -/
structure PassesOn (v : Visiting σ) (p c : String) : Prop where
  starts : v.Starts
  nested : v.walk.registry.handler? v.node.kind = some .nested
  input : ∃ text, v.node.property? "input" = some text ∧ PassesIn p c text
  output : ∃ text, v.node.property? "output" = some text ∧ PassesBack p c text
  distinct : (Entries.keys v.node.properties).Nodup
  others : ∀ e ∈ v.node.properties, e.1 ≠ "input" → e.1 ≠ "output" →
    isRaw e.1 = true ∨ ∃ text, Template.resolve e.2 v.place.scope = .ok text

theorem PassesOn.fills (h : v.PassesOn p c) (hp : IsName p) (hc : IsName c)
    (holds : v.place.scope.get? p = some value) (written : value.HasText) :
    ∃ properties, fillProperties v.place.scope v.node.properties = .ok properties := by
  obtain ⟨input, given, passesIn⟩ := h.input
  obtain ⟨output, taken, passesBack⟩ := h.output
  refine fillProperties_isOk fun e he => ?_
  have own {text : String} (there : v.node.property? e.1 = some text) : e.2 = text :=
    Option.some.inj ((Entries.get?_of_mem h.distinct he).symm.trans there)
  by_cases isInput : e.1 = "input"
  · rw [own (isInput ▸ given)]
    exact .inr (passesIn.resolve hp hc holds written)
  · by_cases isOutput : e.1 = "output"
    · rw [own (isOutput ▸ taken)]
      exact .inr ⟨_, passesBack.resolve hp hc _⟩
    · exact h.others e he isInput isOutput

/-- The node sees the description of its output as it is written. -/
theorem PassesOn.output_eq (h : v.PassesOn p c) (hp : IsName p) (hc : IsName c)
    {properties : List (String × String)}
    (filled : fillProperties v.place.scope v.node.properties = .ok properties) :
    PassesBack p c ((v.context properties).property "output") := by
  obtain ⟨output, taken, passesBack⟩ := h.output
  obtain ⟨shown, resolved, there⟩ := fillProperties_get? filled rfl taken
  cases resolved.symm.trans (passesBack.resolve hp hc v.place.scope)
  rw [Context.property_eq (c := v.context properties) there]
  exact passesBack

end Visiting
namespace Start

/-- A text with quotes, a line end and what looks like a placeholder. -/
def hard : Value := .str "She said \"hi\"\nto \x7b\x7bparent\x7d\x7d"

/-- A node that passes a variable on, and takes it back. -/
def carrying : Node :=
  { calling with properties := [("path", "s"),
      ("input", "\x7b\"child\":\"\x7b\x7bparent\x7d\x7d\"\x7d"),
      ("output", "\x7b\"parent\":\"child\"\x7d")] }

def atCarrying : Visiting (List Record) :=
  ⟨(handing carrying found).outermost, ⟨"p", [], ⟨[("parent", hard)]⟩⟩, carrying,
    (handing carrying found).session []⟩

theorem isName_parent : IsName "parent" := ⟨'p', "arent".toList, rfl, rfl, List.all_eq_true.mp rfl⟩

theorem isName_child : IsName "child" := ⟨'c', "hild".toList, rfl, rfl, List.all_eq_true.mp rfl⟩

theorem atCarrying_passesOn : atCarrying.PassesOn "parent" "child" where
  starts := ⟨rfl, rfl⟩
  nested := rfl
  input := ⟨_, rfl, Json.compact, List.mem_cons_self .., by with_unfolding_all rfl⟩
  output := ⟨_, rfl, Json.compact, List.mem_cons_self .., by with_unfolding_all rfl⟩
  distinct := by decide
  others := by
    intro e he input output
    simp only [atCarrying, carrying, List.mem_cons, List.not_mem_nil, or_false] at he
    rcases he with rfl | rfl | rfl
    · exact .inr ⟨_, resolve_plain (by decide) _⟩
    · exact absurd rfl input
    · exact absurd rfl output

end Start
end Runbook
