import Runbook.Proofs.Literal
import Runbook.Proofs.Run.Steps
import Runbook.Proofs.Template.Quoted
import Runbook.Proofs.Visit.Compute
import Runbook.Proofs.Visit.Control
import Runbook.Proofs.Walk.Writes

/-! Literals in variables.

A node binds a text to a name, as the number that the text is the text of or as it stands. The
numbers that come of texts are all finite ones, and a plain numeral becomes one just where its value
is written so again (`attained_iff`, `isNumber_coerce_iff_written`). Where no placeholder stands in
the text, the placeholder for the name is filled with that very text in what the walk looks at next
(`Visiting.BindsText.resolve`). The placeholder has to be one: `isName_iff` says for which names it
leads to the variable. -/
namespace Runbook

open Visit
open Number (PlainNumeral Binary64)
open Template (Slot IsName holeFor)

/-! ### The numbers that literals become -/

instance : DecidablePred IsNumber
  | .int n => .isTrue (.inl ⟨n, rfl⟩)
  | .float x => .isTrue (.inr ⟨x, rfl⟩)
  | .null | .bool _ | .str _ | .scalar (.bytes _) | .scalar (.moment _) | .list _ | .map _ =>
    .isFalse (by rintro (⟨_, ⟨⟩⟩ | ⟨_, ⟨⟩⟩))

namespace Literal

/-- A number that some literal becomes. -/
def Attained (v : Value) : Prop := IsNumber v ∧ ∃ s, coerce s = v

/-- The numbers that a literal can become are the finite values, whole ones held as whole numbers. -/
theorem attained_iff (v : Value) :
    Attained v ↔ ∃ x : Binary64, x.isFinite = true ∧ normalize x = v := by
  constructor
  · rintro ⟨number, s, rfl⟩
    obtain text | ⟨x, read, written, same⟩ := coerce_cases s
    · rw [text] at number
      obtain ⟨_, ⟨⟩⟩ | ⟨_, ⟨⟩⟩ := number
    · exact ⟨x, finite_of_plain? read written, same.symm⟩
  · rintro ⟨x, finite, rfl⟩
    obtain ⟨s, -, written, -⟩ := exists_rendered finite
    exact ⟨isNumber_normalize x, s, coerce_rendered finite written⟩

/-- A literal becomes a number exactly where it is the text of one of these. -/
theorem isNumber_coerce_iff (s : String) :
    IsNumber (coerce s) ↔ ∃ v, Attained v ∧ stringify v = .ok s := by
  constructor
  · exact fun number => ⟨coerce s, ⟨number, s, rfl⟩, stringify_coerce s⟩
  · rintro ⟨v, there, written⟩
    obtain ⟨x, finite, rfl⟩ := (attained_iff v).mp there
    rw [coerce_rendered finite written]
    exact isNumber_normalize x

/-- A literal becomes a number exactly where it is a plain numeral whose value is written so. -/
theorem isNumber_coerce_iff_written (s : String) : IsNumber (coerce s) ↔
    ∃ w : PlainNumeral, w.text = s.toList ∧ stringify (normalize w.value) = .ok s := by
  constructor
  · intro number
    obtain ⟨x, finite, same⟩ := (attained_iff _).mp ⟨number, s, rfl⟩
    obtain ⟨t, w, own, text, value⟩ := exists_rendered finite
    obtain rfl : t = s := by
      rw [same] at own
      exact Except.ok.inj (own.symm.trans (stringify_coerce s))
    exact ⟨w, text, value ▸ own⟩
  · rintro ⟨w, text, written⟩
    rw [coerce_of_written w text written]
    exact isNumber_normalize _

theorem coerce_of_not_isNumber {s : String} (text : ¬ IsNumber (coerce s)) : coerce s = .str s := by
  obtain same | ⟨x, -, -, number⟩ := coerce_cases s
  · exact same
  · exact absurd (number ▸ isNumber_normalize x) text

end Literal

/-! ### Texts without placeholders -/

namespace Template

/-- No placeholder stands anywhere in the text. -/
def Slotless (s : String) : Prop := ∀ p : Slot, ¬ p.text <:+: s.toList

/-- A placeholder of a template stands in its text. -/
theorem infix_spell {gs : List Glyph} {s : Slot} (there : s ∈ slots gs) :
    s.text <:+: spell Slot.text gs := by
  obtain ⟨g, inside, same⟩ := List.mem_filterMap.mp there
  cases g with
  | char c => cases same
  | slot s' =>
    cases same
    obtain ⟨before, after, rfl⟩ := List.append_of_mem inside
    exact ⟨spell Slot.text before, spell Slot.text after, by simp⟩

/-- A text without placeholders is left as it is. -/
theorem resolve_slotless {s : String} (h : Slotless s) (scope : Scope) :
    resolve s scope = .ok s := by
  obtain ⟨gs, whole, pieces⟩ := exists_glyphs s.toList
  have none : ∀ p ∈ slots gs, p.filled scope = .ok p.text := fun p there =>
    absurd (whole ▸ infix_spell there) (h p)
  rw [resolve, pieces, fillAll_glyphs none, whole]
  exact congrArg Except.ok String.ofList_toList

/-! ### Names -/

/-- The placeholder for a name leads to the variable exactly where it is spelled like one. -/
theorem isName_iff (name : String) : IsName name ↔
    ∃ p, whole? (holeFor name).toList = some p ∧ pathSteps p.path = [name.toList] := by
  constructor
  · exact fun h => ⟨_, whole?_holeFor h, pathSteps_name h⟩
  · rintro ⟨p, whole, steps⟩
    unfold whole? at whole
    split at whole
    · rename_i q found
      cases whole
      obtain ⟨s, rfl, -⟩ := exists_slot found
      obtain ⟨c, cs, path, start, inside⟩ := s.isPath
      have unmarked := isPathMark_of_isNameChar (isNameChar_of_isNameStart start)
      have opens : c ≠ '[' := by
        rintro rfl
        cases unmarked
      have front : (pathSteps (c :: cs)).head? = some (c :: cs.takeWhile (!isPathMark ·)) := by
        rw [pathSteps, List.length_cons, Template.steps, if_neg opens, unmarked]
        rfl
      have named : (pathSteps s.path).head? = some name.toList := by
        rw [show s.path = s.placeholder.path from rfl, steps]
        rfl
      rw [path, front] at named
      refine ⟨c, _, (Option.some.inj named).symm, start, fun d there => ?_⟩
      have char := inside d ((List.takeWhile_prefix _).subset there)
      have other : isPathMark d = false := by simpa using List.mem_takeWhile_imp there
      simpa [isPathChar, isNameChar, other] using char
    · cases whole

end Template

/-! ### Visits -/

variable {σ : Type}

/-- A property that is missing stays so. -/
theorem Visit.fillProperties_missing {scope : Scope} {properties filled : List (String × String)}
    (h : fillProperties scope properties = .ok filled) {name : String}
    (missing : Entries.get? name properties = none) : Entries.get? name filled = none := by
  induction properties generalizing filled with
  | nil =>
    cases h
    rfl
  | cons e rest ih =>
    obtain ⟨shown, others, -, behind, rfl⟩ := fillProperties_cons.mp h
    by_cases same : e.1 == name
    · simp only [Entries.get?, same, if_true] at missing
      cases missing
    · simp only [Entries.get?, same, Bool.false_eq_true, if_false] at missing ⊢
      exact ih behind missing

namespace Visiting

/-- A node is visited that binds a text without placeholders to a name. A missing text counts as
empty. -/
structure BindsText (v : Visiting σ) (name text : String) : Prop where
  starts : v.Starts
  known : v.walk.registry.handler? v.node.kind = some .literal
  given : (v.node.property? "value").getD "" = text
  slotless : Template.Slotless text
  filled : ∃ properties, fillProperties v.place.scope v.node.properties = .ok properties ∧
    (v.context properties).trimmed "name" = name

namespace BindsText

variable {v : Visiting σ} {name text : String}

theorem property {properties : List (String × String)} (h : v.BindsText name text)
    (filled : fillProperties v.place.scope v.node.properties = .ok properties) :
    (v.context properties).property "value" = text := by
  rw [Context.property_getD, ← h.given]
  have slotless := h.given ▸ h.slotless
  show (Entries.get? "value" properties).getD "" = _
  cases there : v.node.property? "value" with
  | none => rw [fillProperties_missing filled there]
  | some value =>
    rw [there, Option.getD_some] at slotless
    obtain ⟨shown, resolved, found⟩ := fillProperties_get? filled rfl there
    rw [Template.resolve_slotless slotless] at resolved
    cases resolved
    rw [found]

/-- Behind the visit the name is bound to what becomes of the text. -/
theorem bound (h : v.BindsText name text) (named : name ≠ "") (run : Walk.Runner σ) :
    (v.behind run).1.scope.get? name = some (Literal.coerce text) := by
  obtain ⟨properties, filled, trimmed⟩ := h.filled
  have settles := settles_literal h.known filled trimmed named
    (congrArg Literal.coerce (h.property filled))
  have came : v.came run =
      (.ok ⟨{ output := Literal.coerce text, writes := [(name, Literal.coerce text)] },
        properties⟩, v.begun) := by
    rw [Visiting.came, visit_eq]
    exact congrArg (Prelude.resume _) settles
  obtain ⟨bindings, -⟩ := (Visiting.frames h.starts run).outcome _ (congrArg Prod.fst came)
    (fun unnamed => named (List.mem_singleton.mp unnamed).symm)
  rw [Scope.get?, bindings]
  exact Entries.get?_insert_self ..

/-- The placeholder for the name is filled with the text. -/
theorem resolve (h : v.BindsText name text) (named : IsName name) (run : Walk.Runner σ) :
    Template.resolve (holeFor name) (v.behind run).1.scope = .ok text := by
  have found := Template.lookup_name named (h.bound named.ne_empty run)
  have nothing : '{' ∉ "".toList := nofun
  have filled := Template.resolve_front named found (Literal.stringify_coerce text) nothing
  rwa [String.append_empty, String.append_empty] at filled

end BindsText
end Visiting

/-! ### Canonical numerals in variables -/

/-- The numbers that literals become are the finite values, and a literal becomes one exactly where
it is the text of one: a plain numeral whose value is written so again. The digits of each whole
number up to the limit become that number. A text without placeholders that a node binds to a name
comes back where the placeholder for the name is filled, if the name can stand in a placeholder. -/
theorem Literal.coerce_canonical :
    (∀ v, Attained v ↔ ∃ x : Binary64, x.isFinite = true ∧ normalize x = v) ∧
    (∀ t, (IsNumber (coerce t) ↔ ∃ v, Attained v ∧ stringify v = .ok t) ∧
      (IsNumber (coerce t) ↔
        ∃ w : PlainNumeral, w.text = t.toList ∧ stringify (normalize w.value) = .ok t) ∧
      (∀ w : PlainNumeral, w.text = t.toList → stringify (normalize w.value) = .ok t →
        coerce t = normalize w.value) ∧
      (¬ IsNumber (coerce t) → coerce t = .str t)) ∧
    (∀ n : Int, n.natAbs ≤ 2 ^ 53 → coerce (toString n) = .int n) ∧
    (∀ name, IsName name ↔
      ∃ p, Template.whole? (holeFor name).toList = some p ∧
        Template.pathSteps p.path = [name.toList]) ∧
    ∀ {v : Visiting σ} {name t : String}, v.BindsText name t → IsName name →
      ∀ run, Template.resolve (holeFor name) (v.behind run).1.scope = .ok t := by
  refine ⟨attained_iff, fun t => ?_, fun _ => coerce_int, Template.isName_iff, ?_⟩
  · exact ⟨isNumber_coerce_iff t, isNumber_coerce_iff_written t,
      fun w text written => coerce_of_written w text written, coerce_of_not_isNumber⟩
  · exact fun binds named run => binds.resolve named run

/-- A visit of a node that binds a text. -/
def assigning (name text : String) : Visiting (List Record) :=
  let node : Node := { Start.binding with properties := [("name", name), ("value", text)] }
  let r := Start.handing node Start.found
  ⟨r.outermost, { current := node.id, scope := ⟨[]⟩ }, node, r.session []⟩

theorem assigning_binds {name text : String} (plain : '{' ∉ text.toList)
    (filled : ∃ properties,
      fillProperties ⟨[]⟩ (assigning name text).node.properties = .ok properties ∧
        ((assigning name text).context properties).trimmed "name" = name) :
    (assigning name text).BindsText name text where
  starts := ⟨rfl, rfl⟩
  known := rfl
  given := rfl
  slotless _ there := plain (there.mem (List.mem_cons_self ..))
  filled := filled

/-- A half, as it is written. -/
def Literal.half : PlainNumeral where
  sign := .missing
  whole := ['0']
  frac := some ['5']
  power := none
  some_digit := nofun
  decimal :=
    have digits : Json.AreDigits ['0', '5'] := List.all_eq_true.mp rfl
    digits.values.1

/-- One half is a number; with a zero at its end, one and a half is a text. -/
theorem Literal.coerce_canonical_halves :
    half.text = "0.5".toList ∧ stringify (normalize half.value) = .ok "0.5" ∧
      coerce "0.5" = normalize half.value ∧
      ¬ IsNumber (coerce "1.50") ∧ coerce "1.50" = .str "1.50" ∧
      (-7 : Int).natAbs ≤ 2 ^ 53 ∧ coerce (toString (-7 : Int)) = .int (-7) ∧
      (assigning "x" "1.50").BindsText "x" "1.50" ∧ IsName "x" ∧
      Template.resolve (holeFor "x") ((assigning "x" "1.50").behind (Walk.walk 0)).1.scope =
        .ok "1.50" := by
  obtain ⟨-, literals, whole, -, back⟩ := Literal.coerce_canonical (σ := List Record)
  have written : stringify (normalize half.value) = .ok "0.5" := by decide +kernel
  have number := (literals "0.5").2.2.1 half rfl written
  have padded : ¬ IsNumber (coerce "1.50") := by decide +kernel
  have text := (literals "1.50").2.2.2 padded
  have small : (-7 : Int).natAbs ≤ 2 ^ 53 := by decide
  have binds : (assigning "x" "1.50").BindsText "x" "1.50" :=
    assigning_binds (by decide) ⟨_, rfl, rfl⟩
  have named : IsName "x" := ⟨'x', [], rfl, rfl, nofun⟩
  exact ⟨rfl, written, number, padded, text, small, whole (-7) small, binds, named,
    back binds named (Walk.walk 0)⟩

/-- A text bound to a name with a blank does not come back: no placeholder stands for the name. -/
theorem Literal.spaced_unfilled :
    (assigning "a b" "t").BindsText "a b" "t" ∧
      Template.resolve (holeFor "a b") ((assigning "a b" "t").behind (Walk.walk 0)).1.scope =
        .ok "\x7b\x7ba b\x7d\x7d" ∧
      "\x7b\x7ba b\x7d\x7d" ≠ "t" := by
  refine ⟨assigning_binds (by decide) ⟨_, rfl, rfl⟩, ?_, by decide⟩
  with_unfolding_all rfl

end Runbook
