import Runbook.Proofs.Json.Reading
import Runbook.Proofs.Number.Numeral
import Runbook.Template

/-! Where paths lead.

A path leads to a value, or nowhere: to no variable, past the end of a list, to a field that is not
there. `Leads` says which, step by step. A path that leads nowhere is not an error, and what it
stands for is empty. But a path can also break: at a step that looks like an index and is no number
(`Misread`), and at a text that is nested too deeply to be read.

`resolve_isOk`: a template has a text unless one of its paths breaks or leads to a value that has
none, and a path that leads nowhere leaves nothing in its place. -/
namespace Runbook.Template

open Number

/-! ### Indices -/

/-- What looks like an index is digits behind minus signs. -/
theorem looksLikeIndex_iff {key : List Char} :
    looksLikeIndex key = true ↔ ∃ s : Signed, key = s.text := by
  constructor
  · intro looks
    simp only [looksLikeIndex, Bool.and_eq_true, Bool.not_eq_true', List.isEmpty_eq_false_iff,
      List.all_eq_true] at looks
    have signs : key.takeWhile (· == '-') =
        List.replicate (key.takeWhile (· == '-')).length '-' :=
      List.eq_replicate_of_mem fun c there => by simpa using List.mem_takeWhile_imp there
    refine ⟨⟨(key.takeWhile (· == '-')).length, _, looks.1, looks.2⟩, ?_⟩
    rw [Signed.text, ← signs, List.takeWhile_append_dropWhile]
  · rintro ⟨s, rfl⟩
    obtain ⟨d, ds, first⟩ := List.exists_cons_of_ne_nil s.some_digit
    have noSign : d ≠ '-' := fun same =>
      Signed.isDigit_ne (s := s) (c := '-') (by decide) (by simp [first, same])
    have rest : s.text.dropWhile (· == '-') = s.digits := by
      rw [Signed.text, List.dropWhile_append_of_pos (by simp), first,
        List.dropWhile_cons_of_neg (by simpa using noSign)]
    simpa [looksLikeIndex, rest, s.some_digit] using s.isDigit

/-- The whole number that a value is, or is written as. -/
def wholeIn? : Value → Option Int
  | .int n => some n
  | .float x => x.toInt?
  | .str s => (plain? s.toList).bind Binary64.toInt?
  | _ => none

/-- A whole number beyond every number of the floating format. -/
def IsHuge : Value → Prop
  | .int n => Binary64.exceeds n = true
  | _ => False

theorem indexFrom_of_not_isHuge {v : Value} (h : ¬ IsHuge v) : indexFrom v = .ok (wholeIn? v) := by
  cases v with
  | scalar s =>
    cases s with
    | int n => exact if_neg h
    | str s => cases read : plain? s.toList <;> simp [indexFrom, Literal.number?, wholeIn?, read]
    | _ => rfl
  | _ => rfl

theorem indexFrom_of_isHuge {v : Value} (h : IsHuge v) : ∃ f, indexFrom v = .error f := by
  cases v with
  | scalar s =>
    cases s with
    | int n => exact ⟨_, if_pos h⟩
    | _ => exact h.elim
  | _ => exact h.elim

/-- What a step into a list stands for: the index that it is, or the one that its variable holds. -/
inductive Index (scope : Scope) : List Char → Option Int → Prop
  | written (s : Signed) : s.IsNumeral → Index scope s.text (some s.value)
  | held {key v} : looksLikeIndex key = false → scope.get? (String.ofList key) = some v →
      ¬ IsHuge v → Index scope key (wholeIn? v)
  | unbound {key} : looksLikeIndex key = false → scope.get? (String.ofList key) = none →
      Index scope key none

/-- A step into a list that is taken for an index and cannot be read as one. -/
inductive Misread (scope : Scope) : List Char → Prop
  | written (s : Signed) : ¬ s.IsNumeral → Misread scope s.text
  | held {key v} : looksLikeIndex key = false → scope.get? (String.ofList key) = some v →
      IsHuge v → Misread scope key

theorem exists_index_or_misread (scope : Scope) (key : List Char) :
    (∃ i, Index scope key i) ∨ Misread scope key := by
  cases looks : looksLikeIndex key with
  | true =>
    obtain ⟨s, rfl⟩ := looksLikeIndex_iff.mp looks
    by_cases numeral : s.IsNumeral
    · exact .inl ⟨_, .written s numeral⟩
    · exact .inr (.written s numeral)
  | false =>
    cases held : scope.get? (String.ofList key) with
    | none => exact .inl ⟨_, .unbound looks held⟩
    | some v =>
      by_cases huge : IsHuge v
      · exact .inr (.held looks held huge)
      · exact .inl ⟨_, .held looks held huge⟩

theorem stepInto_of_index {scope : Scope} {key : List Char} {i : Option Int}
    (h : Index scope key i) (items : List Value) :
    stepInto scope (.list items) key = .ok (i.bind (item? items)) := by
  cases h with
  | written s numeral =>
    have looks : looksLikeIndex s.text = true := looksLikeIndex_iff.mpr ⟨s, rfl⟩
    simp only [stepInto, looks, if_true, Signed.whole_eq numeral]
    rfl
  | held named held fits =>
    simp only [stepInto, named, held, Bool.false_eq_true, if_false, indexFrom_of_not_isHuge fits]
    rfl
  | unbound named free =>
    simp only [stepInto, named, free, Bool.false_eq_true, if_false]
    rfl

theorem stepInto_of_misread {scope : Scope} {key : List Char} (h : Misread scope key)
    (items : List Value) : ∃ f, stepInto scope (.list items) key = .error f := by
  cases h with
  | written s other =>
    have looks : looksLikeIndex s.text = true := looksLikeIndex_iff.mpr ⟨s, rfl⟩
    obtain ⟨f, refused⟩ := Signed.whole_error other
    refine ⟨f, ?_⟩
    simp only [stepInto, looks, if_true, refused]
    rfl
  | held named held huge =>
    obtain ⟨f, refused⟩ := indexFrom_of_isHuge huge
    refine ⟨f, ?_⟩
    simp only [stepInto, named, held, Bool.false_eq_true, if_false, refused]
    rfl

/-! ### Paths -/

/-- What a path can come to. -/
inductive Target
  | value (v : Value)
  | nowhere
  | broken

namespace Target

def ofOption : Option Value → Target
  | some v => value v
  | none => nowhere

/-- What is found where a path comes to. -/
def Shows (r : Except Fault (Option Value)) : Target → Prop
  | value v => r = .ok (some v)
  | nowhere => r = .ok none
  | broken => ∃ f, r = .error f

theorem shows_ofOption (v? : Option Value) : (ofOption v?).Shows (.ok v?) := by
  cases v? <;> rfl

/-- What is left in the place of a path. -/
def Leaves (r : Except Fault Value) : Target → Prop
  | value v => r = .ok v
  | nowhere => r = .ok .null
  | broken => ∃ f, r = .error f

theorem Shows.leaves {r : Except Fault (Option Value)} {t : Target} (h : t.Shows r) :
    t.Leaves (r.map (·.getD .null)) := by
  cases t with
  | broken =>
    obtain ⟨f, rfl⟩ := h
    exact ⟨f, rfl⟩
  | _ =>
    cases h
    rfl

end Target

/-- A step leads into a list by an index, and into a mapping by a key. -/
inductive Step (scope : Scope) : Value → List Char → Target → Prop
  | item {items key i} : Index scope key i →
      Step scope (.list items) key (.ofOption (i.bind (item? items)))
  | misread {items key} : Misread scope key → Step scope (.list items) key .broken
  | field {entries key} :
      Step scope (.map entries) key (.ofOption (Entries.get? (.str (String.ofList key)) entries))
  | inside {s key} : Step scope (.scalar s) key .nowhere

inductive Follows (scope : Scope) : Value → List (List Char) → Target → Prop
  | here {v} : Follows scope v [] (.value v)
  | on {v w key rest t} : Step scope v key (.value w) → Follows scope w rest t →
      Follows scope v (key :: rest) t
  | lost {v key rest} : Step scope v key .nowhere → Follows scope v (key :: rest) .nowhere
  | broken {v key rest} : Step scope v key .broken → Follows scope v (key :: rest) .broken

/-- Where a path leads from the variables of a scope. What it goes into is read first, if it is data
text. -/
inductive Leads (scope : Scope) (path : List Char) : Target → Prop
  | empty : pathSteps path = [] → Leads scope path .nowhere
  | unbound {root rest} : pathSteps path = root :: rest →
      scope.get? (String.ofList root) = none → Leads scope path .nowhere
  | held {root v} : pathSteps path = [root] → scope.get? (String.ofList root) = some v →
      Leads scope path (.value v)
  | inside {root key rest v w t} : pathSteps path = root :: key :: rest →
      scope.get? (String.ofList root) = some v → Literal.load v = .ok w →
      Follows scope w (key :: rest) t → Leads scope path t
  | unread {root key rest v f} : pathSteps path = root :: key :: rest →
      scope.get? (String.ofList root) = some v → Literal.load v = .error f → f ≠ .tooDeep →
      Leads scope path .nowhere
  | tooDeep {root key rest v} : pathSteps path = root :: key :: rest →
      scope.get? (String.ofList root) = some v → Literal.load v = .error .tooDeep →
      Leads scope path .broken

section
variable {scope : Scope} {v : Value} {t : Target}

theorem exists_step (scope : Scope) (v : Value) (key : List Char) : ∃ t, Step scope v key t := by
  cases v with
  | scalar s => exact ⟨_, .inside⟩
  | map entries => exact ⟨_, .field⟩
  | list items =>
    rcases exists_index_or_misread scope key with ⟨i, index⟩ | misread
    · exact ⟨_, .item index⟩
    · exact ⟨_, .misread misread⟩

theorem exists_follows (scope : Scope) (v : Value) (keys : List (List Char)) :
    ∃ t, Follows scope v keys t := by
  induction keys generalizing v with
  | nil => exact ⟨_, .here⟩
  | cons key rest ih =>
    obtain ⟨t, step⟩ := exists_step scope v key
    cases t with
    | nowhere => exact ⟨_, .lost step⟩
    | broken => exact ⟨_, .broken step⟩
    | value w =>
      obtain ⟨t, onward⟩ := ih w
      exact ⟨t, .on step onward⟩

/-- Every path leads to something, leads nowhere or breaks. -/
theorem exists_leads (scope : Scope) (path : List Char) : ∃ t, Leads scope path t := by
  cases steps : pathSteps path with
  | nil => exact ⟨_, .empty steps⟩
  | cons root rest =>
    cases bound : scope.get? (String.ofList root) with
    | none => exact ⟨_, .unbound steps bound⟩
    | some v =>
      cases rest with
      | nil => exact ⟨_, .held steps bound⟩
      | cons key rest =>
        cases read : Literal.load v with
        | ok w =>
          obtain ⟨t, follows⟩ := exists_follows scope w (key :: rest)
          exact ⟨t, .inside steps bound read follows⟩
        | error f =>
          by_cases deep : f = .tooDeep
          · exact ⟨_, .tooDeep steps bound (deep ▸ read)⟩
          · exact ⟨_, .unread steps bound read deep⟩

theorem Step.shows {key : List Char} (h : Step scope v key t) : t.Shows (stepInto scope v key) := by
  cases h with
  | item index =>
    rw [stepInto_of_index index]
    exact Target.shows_ofOption _
  | misread misread => exact stepInto_of_misread misread _
  | field => exact Target.shows_ofOption _
  | inside => rfl

theorem Follows.shows {keys : List (List Char)} (h : Follows scope v keys t) :
    t.Shows (walkInto scope v keys) := by
  induction h with
  | here => rfl
  | on step _ ih =>
    have into : stepInto _ _ _ = .ok (some _) := step.shows
    rw [walkInto, into]
    exact ih
  | lost step =>
    have into : stepInto _ _ _ = .ok none := step.shows
    rw [walkInto, into]
    rfl
  | broken step =>
    obtain ⟨f, into⟩ : ∃ f, stepInto _ _ _ = .error f := step.shows
    exact ⟨f, by rw [walkInto, into]; rfl⟩

/-- A path into a value goes on in what is read from it. -/
theorem lookup_inside {path root key : List Char} {rest : List (List Char)}
    (steps : pathSteps path = root :: key :: rest)
    (bound : scope.get? (String.ofList root) = some v) :
    lookup path scope = (match Literal.load v with
      | .ok w => (walkInto scope w (key :: rest)).map (·.getD .null)
      | .error f => if f.isBadValue then .ok .null else .error f) := by
  simp only [lookup, steps, bound, List.isEmpty_cons, Bool.false_eq_true, if_false]
  split
  · cases Literal.load _ with
    | error f => rfl
    | ok w => cases walkInto scope w (key :: rest) <;> rfl
  · rename_i noText
    have same : Literal.load v = .ok v := by
      unfold Literal.load
      split
      · exact absurd rfl (noText _)
      · rfl
    rw [same]
    show _ = (walkInto scope v (key :: rest)).map _
    cases walkInto scope v (key :: rest) <;> rfl

theorem load_error {f : Fault} (h : Literal.load v = .error f) (deep : f ≠ .tooDeep) :
    f.isBadValue = true := by
  unfold Literal.load at h
  split at h
  · exact (Json.parse_error h).resolve_right deep
  · cases h

/-- What a path leads to is what it is looked up as. -/
theorem Leads.leaves {path : List Char} (h : Leads scope path t) : t.Leaves (lookup path scope) := by
  cases h with
  | empty steps => simp [Target.Leaves, lookup, steps]
  | unbound steps free => simp [Target.Leaves, lookup, steps, free]
  | held steps bound => simp [Target.Leaves, lookup, steps, bound]
  | inside steps bound read follows =>
    rw [lookup_inside steps bound, read]
    exact follows.shows.leaves
  | unread steps bound read deep =>
    rw [lookup_inside steps bound, read]
    exact if_pos (load_error read deep)
  | tooDeep steps bound read =>
    rw [lookup_inside steps bound, read]
    exact ⟨_, rfl⟩

end

/-! ### Templates -/

/-- A path that leads nowhere leaves nothing in its place. -/
theorem fill_of_nowhere {scope : Scope} {p : Placeholder} (h : Leads scope p.path .nowhere) :
    fill scope (.hole p) = .ok [] := by
  have nothing : lookup p.path scope = .ok .null := h.leaves
  rw [fill, nothing]
  cases p.escaped <;> rfl

theorem fill_isOk_iff (scope : Scope) (p : Placeholder) :
    (∃ cs, fill scope (.hole p) = .ok cs) ↔
      ∃ v, lookup p.path scope = .ok v ∧ v.HasText := by
  simp only [fill, bind_eq_ok, ← Literal.stringify_isOk]
  constructor
  · rintro ⟨-, v, found, text, written, -⟩
    exact ⟨v, found, text, written⟩
  · rintro ⟨v, found, text, written⟩
    exact ⟨_, v, found, text, written, rfl⟩

/-- A placeholder has a text unless its path breaks or leads to a value that has none. -/
theorem fill_isOk (scope : Scope) (p : Placeholder) :
    (∃ cs, fill scope (.hole p) = .ok cs) ↔
      Leads scope p.path .nowhere ∨ ∃ v, Leads scope p.path (.value v) ∧ v.HasText := by
  rw [fill_isOk_iff]
  constructor
  · rintro ⟨v, found, written⟩
    obtain ⟨t, leads⟩ := exists_leads scope p.path
    have leaves := leads.leaves
    cases t with
    | nowhere => exact .inl leads
    | value w =>
      cases found.symm.trans leaves
      exact .inr ⟨v, leads, written⟩
    | broken =>
      obtain ⟨f, failed⟩ := leaves
      cases found.symm.trans failed
  · rintro (lost | ⟨v, leads, written⟩)
    · exact ⟨.null, lost.leaves, trivial⟩
    · exact ⟨v, leads.leaves, written⟩

/-- A template is filled exactly when each of its pieces is. -/
theorem fillAll_isOk (scope : Scope) (pieces : List Part) :
    (∃ cs, fillAll scope pieces = .ok cs) ↔ ∀ p ∈ pieces, ∃ cs, fill scope p = .ok cs := by
  induction pieces with
  | nil => exact ⟨fun _ => nofun, fun _ => ⟨[], rfl⟩⟩
  | cons p rest ih =>
    simp only [fillAll, bind_eq_ok, List.forall_mem_cons, ← ih]
    constructor
    · rintro ⟨-, here, first, behind, others, -⟩
      exact ⟨⟨here, first⟩, behind, others⟩
    · rintro ⟨⟨here, first⟩, behind, others⟩
      exact ⟨_, here, first, behind, others, rfl⟩

/-- A piece that leaves nothing might as well not be there. -/
theorem fillAll_drop {scope : Scope} {p : Part} (h : fill scope p = .ok []) (before after : List Part) :
    fillAll scope (before ++ p :: after) = fillAll scope (before ++ after) := by
  induction before with
  | nil =>
    simp only [List.nil_append, fillAll, h]
    cases fillAll scope after <;> rfl
  | cons q before ih => simp only [List.cons_append, fillAll, ih]

theorem resolve_isOk_iff (s : String) (scope : Scope) :
    (∃ text, resolve s scope = .ok text) ↔ ∃ cs, fillAll scope (parts s.toList) = .ok cs := by
  simp only [resolve, bind_eq_ok]
  constructor
  · rintro ⟨-, cs, filled, -⟩
    exact ⟨cs, filled⟩
  · rintro ⟨cs, filled⟩
    exact ⟨_, cs, filled, rfl⟩

/-- A template has a text unless one of its paths breaks or leads to a value without one, and a
placeholder whose path leads nowhere leaves nothing, wherever it stands. -/
theorem resolve_isOk (s : String) (scope : Scope) :
    ((∃ text, resolve s scope = .ok text) ↔ ∀ p, .hole p ∈ parts s.toList →
      Leads scope p.path .nowhere ∨ ∃ v, Leads scope p.path (.value v) ∧ v.HasText) ∧
    ∀ before p after, Leads scope p.path .nowhere →
      fillAll scope (before ++ .hole p :: after) = fillAll scope (before ++ after) := by
  refine ⟨?_, fun before p after lost => fillAll_drop (fill_of_nowhere lost) before after⟩
  rw [resolve_isOk_iff, fillAll_isOk]
  constructor
  · exact fun filled p there => (fill_isOk scope p).mp (filled _ there)
  · intro leads p there
    cases p with
    | char c => exact ⟨[c], rfl⟩
    | hole p => exact (fill_isOk scope p).mpr (leads p there)

/-- An index with two signs is no number, so the path breaks and the template has no text. -/
theorem resolve_twice_signed :
    resolve "\x7b\x7ba[--1]\x7d\x7d" ⟨[("a", .list [.int 1])]⟩ =
      .error (.badValue "invalid literal for int() with base 10: '--1'") := by
  decide +kernel

end Runbook.Template
