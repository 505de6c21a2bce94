import Runbook.Proofs.Condition.Comparison
import Runbook.Proofs.Json.Nesting
import Runbook.Proofs.Template.Written

/-! Membership of a variable in a variable.

A list is asked for a member through its data text: that text is taken for a list again and read
back, and its items are compared by the texts that they leave (`contains_items`). Any other text is
asked for an occurrence (`contains_text`). Between the two are the texts that are taken for a list
and are nested too deeply to be read, whether they are lists or not: there is no answer to the
question (`contains_tooDeep`). -/
namespace Runbook.Json

/-! ### The data text of a list -/

/-- Only an opening bracket is read as a list. -/
theorem exists_of_value_list {depth : Nat} {cs rest : List Char} {items : List Value}
    (h : value depth cs = .ok (.list items, rest)) : ∃ more, cs = '[' :: more := by
  unfold value at h
  split at h
  · obtain ⟨_, -, same⟩ := map_eq_ok.mp h
    cases same
  · exact ⟨_, rfl⟩
  · split at h
    · cases h
    · obtain ⟨_, -, same⟩ := map_eq_ok.mp h
      cases same
  · obtain ⟨s, same, -⟩ := scalar_of_atom h
    cases same

theorem text_writeItems_ends (style : Style) (level : Nat) {items : List Value}
    (h : ∀ v ∈ items, v.Writable) :
    ∃ front, (writeItems style level items).text = front ++ [']'] := by
  induction items with
  | nil => exact ⟨newline style level, by rw [writeItems]; rfl⟩
  | cons v items ih =>
    obtain ⟨here, behind⟩ := List.forall_mem_cons.mp h
    obtain ⟨front, ends⟩ := ih behind
    have text : (writeItems style level (v :: items)).text ++ [] = _ :=
      text_writeItems_cons here items []
    rw [List.append_nil, List.append_nil, ends] at text
    exact ⟨style.comma.toList ++ (newline style (level + 1) ++
      ((write style (level + 1) v).text ++ front)), by simp only [text, List.append_assoc]⟩

/-- The data text of a list stands in brackets. -/
theorem exists_between {items : List Value} {text : String}
    (h : render compact (.list items) = .ok text) :
    ∃ between, text.toList = '[' :: (between ++ [']']) := by
  have written := (render_isOk compact (.list items)).mp ⟨text, h⟩
  unfold render at h
  simp only [(write_refused compact 0 (.list items)).mpr written, Except.ok.injEq] at h
  rw [← h, String.toList_ofList]
  cases items with
  | nil => exact ⟨[], by rw [write]; rfl⟩
  | cons v items =>
    cases written with
    | list written =>
      obtain ⟨here, behind⟩ := List.forall_mem_cons.mp written
      obtain ⟨front, ends⟩ := text_writeItems_ends compact 0 behind
      refine ⟨newline compact 1 ++ ((write compact 1 v).text ++ front), ?_⟩
      rw [write, Written.text_append _ (by simp [(write_refused compact 1 v).mpr here]),
        Written.text_append _ (by simp), ends]
      simp [Written.ok]

theorem isSpace_of_solid {c : Char} (solid : Text.isBlank c = false) : isSpace c = false := by
  refine Bool.eq_false_iff.mpr fun space => ?_
  simp only [isSpace, Bool.or_eq_true, beq_iff_eq] at space
  obtain ((rfl | rfl) | rfl) | rfl := space <;> cases solid

/-- What has no blank in front and is read as a list starts with its bracket. -/
theorem exists_of_parse_list {cs : List Char} {items : List Value}
    (first : ∀ c ∈ cs.head?, Text.isBlank c = false)
    (h : parse (String.ofList cs) = .ok (.list items)) : ∃ more, cs = '[' :: more := by
  have read := parse_eq_ok.mp h
  rw [String.toList_ofList] at read
  have kept : skipSpace cs = cs := by
    cases cs with
    | nil => rfl
    | cons c cs => exact skipSpace_cons (isSpace_of_solid (first c rfl)) cs
  unfold document at read
  split at read
  · cases read
  · obtain ⟨⟨v, rest⟩, front, back⟩ := bind_eq_ok.mp read
    dsimp only at back
    split at back
    · cases back
      rw [kept] at front
      exact exists_of_value_list front
    · cases back

end Runbook.Json

namespace Runbook.Text

/-- What is left of a text without the blanks around it starts with no blank. -/
theorem head?_trim (cs : List Char) : ∀ c ∈ (trim cs).head?, isBlank c = false := by
  intro c first
  cases start : trimStart cs with
  | nil =>
    rw [trim, start] at first
    cases first
  | cons d rest =>
    have solid : isBlank d = false := by
      have head := List.head?_dropWhile_not isBlank cs
      rw [← trimStart, start] at head
      simpa using head
    have again : trimStart (d :: rest) = d :: rest := by
      rw [trimStart, List.dropWhile_cons_of_neg (by simp [solid])]
    obtain ⟨more, trimmed⟩ := Template.trim_cons solid rest
    rw [trim, again] at trimmed
    rw [trim, start, trimmed] at first
    cases first
    exact solid

end Runbook.Text

namespace Runbook.Condition

open Template

/-! ### Lists and other texts -/

/-- A text is taken for a list where it is the data text of one, blanks around it aside. -/
theorem listItems?_some {s : String} {items : List Value} :
    listItems? s = .ok (some items) ↔ Json.parse (Text.trimmed s) = .ok (.list items) := by
  constructor
  · intro h
    unfold listItems? at h
    split at h
    · rename_i cs list
      split at h
      · rename_i read
        cases h
        rwa [Text.trimmed, list]
      · cases h
      · split at h <;> cases h
    · cases h
  · intro h
    obtain ⟨cs, list⟩ := Json.exists_of_parse_list (Text.head?_trim s.toList) h
    rw [Text.trimmed, list] at h
    simp only [listItems?, list, h]

theorem listItems?_tooDeep {s : String} : listItems? s = .error .tooDeep ↔ NestsTooDeep s := by
  refine ⟨fun h => (listItems?_error h).2, ?_⟩
  rintro ⟨cs, list, deep⟩
  simp only [listItems?, list, deep]
  rfl

/-- A text that is no list and is not nested too deeply is no list to the end. -/
theorem listItems?_none {s : String}
    (other : ∀ items, Json.parse (Text.trimmed s) ≠ .ok (.list items))
    (shallow : ¬ NestsTooDeep s) : listItems? s = .ok none := by
  cases taken : listItems? s with
  | ok found =>
    cases found with
    | none => rfl
    | some items => exact absurd (listItems?_some.mp taken) (other items)
  | error f => exact absurd (listItems?_error taken).2 shallow

theorem mem_of_mapM {items : List Value} {texts : List String}
    (h : items.mapM Literal.stringify = .ok texts) (text : String) :
    text ∈ texts ↔ ∃ item ∈ items, Literal.stringify item = .ok text := by
  induction items generalizing texts with
  | nil =>
    cases h
    simp
  | cons v items ih =>
    rw [List.mapM_cons] at h
    obtain ⟨here, first, h⟩ := bind_eq_ok.mp h
    obtain ⟨behind, others, h⟩ := bind_eq_ok.mp h
    cases h
    rw [List.mem_cons, ih others, List.exists_mem_cons_iff, first, Except.ok.injEq, eq_comm]

/-- A list has the members that leave the same text. -/
theorem contains_items {left : String} (right : String) {items : List Value}
    (h : Json.parse (Text.trimmed left) = .ok (.list items)) :
    ∃ answer, contains left right = .ok answer ∧
      (answer = true ↔ ∃ item ∈ items, Literal.stringify item = .ok right) := by
  have list := listItems?_some.mpr h
  obtain ⟨texts, written⟩ := mapM_stringify_isOk (listItems?_hasText list)
  refine ⟨texts.contains right, ?_, ?_⟩
  · rw [contains, list]
    simp only [bind, Except.bind, written]
    rfl
  · rw [List.contains_iff_mem, mem_of_mapM written]

/-- Any other text has the texts that occur in it. -/
theorem contains_text {left : String} (right : String)
    (other : ∀ items, Json.parse (Text.trimmed left) ≠ .ok (.list items))
    (shallow : ¬ NestsTooDeep left) :
    ∃ answer, contains left right = .ok answer ∧
      (answer = true ↔ right.toList <:+: left.toList) := by
  refine ⟨Text.contains right.toList left.toList, ?_, Text.contains_iff _ _⟩
  rw [contains, listItems?_none other shallow]
  rfl

theorem contains_tooDeep {left right : String} :
    contains left right = .error .tooDeep ↔ NestsTooDeep left := by
  constructor
  · intro failed
    have failed : compareTexts left .contains right = .error .tooDeep := failed
    exact (compareTexts_error failed).2.2
  · intro deep
    rw [contains, listItems?_tooDeep.mpr deep]
    rfl

/-! ### Texts of lists -/

section

variable {items : List Value} {text : String}

theorem trim_list (written : Literal.stringify (.list items) = .ok text) :
    Text.trim text.toList = text.toList := by
  obtain ⟨between, chars⟩ := Json.exists_between written
  rw [chars]
  exact Text.trim_eq_self rfl rfl between

theorem parse_trimmed_list (data : (Value.list items).IsData)
    (written : Literal.stringify (.list items) = .ok text)
    (shallow : (Value.list items).nesting ≤ Json.depthLimit) :
    Json.parse (Text.trimmed text) = .ok (.list items) := by
  rw [Text.trimmed, trim_list written, String.ofList_toList]
  exact (Json.parse_render_iff (List.mem_cons_self ..) data written).mpr shallow

theorem nestsTooDeep_list (data : (Value.list items).IsData)
    (written : Literal.stringify (.list items) = .ok text) :
    NestsTooDeep text ↔ Json.depthLimit < (Value.list items).nesting := by
  obtain ⟨between, chars⟩ := Json.exists_between written
  constructor
  · rintro ⟨cs, list, deep⟩
    refine Nat.lt_of_not_le fun shallow => ?_
    have read := parse_trimmed_list data written shallow
    rw [Text.trimmed, list, deep] at read
    cases read
  · intro deep
    have trimmed := (trim_list written).trans chars
    refine ⟨_, trimmed, ?_⟩
    rw [← chars, String.ofList_toList]
    exact Json.parse_render_tooDeep (List.mem_cons_self ..) written deep

end

/-! ### The condition -/

/-- The question whether a variable contains what another one holds. -/
def membership (a b : String) : String := holeFor a ++ " contains " ++ holeFor b

/-- The placeholder for a variable is an operand at the end too. -/
theorem tokensFrom_lastHole {name : String} (h : IsName name) (length fuel : Nat) :
    tokensFrom length (fuel + 1) (holeFor name).toList = .ok [.operand (holeFor name) false] := by
  have opened : (holeFor name).toList = '{' :: '{' :: (name.toList ++ ['}', '}']) := by
    simp [holeFor]
  have unbraced : '}' ∉ name.toList := h.not_mem (by decide)
  have stops (fuel : Nat) : bareOperand fuel [] = ([], []) := by cases fuel <;> rfl
  have taken := bareOperand_hole unbraced ('{' :: (name.toList ++ ['}', '}'])).length []
  rw [stops] at taken
  have operand : ofWord (holeFor name) = .operand (holeFor name) false :=
    ofWord_operand (c := '{') (by decide) (by decide) (by decide) _
  have nothing : tokensFrom length fuel [] = .ok [] := by cases fuel <;> rfl
  rw [opened, tokensFrom_bare rfl rfl (by decide) taken, nothing]
  show Except.ok [ofWord (holeFor name)] = _
  rw [operand]

theorem tokenize_membership {a b : String} (ha : IsName a) (hb : IsName b) :
    tokenize (membership a b) =
      .ok [.operand (holeFor a) false, .op .contains, .operand (holeFor b) false] := by
  have chars : (membership a b).toList =
      (holeFor a).toList ++ ' ' :: ("contains".toList ++ ' ' :: (holeFor b).toList) := by
    simp [membership]
  have length : ((holeFor a).toList ++
      ' ' :: ("contains".toList ++ ' ' :: (holeFor b).toList)).length =
        a.toList.length + b.toList.length + 13 + 1 + 3 + 1 := by
    simp [holeFor]
    omega
  have asked (length fuel : Nat) (cs : List Char) :
      tokensFrom length (fuel + 3) (' ' :: ("contains".toList ++ ' ' :: cs)) =
        (tokensFrom length fuel cs).map (.op .contains :: ·) := rfl
  rw [tokenize, chars, length, tokensFrom_holeFor ha, asked, tokensFrom_lastHole hb]
  rfl

/-- The placeholder for a variable is filled with the text of its value, or fails with it. -/
theorem resolve_holeFor {name : String} (h : IsName name) {scope : Scope} {v : Value}
    (bound : scope.get? name = some v) : resolve (holeFor name) scope = Literal.stringify v := by
  have cut := partsFrom_holeFor h (List.not_mem_nil : '{' ∉ [])
  rw [List.append_nil, List.length_nil, Nat.add_zero, List.map_nil] at cut
  rw [resolve, parts, cut, fillAll, fill, lookup_name h bound]
  cases written : Literal.stringify v with
  | error f => simp [written, bind, Except.bind]
  | ok text => simp [written, fillAll, bind, Except.bind, pure, Except.pure]

section

variable {a b : String} {scope : Scope} {u v : Value}

theorem evaluate_membership (ha : IsName a) (hb : IsName b) (left : scope.get? a = some u)
    (right : scope.get? b = some v) :
    evaluate (membership a b) scope = (do
      let l ← Literal.stringify u
      let r ← Literal.stringify v
      contains l r) := by
  rw [evaluate_compared (tokenize_membership ha hb), Atom.value, resolve_holeFor ha left,
    resolve_holeFor hb right]
  rfl

theorem evaluate_membership_ok (ha : IsName a) (hb : IsName b) (left : scope.get? a = some u)
    (right : scope.get? b = some v) {answer : Bool} :
    evaluate (membership a b) scope = .ok answer ↔
      ∃ l r, Literal.stringify u = .ok l ∧ Literal.stringify v = .ok r ∧
        contains l r = .ok answer := by
  simp only [evaluate_membership ha hb left right, bind_eq_ok, exists_and_left]

/-- The question fails for its depth only where both variables have a text. -/
theorem evaluate_membership_tooDeep (ha : IsName a) (hb : IsName b) (left : scope.get? a = some u)
    (right : scope.get? b = some v) :
    evaluate (membership a b) scope = .error .tooDeep ↔
      (∃ l, Literal.stringify u = .ok l ∧ NestsTooDeep l) ∧ v.HasText := by
  have other {w : Value} : Literal.stringify w ≠ .error .tooDeep := fun failed => by
    rcases Literal.stringify_error failed with same | same <;> cases same
  rw [evaluate_membership ha hb left right, bind_eq_error, ← Literal.stringify_isOk]
  constructor
  · rintro (failed | ⟨l, written, failed⟩)
    · exact absurd failed other
    · rcases bind_eq_error.mp failed with failed | ⟨r, written', failed⟩
      · exact absurd failed other
      · exact ⟨⟨l, written, contains_tooDeep.mp failed⟩, r, written'⟩
  · rintro ⟨⟨l, written, deep⟩, r, written'⟩
    exact .inr ⟨l, written, by rw [written']; exact contains_tooDeep.mpr deep⟩

/-- A list is asked for an item with the same text. There is an answer exactly if both have a text
and the list is not nested too deeply to be read back. -/
theorem evaluate_membership_list (ha : IsName a) (hb : IsName b) {items : List Value}
    (data : (Value.list items).IsData) (left : scope.get? a = some (.list items))
    (right : scope.get? b = some v) (answer : Bool) :
    evaluate (membership a b) scope = .ok answer ↔
      (Value.list items).Writable ∧ v.HasText ∧ (Value.list items).nesting ≤ Json.depthLimit ∧
        (answer = true ↔ ∃ item ∈ items, Literal.stringify item = Literal.stringify v) := by
  rw [evaluate_membership_ok ha hb left right]
  constructor
  · rintro ⟨l, r, written, written', found⟩
    have shallow : (Value.list items).nesting ≤ Json.depthLimit := Nat.le_of_not_lt fun deep => by
      rw [contains_tooDeep.mpr ((nestsTooDeep_list data written).mpr deep)] at found
      cases found
    obtain ⟨answer', found', member⟩ := contains_items r
      (parse_trimmed_list data written shallow)
    cases found.symm.trans found'
    rw [written']
    exact ⟨(Json.render_isOk _ _).mp ⟨l, written⟩, (Literal.stringify_isOk v).mp ⟨r, written'⟩,
      shallow, member⟩
  · rintro ⟨writable, hasText, shallow, member⟩
    obtain ⟨l, written⟩ := (Json.render_isOk Json.compact _).mpr writable
    obtain ⟨r, written'⟩ := (Literal.stringify_isOk v).mpr hasText
    obtain ⟨answer', found, member'⟩ := contains_items r
      (parse_trimmed_list data written shallow)
    rw [written', ← member', ← Bool.eq_iff_iff] at member
    exact ⟨l, r, written, written', by rw [found, member]⟩

/-- The data text of a list is asked like the list. -/
theorem evaluate_membership_items (ha : IsName a) (hb : IsName b) {text : String}
    {items : List Value} (left : scope.get? a = some (.str text)) (right : scope.get? b = some v)
    (list : Json.parse (Text.trimmed text) = .ok (.list items)) (answer : Bool) :
    evaluate (membership a b) scope = .ok answer ↔
      v.HasText ∧
        (answer = true ↔ ∃ item ∈ items, Literal.stringify item = Literal.stringify v) := by
  rw [evaluate_membership_ok ha hb left right]
  constructor
  · rintro ⟨l, r, written, written', found⟩
    cases written
    obtain ⟨answer', found', member⟩ := contains_items r list
    cases found.symm.trans found'
    rw [written']
    exact ⟨(Literal.stringify_isOk v).mp ⟨r, written'⟩, member⟩
  · rintro ⟨hasText, member⟩
    obtain ⟨r, written'⟩ := (Literal.stringify_isOk v).mpr hasText
    obtain ⟨answer', found, member'⟩ := contains_items r list
    rw [written', ← member', ← Bool.eq_iff_iff] at member
    exact ⟨text, r, rfl, written', by rw [found, member]⟩

/-- Any other text is asked for an occurrence. There is an answer exactly if there is something to
ask for and the text is not taken for a list that is nested too deeply. -/
theorem evaluate_membership_text (ha : IsName a) (hb : IsName b) {text : String}
    (left : scope.get? a = some (.str text)) (right : scope.get? b = some v)
    (other : ∀ items, Json.parse (Text.trimmed text) ≠ .ok (.list items)) (answer : Bool) :
    evaluate (membership a b) scope = .ok answer ↔
      v.HasText ∧ ¬ NestsTooDeep text ∧
        (answer = true ↔ ∃ t, Literal.stringify v = .ok t ∧ t.toList <:+: text.toList) := by
  rw [evaluate_membership_ok ha hb left right]
  constructor
  · rintro ⟨l, r, written, written', found⟩
    cases written
    have shallow : ¬ NestsTooDeep text := fun deep => by
      cases found.symm.trans (contains_tooDeep.mpr deep)
    obtain ⟨answer', found', occurs⟩ := contains_text r other shallow
    cases found.symm.trans found'
    refine ⟨(Literal.stringify_isOk v).mp ⟨r, written'⟩, shallow, ?_⟩
    simp only [written', Except.ok.injEq, exists_eq_left', occurs]
  · rintro ⟨hasText, shallow, occurs⟩
    obtain ⟨r, written'⟩ := (Literal.stringify_isOk v).mpr hasText
    obtain ⟨answer', found, occurs'⟩ := contains_text r other shallow
    simp only [written', Except.ok.injEq, exists_eq_left', ← occurs', ← Bool.eq_iff_iff] at occurs
    exact ⟨text, r, rfl, written', by rw [found, occurs]⟩

end

/-- Whether a variable contains what another one holds. A list contains what leaves the same text as
one of its items does, and so does the data text of a list; any other text contains the texts that
occur in it. The question has no answer where one of the two has no text, and where what is asked is
taken for a list and is nested too deeply to be read back. -/
theorem evaluate_contains {a b : String} (ha : IsName a) (hb : IsName b) {scope : Scope} {v : Value}
    (right : scope.get? b = some v) :
    (∀ items, (Value.list items).IsData → scope.get? a = some (.list items) →
      (∀ answer, evaluate (holeFor a ++ " contains " ++ holeFor b) scope = .ok answer ↔
        (Value.list items).Writable ∧ v.HasText ∧ (Value.list items).nesting ≤ Json.depthLimit ∧
          (answer = true ↔ ∃ item ∈ items, Literal.stringify item = Literal.stringify v)) ∧
      (evaluate (holeFor a ++ " contains " ++ holeFor b) scope = .error .tooDeep ↔
        (Value.list items).Writable ∧ v.HasText ∧
          Json.depthLimit < (Value.list items).nesting)) ∧
    ∀ text, scope.get? a = some (.str text) →
      (∀ items, Json.parse (Text.trimmed text) = .ok (.list items) → ∀ answer,
        evaluate (holeFor a ++ " contains " ++ holeFor b) scope = .ok answer ↔ v.HasText ∧
          (answer = true ↔ ∃ item ∈ items, Literal.stringify item = Literal.stringify v)) ∧
      ((∀ items, Json.parse (Text.trimmed text) ≠ .ok (.list items)) → ∀ answer,
        evaluate (holeFor a ++ " contains " ++ holeFor b) scope = .ok answer ↔
          v.HasText ∧ ¬ NestsTooDeep text ∧
            (answer = true ↔ ∃ t, Literal.stringify v = .ok t ∧ t.toList <:+: text.toList)) ∧
      (evaluate (holeFor a ++ " contains " ++ holeFor b) scope = .error .tooDeep ↔
        NestsTooDeep text ∧ v.HasText) := by
  refine ⟨fun items data left => ⟨evaluate_membership_list ha hb data left right, ?_⟩,
    fun text left => ⟨fun items list => evaluate_membership_items ha hb left right list,
      fun other => evaluate_membership_text ha hb left right other, ?_⟩⟩
  · refine (evaluate_membership_tooDeep ha hb left right).trans ⟨?_, ?_⟩
    · rintro ⟨⟨l, written, deep⟩, hasText⟩
      exact ⟨(Json.render_isOk _ _).mp ⟨l, written⟩, hasText,
        (nestsTooDeep_list data written).mp deep⟩
    · rintro ⟨writable, hasText, deep⟩
      obtain ⟨l, written⟩ := (Json.render_isOk Json.compact _).mpr writable
      exact ⟨⟨l, written, (nestsTooDeep_list data written).mpr deep⟩, hasText⟩
  · refine (evaluate_membership_tooDeep ha hb left right).trans (and_congr_left fun _ => ?_)
    exact ⟨fun ⟨l, written, deep⟩ => by cases written; exact deep, fun deep => ⟨text, rfl, deep⟩⟩

theorem isName_xs : IsName "xs" := ⟨'x', ['s'], rfl, rfl, List.all_eq_true.mp rfl⟩

theorem isName_y : IsName "y" := ⟨'y', [], rfl, rfl, nofun⟩

/-- A list has an item in it where another value leaves the same text, and what looks like the data
text of a list is not asked for an occurrence. -/
theorem evaluate_contains_nested :
    evaluate (holeFor "xs" ++ " contains " ++ holeFor "y")
        ⟨[("xs", .list [.int 1, .list [.int 2, .null]]), ("y", .str "[2,null]")]⟩ = .ok true ∧
      evaluate (holeFor "xs" ++ " contains " ++ holeFor "y")
        ⟨[("xs", .str " [ 12, 3 ]"), ("y", .int 2)]⟩ = .ok false := by
  constructor
  · have data : (Value.list [.int 1, .list [.int 2, .null]]).IsData := by
      simp [Value.IsData, Value.AreData]
    have asked := (@evaluate_contains "xs" "y" isName_xs isName_y
      ⟨[("xs", .list [.int 1, .list [.int 2, .null]]), ("y", .str "[2,null]")]⟩ _ rfl).1
    have writable := (Json.render_isOk Json.compact (.list [.int 1, .list [.int 2, .null]])).mp
      ⟨_, rfl⟩
    exact ((asked _ data rfl).1 true).mpr ⟨writable, trivial, by decide,
      iff_of_true rfl ⟨.list [.int 2, .null], by simp, rfl⟩⟩
  · have asked := (@evaluate_contains "xs" "y" isName_xs isName_y
      ⟨[("xs", .str " [ 12, 3 ]"), ("y", .int 2)]⟩ _ rfl).2
    exact ((asked _ rfl).1 [.int 12, .int 3] rfl false).mpr
      ⟨rfl, iff_of_false Bool.false_ne_true (by decide)⟩

/-- What is no list but starts with more brackets than can be read is not asked for an occurrence:
the question fails, and not as a condition is refused. -/
theorem evaluate_contains_brackets :
    let text := String.ofList (List.replicate 20000 '[')
    let scope : Scope := ⟨[("xs", .str text), ("y", .str "x")]⟩
    (∀ items, Json.parse (Text.trimmed text) ≠ .ok (.list items)) ∧
      Literal.stringify (.str "x") = .ok "x" ∧ ¬ "x".toList <:+: text.toList ∧
      evaluate "\x7b\x7bxs\x7d\x7d contains \x7b\x7by\x7d\x7d" scope = .error .tooDeep := by
  intro text scope
  have deep : NestsTooDeep text := nestsTooDeep_brackets (by decide)
  refine ⟨fun items read => ?_, rfl, fun occurs => ?_, ?_⟩
  · obtain ⟨cs, list, failed⟩ := deep
    rw [Text.trimmed, list, failed] at read
    cases read
  · have there : 'x' ∈ text.toList := occurs.subset (List.mem_singleton_self _)
    rw [String.toList_ofList] at there
    exact absurd (List.eq_of_mem_replicate there) (by decide)
  · have asked : "\x7b\x7bxs\x7d\x7d contains \x7b\x7by\x7d\x7d" = membership "xs" "y" := rfl
    rw [asked]
    exact (evaluate_membership_tooDeep isName_xs isName_y (v := .str "x") rfl rfl).mpr
      ⟨⟨text, rfl, deep⟩, trivial⟩

end Runbook.Condition
