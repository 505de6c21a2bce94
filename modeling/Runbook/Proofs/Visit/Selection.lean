import Runbook.Proofs.Scope
import Runbook.Proofs.Visit.Index
import Runbook.Proofs.Visit.Search
import Runbook.Visit.Ask

/-! Selections in a note.

A position counts lines, and characters in its line, both from zero: it is where a walk through the
text in front of it ends (`position`). A position inside a note has a part of the note in front of
it (`exists_front`), whose length is the offset of the position (`lengthOf_position`), so two
positions in order have a part of the note between them, and that is what is saved
(`pickText_selects`). -/
namespace Runbook.Visit

open Text (splitAt)

/-! ### Positions -/

/-- A place in a text: a line, and how many characters of the line are in front of it. -/
structure Position where
  line : Nat
  ch : Nat

namespace Position

instance : LE Position := ⟨fun p q => p.line < q.line ∨ p.line = q.line ∧ p.ch ≤ q.ch⟩

theorem le_iff {p q : Position} : p ≤ q ↔ p.line < q.line ∨ p.line = q.line ∧ p.ch ≤ q.ch := Iff.rfl

/-- A line that is there, and no more characters than it has. -/
def Inside (p : Position) (content : List Char) : Prop :=
  ∃ line, (splitAt '\n' content)[p.line]? = some line ∧ p.ch ≤ line.length

/-- The end of the last line. -/
def Ends (p : Position) (content : List Char) : Prop :=
  ∃ line, (splitAt '\n' content)[p.line]? = some line ∧ p.ch = line.length ∧
    p.line + 1 = (splitAt '\n' content).length

/-- The place behind a character. -/
def step (p : Position) (c : Char) : Position :=
  if c = '\n' then ⟨p.line + 1, 0⟩ else ⟨p.line, p.ch + 1⟩

/-- A walk goes on. -/
theorem not_foldl_le {cs : List Char} (some_step : cs ≠ []) (p : Position) :
    ¬ cs.foldl step p ≤ p := by
  induction cs generalizing p with
  | nil => exact absurd rfl some_step
  | cons c cs ih =>
    have next : ¬ step p c ≤ p := by
      unfold step
      split
      · rintro (less | ⟨same, -⟩)
        · exact absurd less (Nat.not_lt.mpr (Nat.le_succ _))
        · exact absurd same (Nat.succ_ne_self _)
      · rintro (less | ⟨-, less⟩)
        · exact absurd less (Nat.lt_irrefl _)
        · exact absurd less (Nat.not_succ_le_self _)
    cases cs with
    | nil => exact next
    | cons d cs =>
      have later := ih (List.cons_ne_nil d cs) (step p c)
      rw [List.foldl_cons]
      rw [le_iff] at next later ⊢
      omega

end Position

/-- The place behind a text. -/
def position (before : List Char) : Position := before.foldl Position.step ⟨0, 0⟩

/-- A text in front of another one moves its places. -/
theorem foldl_step (p : Position) (before : List Char) :
    before.foldl Position.step p =
      if (position before).line = 0 then ⟨p.line, p.ch + (position before).ch⟩
      else ⟨p.line + (position before).line, (position before).ch⟩ := by
  induction before using List.reverseRecOn with
  | nil => rfl
  | append_singleton before c ih =>
    rw [position, List.foldl_append, List.foldl_append, ← position, ih]
    simp only [List.foldl_cons, List.foldl_nil]
    by_cases line : c = '\n' <;> by_cases first : (position before).line = 0 <;>
      simp [Position.step, line, first, Nat.add_assoc]

theorem position_newline (before : List Char) :
    position ('\n' :: before) = ⟨(position before).line + 1, (position before).ch⟩ := by
  show before.foldl Position.step ⟨1, 0⟩ = _
  rw [foldl_step]
  split
  · rename_i first
    rw [first, Nat.zero_add]
  · rw [Nat.add_comm]

theorem position_cons {c : Char} (other : c ≠ '\n') (before : List Char) :
    position (c :: before) =
      if (position before).line = 0 then ⟨0, (position before).ch + 1⟩ else position before := by
  show before.foldl Position.step (Position.step ⟨0, 0⟩ c) = _
  rw [Position.step, if_neg other, foldl_step]
  split
  · rw [Nat.zero_add, Nat.add_comm]
  · rw [Nat.zero_add]

/-- A text splits into lines: an end of a line begins one, and another character begins the first. -/
theorem splitAt_cons {c sep : Char} (other : c ≠ sep) (cs : List Char) :
    ∃ piece pieces, splitAt sep cs = piece :: pieces ∧
      splitAt sep (c :: cs) = (c :: piece) :: pieces := by
  obtain ⟨piece, pieces, split⟩ := List.exists_cons_of_ne_nil (Text.splitAt_ne_nil sep cs)
  exact ⟨piece, pieces, split, by rw [splitAt, if_neg other, split]⟩

theorem splitAt_sep (sep : Char) (cs : List Char) :
    splitAt sep (sep :: cs) = [] :: splitAt sep cs := by
  rw [splitAt, if_pos rfl]

/-- A text up to a place inside another text is in front of the rest of it. -/
theorem exists_front {p : Position} {content : List Char} (inside : p.Inside content) :
    ∃ before after, content = before ++ after ∧ position before = p := by
  obtain ⟨line, ch⟩ := p
  obtain ⟨here, there, short⟩ := inside
  induction content generalizing line ch here with
  | nil =>
    obtain ⟨rfl, rfl⟩ : line = 0 ∧ here = [] := by
      cases line with
      | zero => exact ⟨rfl, (Option.some.inj there).symm⟩
      | succ line => cases there
    obtain rfl : ch = 0 := Nat.le_zero.mp short
    exact ⟨[], [], rfl, rfl⟩
  | cons c content ih =>
    by_cases newline : c = '\n'
    · subst newline
      rw [splitAt_sep] at there
      cases line with
      | zero =>
        cases there
        obtain rfl : ch = 0 := Nat.le_zero.mp short
        exact ⟨[], _, rfl, rfl⟩
      | succ line =>
        obtain ⟨before, after, rfl, place⟩ := ih line ch here there short
        exact ⟨'\n' :: before, after, rfl, by rw [position_newline, place]⟩
    · obtain ⟨piece, pieces, split, whole⟩ := splitAt_cons newline content
      rw [whole] at there
      cases line with
      | zero =>
        cases there
        cases ch with
        | zero => exact ⟨[], _, rfl, rfl⟩
        | succ ch =>
          obtain ⟨before, after, rfl, place⟩ :=
            ih 0 ch piece (by rw [split]; rfl) (Nat.le_of_succ_le_succ short)
          refine ⟨c :: before, after, rfl, ?_⟩
          rw [position_cons newline, place]
          rfl
      | succ line =>
        obtain ⟨before, after, rfl, place⟩ := ih (line + 1) ch here (by rw [split]; exact there) short
        refine ⟨c :: before, after, rfl, ?_⟩
        rw [position_cons newline, place]
        rfl

/-- The lines in front of a place and the characters in front of it are all that is in front. -/
theorem lengthOf_position (before after : List Char) :
    lengthOf ((splitAt '\n' (before ++ after)).take (position before).line) +
      (position before).ch = before.length := by
  induction before with
  | nil => rfl
  | cons c before ih =>
    by_cases newline : c = '\n'
    · subst newline
      rw [List.cons_append, splitAt_sep, position_newline, List.take_succ_cons, lengthOf,
        List.length_cons, List.length_nil]
      dsimp only
      omega
    · obtain ⟨piece, pieces, split, whole⟩ := splitAt_cons newline (before ++ after)
      rw [split] at ih
      rw [List.cons_append, whole, position_cons newline, List.length_cons]
      cases line : (position before).line with
      | zero =>
        rw [line] at ih
        simp only [List.take_zero, lengthOf, if_true] at ih ⊢
        omega
      | succ n =>
        rw [line] at ih
        simp only [line, List.take_succ_cons, lengthOf, List.length_cons, Nat.succ_ne_zero,
          if_false] at ih ⊢
        omega

/-- Two places in order have a part of the text between them. -/
theorem exists_between {p q : Position} {content : List Char} (first : p.Inside content)
    (last : q.Inside content) (order : p ≤ q) :
    ∃ before part after, content = before ++ part ++ after ∧ position before = p ∧
      position (before ++ part) = q := by
  obtain ⟨before, rest, rfl, rfl⟩ := exists_front first
  obtain ⟨front, after, whole, rfl⟩ := exists_front last
  rcases List.append_eq_append_iff.mp whole with ⟨part, rfl, rfl⟩ | ⟨more, rfl, rfl⟩
  · exact ⟨before, part, after, (List.append_assoc ..).symm, rfl, rfl⟩
  · -- Nothing can be behind the last place and in front of the first one.
    have none : more = [] := by
      refine Decidable.byContradiction fun some_more => ?_
      rw [position, List.foldl_append] at order
      exact Position.not_foldl_le some_more _ order
    subst none
    exact ⟨front, [], rest, by simp, by rw [List.append_nil], by rw [List.append_nil]⟩

/-- No two parts at the front of a text lead to one place. -/
theorem front_unique {before before' after after' : List Char}
    (whole : before ++ after = before' ++ after') (same : position before = position before') :
    before = before' := by
  have stays {front more : List Char} (same : position (front ++ more) = position front) :
      more = [] := by
    refine Decidable.byContradiction fun some_more => ?_
    have further := Position.not_foldl_le some_more (position front)
    rw [position, List.foldl_append, ← position] at same
    rw [same] at further
    exact further (.inr ⟨rfl, Nat.le_refl _⟩)
  rcases List.append_eq_append_iff.mp whole with ⟨more, rfl, -⟩ | ⟨more, rfl, -⟩
  · rw [stays same.symm, List.append_nil]
  · rw [stays same, List.append_nil]

/-- The whole of a text ends at the end of its last line. -/
theorem position_ends (content : List Char) : (position content).Ends content := by
  induction content with
  | nil => exact ⟨[], rfl, rfl, rfl⟩
  | cons c content ih =>
    obtain ⟨line, there, ch, last⟩ := ih
    by_cases newline : c = '\n'
    · subst newline
      refine ⟨line, ?_, ?_, ?_⟩ <;> rw [position_newline]
      · rwa [splitAt_sep]
      · exact ch
      · rw [splitAt_sep, List.length_cons, ← last]
    · obtain ⟨piece, pieces, split, whole⟩ := splitAt_cons newline content
      rw [split] at there last
      rw [Position.Ends, whole, position_cons newline]
      cases first : (position content).line with
      | zero =>
        rw [first] at there last
        cases there
        exact ⟨c :: line, rfl, by rw [if_pos rfl, ch]; rfl, last⟩
      | succ n =>
        rw [first] at there last
        refine ⟨line, ?_, ch, ?_⟩
        · simpa [first] using there
        · simpa [first] using last

/-- No other place is at the end of the last line. -/
theorem Position.Ends.position_eq {p : Position} {content : List Char} (h : p.Ends content) :
    position content = p := by
  obtain ⟨line, ch⟩ := p
  obtain ⟨here, there, rfl, last⟩ := h
  obtain ⟨here', there', ch', last'⟩ := position_ends content
  have same : (position content).line = line := Nat.succ.inj (last'.trans last.symm)
  rw [same, there] at there'
  cases there'
  cases place : position content with
  | mk line' ch'' =>
    rw [place] at same ch'
    cases same
    cases ch'
    rfl

/-! ### Offsets -/

/-- A value that says a position, with the line as it says it. -/
structure Marks (v line : Value) (p : Position) : Prop where
  said : coordinate "line" v = .ok line
  counts : wholeNumber line = .ok p.line
  ch : ∃ n, coordinate "ch" v = .ok n ∧ wholeNumber n = .ok p.ch

variable {v line : Value} {first last firstLine lastLine : Value} {before part after : List Char}

/-- The offset of a place is the length of the text in front of it. -/
theorem offset_eq (marks : Marks v line (position before)) (after : List Char) :
    offset (splitAt '\n' (before ++ after)) v = .ok before.length := by
  obtain ⟨said, counts, n, ch, chars⟩ := marks
  have length := lengthOf_position before after
  refine bind_eq_ok.mpr ⟨_, said, bind_eq_ok.mpr ⟨_, counts, bind_eq_ok.mpr ⟨_, ch,
    bind_eq_ok.mpr ⟨_, chars, congrArg Except.ok ?_⟩⟩⟩⟩
  rw [Int.toNat_natCast, ← length, Int.natCast_add]

theorem slice_eq (before part after : List Char) :
    slice (before ++ part ++ after) before.length (before ++ part).length = part := by
  have nonneg (n : Nat) : ¬ (n : Int) < 0 := Int.not_lt.mpr (Int.natCast_nonneg n)
  have inside : (before ++ part).length ≤ (before ++ part ++ after).length := by simp
  have front : before.length ≤ (before ++ part ++ after).length := by
    rw [List.append_assoc, List.length_append]
    exact Nat.le_add_right _ _
  simp only [slice, clamped, nonneg, if_false, Int.toNat_natCast, Nat.min_eq_right inside,
    Nat.min_eq_right front]
  rw [List.take_left, List.drop_left]

/-- Where a selection stands. -/
def placed (path : String) (firstLine lastLine : Value) (start stop : Nat) : Value :=
  .record [("filePath", .str path), ("startLine", firstLine), ("endLine", lastLine),
    ("start", .int start), ("end", .int stop)]

/-- Between two places of a note is the text that is saved of it. -/
theorem range_eq (path : String) {content : String} (start : Marks first firstLine (position before))
    (stop : Marks last lastLine (position (before ++ part)))
    (whole : content.toList = before ++ part ++ after) :
    range (.str path) content first last =
      .ok ⟨String.ofList part, placed path firstLine lastLine before.length (before ++ part).length⟩ := by
  have starts := offset_eq start (part ++ after)
  rw [← List.append_assoc] at starts
  unfold range
  rw [whole]
  refine bind_eq_ok.mpr ⟨_, starts, bind_eq_ok.mpr ⟨_, offset_eq stop after,
    bind_eq_ok.mpr ⟨_, start.said, bind_eq_ok.mpr ⟨_, stop.said, ?_⟩⟩⟩⟩
  rw [slice_eq]
  rfl

/-! ### The node -/

variable {σ : Type} {c : Context σ} {s s' : Session σ} {path content : String} {answer : Value}

/-- A node that has its text selected in a note: nothing is selected before, the user answers with
the note, and the vault has the note there. -/
structure Selecting (c : Context σ) (s : Session σ) (answer : Value) (path content : String) :
    Prop where
  saves : (c.trimmed "saveTo").isEmpty = false
  unseeded : ((c.scope.get? "__hotkeySelection__").getD .null).truthy = false
  unedited : (c.providers.selection.getD "").isEmpty = true
  named : answer.field? "path" = some (.str path)
  answers : ∃ r s₁,
    c.ask { kind := .selection, nodeId := c.node.id, title := "Select text" } s = (.ok (some r), s₁) ∧
    r.value = answer ∧ c.Has path s₁.world content

/-- What the node leaves of a selection. -/
def chosen (c : Context σ) (path : String) (selection : Selection) : Outcome where
  output := .record [("source", .str "prompt"), ("path", .str path)]
  writes := c.writes [("saveTo", .str selection.text), ("saveSelectionTo", selection.info)]

/-- What is selected in a note by an answer. -/
def picked (path content : String) (answer : Value) : Except Fault Selection :=
  match answer.field? "start", answer.field? "end" with
  | some first, some last => range (.str path) content first last
  | _, _ => .ok (wholeNote (.str path) content)

theorem selected_eq (named : answer.field? "path" = some (.str path)) (has : c.Has path s.world content)
    {selection : Selection} (selects : picked path content answer = .ok selection) :
    ∃ s', selected c answer s = (.ok (chosen c path selection), s') := by
  obtain ⟨entries, rfl⟩ : ∃ entries, answer = .map entries := by
    cases answer with
    | map entries => exact ⟨entries, rfl⟩
    | scalar | list => cases named
  obtain ⟨vault, offered, there, read⟩ := has
  let behind := Act.after (vault.readText path) (Act.after (vault.has path) s)
  have found : existing c vault "File" path s = (.ok content, behind) :=
    Act.bind_eq_ok.mpr ⟨true, _, Act.call_eq_ok.mpr ⟨there, rfl⟩, Act.call_eq_ok.mpr ⟨read, rfl⟩⟩
  unfold selected Context.vault Context.require
  simp only [named, offered, Option.getD_some, pure_bind]
  refine ⟨behind, Act.bind_eq_ok.mpr ⟨content, behind, found, ?_⟩⟩
  unfold picked at selects
  generalize Value.field? "start" (.map entries) = start at selects ⊢
  generalize Value.field? "end" (.map entries) = stop at selects ⊢
  rcases start with _ | first
  · cases selects
    rfl
  rcases stop with _ | last
  · cases selects
    rfl
  · exact Act.bind_eq_ok.mpr ⟨selection, _, Act.ofExcept_eq_ok.mpr ⟨selects, rfl⟩, rfl⟩

theorem Selecting.pickText_eq (h : Selecting c s answer path content) {selection : Selection}
    (selects : picked path content answer = .ok selection) :
    ∃ s', pickText c s = (.ok (chosen c path selection), s') := by
  obtain ⟨saves, unseeded, unedited, named, r, s₁, asked, rfl, has⟩ := h
  obtain ⟨s', saved⟩ := selected_eq named has selects
  refine ⟨s', ?_⟩
  unfold pickText
  simp only [saves, unseeded, unedited, Bool.false_eq_true, Bool.not_true, if_false]
  refine Act.bind_eq_ok.mpr ⟨some r, s₁, asked, ?_⟩
  obtain ⟨value, _, _, _⟩ := r
  cases value with
  | map entries => exact saved
  | scalar | list => cases named

/-- What is written last under a name is what the name is bound to. -/
theorem get?_setAll_writes {name : String} (named : c.trimmed name ≠ "") (v : Value)
    (before after : List (String × Value)) (last : ∀ e ∈ after, c.trimmed e.1 ≠ c.trimmed name) :
    (c.scope.setAll (c.writes (before ++ (name, v) :: after))).1.get? (c.trimmed name) = some v := by
  have real : ∀ b ∈ c.writes (before ++ (name, v) :: after), b.1 ≠ "" := fun _ => Context.mem_writes
  have distinct : (Entries.keys (c.writes (before ++ (name, v) :: after))).Nodup :=
    Entries.keys_nodup_ofList _
  have written : Entries.get? (c.trimmed name) (c.writes (before ++ (name, v) :: after)) = some v := by
    rw [Context.writes, Entries.get?_ofList, List.filterMap_append, List.filterMap_cons]
    simp only [String.isEmpty_iff, named, if_false]
    rw [List.reverse_append, List.reverse_cons, List.append_assoc, Entries.get?_append,
      Entries.get?_of_not_mem, Option.none_or, List.singleton_append, Entries.get?,
      if_pos (BEq.refl _)]
    -- Nothing behind it has the name.
    intro there
    obtain ⟨b, kept, same⟩ := List.mem_map.mp there
    obtain ⟨e, behind, named⟩ := List.mem_filterMap.mp (List.mem_reverse.mp kept)
    split at named
    · cases named
    · cases named
      exact last e behind same
  rw [Scope.setAll_of_named real]
  exact Entries.get?_merge_of_mem (b := (c.trimmed name, v)) distinct (Entries.mem_of_get? written)

/-- Behind the visit the variables that the node names have the text and where it stands. -/
theorem get?_chosen (apart : c.trimmed "saveSelectionTo" ≠ c.trimmed "saveTo") (path : String)
    (selection : Selection) :
    (c.trimmed "saveTo" ≠ "" →
      (c.scope.setAll (chosen c path selection).writes).1.get? (c.trimmed "saveTo") =
        some (.str selection.text)) ∧
    (c.trimmed "saveSelectionTo" ≠ "" →
      (c.scope.setAll (chosen c path selection).writes).1.get? (c.trimmed "saveSelectionTo") =
        some selection.info) := by
  simp only [chosen]
  constructor
  · intro named
    have last : ∀ e ∈ [("saveSelectionTo", selection.info)], c.trimmed e.1 ≠ c.trimmed "saveTo" :=
      List.forall_mem_singleton.mpr apart
    exact get?_setAll_writes named (.str selection.text) [] _ last
  · intro named
    exact get?_setAll_writes named selection.info [("saveTo", .str selection.text)] [] nofun

/-- Between two positions in a note, the first one not behind the last one, the text that is in front
of the last one and not of the first one is saved, and where it starts and stops: so many characters
are in front of each position. Without a range the whole note is saved, and a range over the whole
note saves the same text with the same offsets; but its lines are those of the positions, counted
from zero, where those of a note without a range are counted from one. The variables that the node
names have the text and where it stands. -/
theorem pickText_selects (selecting : Selecting c s answer path content) :
    (∀ {first last firstLine lastLine : Value} {p q : Position},
      answer.field? "start" = some first → answer.field? "end" = some last →
      Marks first firstLine p → Marks last lastLine q →
      p.Inside content.toList → q.Inside content.toList → p ≤ q →
      ∃ before part after s', content.toList = before ++ part ++ after ∧
        position before = p ∧ position (before ++ part) = q ∧
        pickText c s = (.ok (chosen c path ⟨String.ofList part,
          placed path firstLine lastLine before.length (before ++ part).length⟩), s')) ∧
    (answer.field? "start" = none ∨ answer.field? "end" = none →
      ∃ s', pickText c s = (.ok (chosen c path ⟨content,
        placed path (.int 1) (.int (splitAt '\n' content.toList).length) 0 content.length⟩), s')) ∧
    (∀ {first last firstLine lastLine : Value} {q : Position},
      answer.field? "start" = some first → answer.field? "end" = some last →
      Marks first firstLine ⟨0, 0⟩ → Marks last lastLine q → q.Ends content.toList →
      wholeNumber firstLine = .ok 0 ∧
        wholeNumber lastLine = .ok ((splitAt '\n' content.toList).length - 1) ∧
        ∃ s', pickText c s = (.ok (chosen c path ⟨content,
          placed path firstLine lastLine 0 content.length⟩), s')) ∧
    ∀ selection, c.trimmed "saveSelectionTo" ≠ c.trimmed "saveTo" →
      (c.scope.setAll (chosen c path selection).writes).1.get? (c.trimmed "saveTo") =
        some (.str selection.text) ∧
      (c.trimmed "saveSelectionTo" ≠ "" →
        (c.scope.setAll (chosen c path selection).writes).1.get? (c.trimmed "saveSelectionTo") =
          some selection.info) := by
  refine ⟨?ranged, ?whole, ?spelled, ?bound⟩
  case ranged =>
    intro first last firstLine lastLine p q starts stops start stop inside inside' order
    obtain ⟨before, part, after, split, rfl, rfl⟩ := exists_between inside inside' order
    have selects := range_eq path start stop split
    obtain ⟨s', ran⟩ := selecting.pickText_eq (by rw [picked, starts, stops]; exact selects)
    exact ⟨before, part, after, s', split, rfl, rfl, ran⟩
  case whole =>
    intro open_ended
    have selects : picked path content answer = .ok (wholeNote (.str path) content) := by
      unfold picked
      split
      · rename_i starts stops
        rw [starts, stops] at open_ended
        cases open_ended <;> rename_i h <;> cases h
      · rfl
    exact selecting.pickText_eq selects
  case spelled =>
    intro first last firstLine lastLine q starts stops start stop ends
    have place := ends.position_eq
    obtain ⟨-, -, -, lines⟩ := ends
    have length : content.toList.length = content.length := String.length_toList
    have selects : picked path content answer =
        .ok ⟨content, placed path firstLine lastLine 0 content.length⟩ := by
      have front : Marks first firstLine (position []) := start
      have back : Marks last lastLine (position ([] ++ content.toList)) := by
        rw [List.nil_append, place]
        exact stop
      have whole : content.toList = [] ++ content.toList ++ [] := by simp
      have selects := range_eq path front back whole
      rw [String.ofList_toList, List.nil_append, length] at selects
      rw [picked, starts, stops]
      exact selects
    refine ⟨start.counts, ?_, selecting.pickText_eq selects⟩
    rw [stop.counts, ← lines]
    simp
  case bound =>
    intro selection apart
    obtain ⟨text, info⟩ := get?_chosen apart path selection
    have saves := selecting.saves
    exact ⟨text (by simpa [String.isEmpty_iff] using saves), info⟩

/-! ### A note of some lines -/

/-- A node whose user answers with a selection in a note. -/
def choosing (content : String) (answer : Value) : Context (List Called) :=
  { node := { id := "s", kind := "prompt-selection" }
    properties := [("saveTo", "sel"), ("saveSelectionTo", "info")]
    scope := .empty
    providers :=
      { (drafting "" (some { value := answer })).providers with
        vault := some (shelf [("b.md", content)]) } }

theorem selecting_choosing (content : String) (named : answer.field? "path" = some (.str "b.md")) :
    Selecting (choosing content answer) fresh answer "b.md" content where
  saves := by
    have named : (choosing content answer).property "saveTo" = "sel" := rfl
    rw [Context.trimmed, named]
    decide
  unseeded := rfl
  unedited := rfl
  named := named
  answers := ⟨_, _, rfl, rfl, _, rfl, rfl, rfl⟩

def Position.value (p : Position) : Value := .record [("line", .int p.line), ("ch", .int p.ch)]

theorem marks_value (p : Position) : Marks p.value (.int p.line) p := ⟨rfl, rfl, _, rfl, rfl⟩

/-- The note, from one position to another. -/
def between (p q : Position) : Value :=
  .record [("path", .str "b.md"), ("start", p.value), ("end", q.value)]

/-- A selection that goes over a line without characters. -/
theorem pickText_selects_lines :
    let c := choosing "one\n\ntwo\n" (between ⟨0, 1⟩ ⟨2, 2⟩)
    Selecting c fresh (between ⟨0, 1⟩ ⟨2, 2⟩) "b.md" "one\n\ntwo\n" ∧
      ∃ s', pickText c fresh =
        (.ok (chosen c "b.md" ⟨"ne\n\ntw", placed "b.md" (.int 0) (.int 2) 1 7⟩), s') := by
  intro c
  have selecting : Selecting c fresh _ "b.md" _ := selecting_choosing "one\n\ntwo\n" rfl
  obtain ⟨before, part, after, s', whole, start, stop, ran⟩ :=
    (pickText_selects selecting).1 rfl rfl (marks_value _) (marks_value _) ⟨_, rfl, by decide⟩
      ⟨_, rfl, by decide⟩ (.inl (by decide))
  have split : before ++ (part ++ after) = ['o'] ++ "ne\n\ntwo\n".toList := by
    rw [← List.append_assoc, ← whole]
    rfl
  obtain rfl : before = ['o'] := front_unique split (start.trans rfl)
  have through : ['o'] ++ part ++ after = "one\n\ntw".toList ++ "o\n".toList := by
    rw [← whole]
    rfl
  have front : ['o'] ++ part = "one\n\ntw".toList := front_unique through (stop.trans rfl)
  obtain rfl : part = "ne\n\ntw".toList := (List.cons.inj front).2
  exact ⟨selecting, s', ran⟩

/-- A whole note has other lines where its range is spelled out. -/
theorem pickText_miscounts :
    let spelled := choosing "all\ntext" (between ⟨0, 0⟩ ⟨1, 4⟩)
    let whole := choosing "all\ntext" (.record [("path", .str "b.md")])
    Position.Ends ⟨1, 4⟩ "all\ntext".toList ∧
      (∃ s', pickText spelled fresh = (.ok (chosen spelled "b.md"
        ⟨"all\ntext", placed "b.md" (.int 0) (.int 1) 0 8⟩), s')) ∧
      (∃ s', pickText whole fresh = (.ok (chosen whole "b.md"
        ⟨"all\ntext", placed "b.md" (.int 1) (.int 2) 0 8⟩), s')) ∧
      placed "b.md" (.int 0) (.int 1) 0 8 ≠ placed "b.md" (.int 1) (.int 2) 0 8 :=
  ⟨⟨_, rfl, rfl, rfl⟩, (selecting_choosing _ rfl).pickText_eq rfl,
    (selecting_choosing _ rfl).pickText_eq rfl, by simp [placed, Value.record, Value.int]⟩

end Runbook.Visit
