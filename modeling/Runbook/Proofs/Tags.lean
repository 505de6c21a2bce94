import Runbook.Proofs.Text.Cutting
import Runbook.Proofs.Workflow.Legible
import Runbook.Tags

/-! The tags of a note.

The header of a note is the shortest that a line of three dashes can close, fences are taken out
from the left, and the tags of what is left are at the hash signs that may begin one. All of that
comes to an end for every text. What the header's entry holds may be no list of tags, and then the
note has none at all but a failure (`ofNote_eq_ok`). -/
namespace Runbook

namespace Text

/-- Pieces between separators of several kinds. -/
theorem splitAt_map (sep : Char) (p : Char → Bool) (cs : List Char) :
    splitAt sep (cs.map fun c => if p c then sep else c) =
      cs.splitOnP fun c => p c || c == sep := by
  induction cs with
  | nil => rw [List.splitOnP_nil, List.map_nil, splitAt]
  | cons c cs ih =>
    rw [List.map_cons, splitAt, List.splitOnP_cons_eq_if_modifyHead, ← ih]
    by_cases ends : p c = true ∨ c = sep
    · have here : (if p c = true then sep else c) = sep := by
        split
        · rfl
        · exact ends.resolve_left ‹_›
      rw [if_pos here, if_pos (by simpa using ends)]
    · obtain ⟨solid, other⟩ := not_or.mp ends
      rw [if_neg solid, if_neg other, if_neg (by simp [solid, other])]
      cases pieces : splitAt sep (cs.map fun c => if p c then sep else c) with
      | nil => exact absurd pieces (splitAt_ne_nil _ _)
      | cons piece more => rfl

end Text

namespace Tags

open Text

variable {cs before behind header body : List Char}

/-! ### The header -/

/-- A line feed, which a carriage return may stand in front of. -/
def IsBreak (b : List Char) : Prop := b = ['\n'] ∨ b = ['\r', '\n']

/-- A text that begins with a header, which lines of three dashes enclose, and goes on with a
body. -/
def Frames (cs header body : List Char) : Prop :=
  ∃ opens ends closes, IsBreak opens ∧ IsBreak ends ∧ IsBreak closes ∧
    cs = dashes ++ (opens ++ (header ++ (ends ++ (dashes ++ (closes ++ body)))))

theorem newline?_eq_some {rest : List Char} :
    newline? cs = some rest ↔ ∃ b, IsBreak b ∧ cs = b ++ rest := by
  constructor
  · intro h
    unfold newline? at h
    split at h
    · cases h
      exact ⟨_, .inl rfl, rfl⟩
    · cases h
      exact ⟨_, .inr rfl, rfl⟩
    · cases h
  · rintro ⟨_, rfl | rfl, rfl⟩ <;> rfl

theorem closing?_eq_some :
    closing? cs = some body ↔ ∃ ends closes, IsBreak ends ∧ IsBreak closes ∧
      cs = ends ++ (dashes ++ (closes ++ body)) := by
  unfold closing?
  simp only [Option.bind_eq_bind, Option.bind_eq_some_iff, newline?_eq_some, after?_eq_some]
  constructor
  · rintro ⟨_, ⟨ends, first, rfl⟩, _, rfl, closes, second, rfl⟩
    exact ⟨ends, closes, first, second, rfl⟩
  · rintro ⟨ends, closes, first, second, rfl⟩
    exact ⟨_, ⟨ends, first, rfl⟩, _, rfl, closes, second, rfl⟩

/-- A header ends where it first can. -/
theorem untilClosing?_eq_some (h : untilClosing? cs = some (header, body)) :
    (∃ tail, cs = header ++ tail ∧ closing? tail = some body) ∧
      ∀ longer tail b, cs = longer ++ tail → closing? tail = some b →
        header.length ≤ longer.length := by
  induction cs generalizing header with
  | nil => cases h
  | cons c cs ih =>
    rw [untilClosing?] at h
    cases here : closing? (c :: cs) with
    | some behind =>
      rw [here] at h
      cases h
      exact ⟨⟨_, rfl, here⟩, fun _ _ _ _ _ => Nat.zero_le _⟩
    | none =>
      rw [here] at h
      obtain ⟨⟨taken, b⟩, later, same⟩ := Option.map_eq_some_iff.mp h
      cases same
      obtain ⟨⟨tail, rfl, closed⟩, first⟩ := ih later
      refine ⟨⟨tail, rfl, closed⟩, fun longer tail' b' split ends => ?_⟩
      cases longer with
      | nil =>
        rw [List.nil_append] at split
        rw [← split, here] at ends
        cases ends
      | cons d longer =>
        rw [List.cons_append, List.cons.injEq] at split
        exact Nat.succ_le_succ (first longer tail' b' split.2 ends)

theorem untilClosing?_eq_none (h : untilClosing? cs = none) (header tail : List Char)
    (split : cs = header ++ tail) : closing? tail = none := by
  induction cs generalizing header with
  | nil =>
    obtain ⟨rfl, rfl⟩ := List.nil_eq_append_iff.mp split
    rfl
  | cons c cs ih =>
    rw [untilClosing?] at h
    cases here : closing? (c :: cs) with
    | some behind =>
      rw [here] at h
      cases h
    | none =>
      rw [here] at h
      cases header with
      | nil =>
        rw [List.nil_append] at split
        rw [← split, here]
      | cons d header =>
        rw [List.cons_append, List.cons.injEq] at split
        exact ih (Option.map_eq_none_iff.mp h) header split.2

/-- What the front of a note is: the shortest header that it can be read as having, with the body
behind it, or no header, where the body is all. -/
inductive Parts (cs : List Char) : Option (List Char) → List Char → Prop
  | headed {header body : List Char} (here : Frames cs header body)
    (shortest : ∀ longer b, Frames cs longer b → header.length ≤ longer.length) :
    Parts cs (some header) body
  | bare (nowhere : ∀ header body, ¬ Frames cs header body) : Parts cs none cs

theorem frames_iff : Frames cs header body ↔
    ∃ inside tail, (after? dashes cs).bind newline? = some inside ∧ inside = header ++ tail ∧
      closing? tail = some body := by
  simp only [Option.bind_eq_some_iff, newline?_eq_some, after?_eq_some, closing?_eq_some]
  constructor
  · rintro ⟨opens, ends, closes, first, second, third, rfl⟩
    exact ⟨_, _, ⟨_, rfl, opens, first, rfl⟩, rfl, ends, closes, second, third, rfl⟩
  · rintro ⟨_, _, ⟨_, rfl, opens, first, rfl⟩, rfl, ends, closes, second, third, rfl⟩
    exact ⟨opens, ends, closes, first, second, third, rfl⟩

/-- A note is taken apart in one way. -/
theorem Parts.unique {h h' : Option (List Char)} {b b' : List Char} (first : Parts cs h b)
    (second : Parts cs h' b') : h = h' ∧ b = b' := by
  cases first with
  | bare nowhere =>
    cases second with
    | bare => exact ⟨rfl, rfl⟩
    | headed here => exact absurd here (nowhere _ _)
  | headed here shortest =>
    cases second with
    | bare nowhere => exact absurd here (nowhere _ _)
    | headed here' shortest' =>
      have length := Nat.le_antisymm (shortest _ _ here') (shortest' _ _ here)
      obtain ⟨_, tail, opened, split, closed⟩ := frames_iff.mp here
      obtain ⟨_, tail', opened', split', closed'⟩ := frames_iff.mp here'
      cases opened.symm.trans opened'
      obtain ⟨rfl, rfl⟩ := List.append_inj (split.symm.trans split') length
      cases closed.symm.trans closed'
      exact ⟨rfl, rfl⟩

theorem header?_eq (cs : List Char) :
    header? cs = ((after? dashes cs).bind newline?).bind untilClosing? := by
  unfold header?
  cases after? dashes cs <;> rfl

theorem parts_of_header? (cs : List Char) :
    (∃ header body, header? cs = some (header, body) ∧ Parts cs (some header) body) ∨
      header? cs = none ∧ Parts cs none cs := by
  rw [header?_eq]
  cases inside : (after? dashes cs).bind newline? with
  | none =>
    refine .inr ⟨rfl, .bare fun header body framed => ?_⟩
    obtain ⟨_, _, opened, -⟩ := frames_iff.mp framed
    cases inside.symm.trans opened
  | some inside' =>
    have apart {header body : List Char} (framed : Frames cs header body) :
        ∃ tail, inside' = header ++ tail ∧ closing? tail = some body := by
      obtain ⟨_, tail, opened, split, closed⟩ := frames_iff.mp framed
      cases inside.symm.trans opened
      exact ⟨tail, split, closed⟩
    cases found : untilClosing? inside' with
    | none =>
      refine .inr ⟨found, .bare fun header body framed => ?_⟩
      obtain ⟨tail, split, closed⟩ := apart framed
      cases (untilClosing?_eq_none found header tail split).symm.trans closed
    | some found' =>
      obtain ⟨header, body⟩ := found'
      obtain ⟨⟨tail, split, closed⟩, first⟩ := untilClosing?_eq_some found
      refine .inl ⟨header, body, found, .headed ?_ fun longer b framed => ?_⟩
      · exact frames_iff.mpr ⟨_, tail, inside, split, closed⟩
      · obtain ⟨tail', split', closed'⟩ := apart framed
        exact first longer tail' b split' closed'

/-! ### Fences -/

/-- The first occurrence of a word in a text, between what is before and behind it. -/
structure First (word cs before behind : List Char) : Prop where
  here : cs = before ++ word ++ behind
  first : ∀ b r, cs = b ++ word ++ r → before.length ≤ b.length

/-- What is left of a text without its fences: from the first one to the first one behind it, and so
on behind that. A fence that is not closed stays. -/
inductive Unfenced : List Char → List Char → Prop
  | fenced {cs before inside within behind left : List Char} (opens : First fence cs before inside)
    (closes : First fence inside within behind) (more : Unfenced behind left) :
    Unfenced cs (before ++ left)
  | plain {cs : List Char}
    (nowhere : ∀ before within behind, cs ≠ before ++ fence ++ (within ++ fence ++ behind)) :
    Unfenced cs cs

theorem first_of_cutAtWord {word : List Char} (h : cutAtWord word cs = some (before, behind)) :
    First word cs before behind :=
  ⟨cutAtWord_eq h, fun _ _ other => cutAtWord_first h other⟩

theorem First.unique {word b b' r r' : List Char} (one : First word cs b r)
    (other : First word cs b' r') : b = b' ∧ r = r' := by
  have length := Nat.le_antisymm (one.first _ _ other.here) (other.first _ _ one.here)
  have same := one.here.symm.trans other.here
  rw [List.append_assoc, List.append_assoc] at same
  obtain ⟨before, behind⟩ := List.append_inj same length
  exact ⟨before, List.append_cancel_left behind⟩

theorem Unfenced.unique {left left' : List Char} (first : Unfenced cs left)
    (second : Unfenced cs left') : left = left' := by
  induction first generalizing left' with
  | fenced opens closes _ ih =>
    cases second with
    | fenced opens' closes' more =>
      obtain ⟨rfl, rfl⟩ := opens.unique opens'
      obtain ⟨-, rfl⟩ := closes.unique closes'
      rw [ih more]
    | plain nowhere => exact absurd (closes.here ▸ opens.here) (nowhere _ _ _)
  | plain nowhere =>
    cases second with
    | fenced opens closes => exact absurd (closes.here ▸ opens.here) (nowhere _ _ _)
    | plain => rfl

theorem unfenced_withoutFences {n : Nat} (fuel : cs.length ≤ n) :
    Unfenced cs (withoutFences n cs) := by
  induction n generalizing cs with
  | zero =>
    rw [List.length_eq_zero_iff.mp (Nat.le_zero.mp fuel)]
    exact .plain fun _ _ _ => by simp [fence]
  | succ n ih =>
    rw [withoutFences]
    cases opened : cutAtWord fence cs with
    | none =>
      refine .plain fun before within behind same => ?_
      exact cutAtWord_eq_none (by decide) |>.mp opened before _ same
    | some found =>
      obtain ⟨before, inside⟩ := found
      dsimp only
      cases closed : cutAtWord fence inside with
      | none =>
        refine .plain fun b within r same => ?_
        -- Whatever stands behind some fence stands behind the first one.
        obtain ⟨_, rest, cut, front, whole⟩ := exists_cutAtWord fence (by decide) b (within ++ fence ++ r)
        rw [← same, opened] at cut
        cases cut
        refine cutAtWord_eq_none (by decide) |>.mp closed (front ++ within) r ?_
        simp only [← whole, List.append_assoc]
      | some found =>
        obtain ⟨within, behind⟩ := found
        have opens := first_of_cutAtWord opened
        have closes := first_of_cutAtWord closed
        refine .fenced opens closes (ih ?_)
        have outer := cutAtWord_rest_length opened
        have inner := cutAtWord_rest_length closed
        have width : fence.length = 3 := rfl
        omega

/-! ### Tags in a text -/

/-- The tag that begins at a position of a text: behind nothing or a character that allows it, a
hash sign with a name, as long as it goes. -/
def tagAt? (cs : List Char) (position : Nat) : Option String :=
  match cs.drop position with
  | '#' :: c :: rest =>
    if (cs.take position).getLast?.all mayBeginBehind && startsName c then
      some (String.ofList ('#' :: c :: rest.takeWhile isNameChar))
    else none
  | _ => none

/-- The tags of a text, from the left. -/
def tagsOf (cs : List Char) : List String := (List.range cs.length).filterMap (tagAt? cs)

theorem names_cons {c : Char} (other : c ≠ '#') (free : Bool) (rest : List Char) :
    names free (c :: rest) = names (mayBeginBehind c) rest := by
  rw [names]
  rintro _ _ rfl
  exact absurd rfl other

theorem not_hash_of_startsName {c : Char} (h : startsName c = true) : c ≠ '#' := by
  rintro rfl
  cases h

theorem names_hash (free : Bool) (c : Char) (rest : List Char) :
    names free ('#' :: c :: rest) =
      (if free && startsName c then [c :: rest.takeWhile isNameChar] else []) ++
        names false (c :: rest) := by
  rw [names]
  split
  · rename_i both
    rw [names_cons (not_hash_of_startsName (Bool.and_eq_true_iff.mp both).2)]
    rfl
  · rfl

theorem names_eq (before cs : List Char) :
    (names (before.getLast?.all mayBeginBehind) cs).map (fun name => String.ofList ('#' :: name)) =
      (List.range' before.length cs.length).filterMap (tagAt? (before ++ cs)) := by
  induction cs generalizing before with
  | nil => rfl
  | cons c cs ih =>
    have later := ih (before ++ [c])
    rw [List.append_assoc, List.singleton_append, List.length_append, List.length_singleton,
      List.getLast?_concat, Option.all_some] at later
    rw [List.length_cons, List.range'_succ, List.filterMap_cons, ← later]
    by_cases hash : c = '#'
    · subst hash
      cases cs with
      | nil => simp [tagAt?, names]
      | cons d rest =>
        rw [names_hash, List.map_append]
        have here : tagAt? (before ++ '#' :: d :: rest) before.length =
            if before.getLast?.all mayBeginBehind && startsName d then
              some (String.ofList ('#' :: d :: rest.takeWhile isNameChar)) else none := by
          rw [tagAt?, List.drop_left, List.take_left]
          rfl
        rw [here]
        split <;> rfl
    · have here : tagAt? (before ++ c :: cs) before.length = none := by
        rw [tagAt?, List.drop_left]
        split
        · rename_i same
          cases same
          exact absurd rfl hash
        · rfl
      rw [here, names_cons hash]

theorem inText_eq (cs : List Char) : inText cs = tagsOf (withoutFences cs.length cs) := by
  have all := names_eq [] (withoutFences cs.length cs)
  rw [List.nil_append, List.length_nil, ← List.range_eq_range'] at all
  exact all

/-! ### Tags in a header -/

/-- The words of an entry that is one text. -/
def wordsOf (s : String) : List String :=
  ((s.toList.splitOnP fun c => isBlank c || c == ',').filter (!·.isEmpty)).map String.ofList

/-- The tags that an entry lists. -/
inductive Lists : Value → List String → Prop
  | nothing {raw} (h : raw.truthy = false) : Lists raw []
  | text (s : String) : Lists (.str s) ((wordsOf s).map hashed)
  | members {raw ms} (filled : raw.truthy = true) (other : ∀ s, raw ≠ .str s)
    (h : Workflow.members? raw = some ms) (each : ∀ m ∈ ms, m.hasNumerals = true) :
    Lists raw (ms.map fun m => hashed m.display)

/-- An entry that lists tags: it counts as nothing, or it has members, and no whole number in them
is too long to be written. -/
def Listable (raw : Value) : Prop :=
  raw.truthy = false ∨
    ∃ ms, Workflow.members? raw = some ms ∧ ∀ m ∈ ms, m.hasNumerals = true

theorem exists_lists {raw : Value} : (∃ tags, Lists raw tags) ↔ Listable raw := by
  constructor
  · rintro ⟨tags, h | s | ⟨-, -, members, each⟩⟩
    · exact .inl h
    · refine .inr ⟨_, rfl, fun m there => ?_⟩
      obtain ⟨c, -, rfl⟩ := List.mem_map.mp there
      show (Value.scalar (.str _)).hasNumerals = true
      simp [Value.hasNumerals]
    · exact .inr ⟨_, members, each⟩
  · intro listable
    cases filled : raw.truthy with
    | false => exact ⟨_, .nothing filled⟩
    | true =>
      obtain ⟨ms, members, each⟩ := listable.resolve_left (by simp [filled])
      by_cases text : ∃ s, raw = .str s
      · obtain ⟨s, rfl⟩ := text
        exact ⟨_, .text s⟩
      · exact ⟨_, .members filled (fun s same => text ⟨s, same⟩) members each⟩

/-- What counts for something and has no members: `true`, a number other than zero, a date. -/
inductive Single : Value → Prop
  | yes : Single (.bool true)
  | int {n : Int} (h : n ≠ 0) : Single (.int n)
  | float {x : Number.Binary64} (h : x.isZero = false) : Single (.float x)
  | moment (t : String) : Single (.scalar (.moment t))

theorem single_iff {raw : Value} :
    Single raw ↔ raw.truthy = true ∧ Workflow.members? raw = none := by
  constructor
  · rintro (_ | h | h | _)
    · exact ⟨rfl, rfl⟩
    · exact ⟨bne_iff_ne.mpr h, rfl⟩
    · exact ⟨congrArg (!·) h, rfl⟩
    · exact ⟨rfl, rfl⟩
  · rintro ⟨filled, single⟩
    cases raw with
    | scalar x =>
      cases x with
      | null => cases filled
      | bool b =>
        cases filled
        exact .yes
      | int n => exact .int (bne_iff_ne.mp filled)
      | float x => exact .float (Bool.not_eq_true' _ |>.mp filled)
      | moment t => exact .moment t
      | str | bytes => cases single
    | list | map => cases single

theorem members_of_not_truthy {raw : Value} {ms : List Value} (h : raw.truthy = false)
    (members : Workflow.members? raw = some ms) : ms = [] := by
  cases raw with
  | scalar x =>
    cases x with
    | str s =>
      cases members
      have empty : s = "" := by simpa [Value.truthy] using h
      rw [empty]
      rfl
    | bytes b =>
      cases members
      have empty : b = [] := by simpa [Value.truthy] using h
      rw [empty]
      rfl
    | null | bool | int | float | moment => cases members
  | list items =>
    cases members
    simpa [Value.truthy] using h
  | map entries =>
    cases members
    have empty : entries = [] := by simpa [Value.truthy] using h
    rw [empty]
    rfl

/-- An entry lists no tags where it has no members, or one of them holds a whole number that is too
long to be written. -/
theorem not_listable {raw : Value} : ¬ Listable raw ↔
    Single raw ∨
      ∃ ms, Workflow.members? raw = some ms ∧ ∃ m ∈ ms, m.hasNumerals = false := by
  rw [single_iff, Listable, not_or, Bool.not_eq_false]
  cases members : Workflow.members? raw with
  | none => simp
  | some ms =>
    have filled : (∃ m ∈ ms, m.hasNumerals = false) → raw.truthy = true := by
      rintro ⟨m, there, -⟩
      by_contra nothing
      rw [members_of_not_truthy (Bool.not_eq_true _ |>.mp nothing) members] at there
      cases there
    simpa using filled
theorem listed_text (s : String) : listed (.str s) = .ok ((wordsOf s).map hashed) := by
  have opened : listed (.str s) = .ok (((splitAt ',' (s.toList.map fun c =>
      if isBlank c then ',' else c)).filter (!·.isEmpty)).map fun word =>
        hashed (String.ofList word)) := rfl
  rw [opened, splitAt_map, wordsOf, List.map_map]
  rfl

theorem listed_other {raw : Value} (other : ∀ s, raw ≠ .str s) :
    listed raw = if !raw.truthy then .ok []
      else match Workflow.members? raw with
        | some members => members.mapM fun v => return hashed (← v.written)
        | none => .error .wrongType := by
  unfold listed
  split
  · exact absurd rfl (other _)
  · rfl

theorem mapM_written {members : List Value} {tags : List String} :
    (members.mapM fun v => return hashed (← v.written) : Except Fault (List String)) = .ok tags ↔
      (∀ m ∈ members, m.hasNumerals = true) ∧ tags = members.map fun m => hashed m.display := by
  by_cases each : ∀ m ∈ members, m.hasNumerals = true
  · have all := mapM_map_eq_ok (f := id) (l := members) (g := fun m => hashed m.display)
      (F := fun v => return hashed (← v.written)) fun m there =>
        bind_eq_ok.mpr ⟨_, Workflow.written_eq_ok.mpr ⟨each m there, rfl⟩, rfl⟩
    rw [List.map_id] at all
    rw [all]
    exact ok_eq_ok_iff each
  · refine ⟨fun read => absurd ?_ each, fun known => absurd known.1 each⟩
    intro m there
    cases failed : m.written with
    | ok s => exact (Workflow.written_eq_ok.mp failed).1
    | error f =>
      obtain ⟨g, stops⟩ := exists_mapM_eq_error (f := fun v => return hashed (← v.written)) there
        (bind_eq_error.mpr (.inl failed))
      cases read.symm.trans stops

/-- An entry is read as the tags that it lists, and refused where it lists none. -/
theorem listed_eq_ok {raw : Value} {tags : List String} :
    listed raw = .ok tags ↔ Lists raw tags := by
  by_cases text : ∃ s, raw = .str s
  · obtain ⟨s, rfl⟩ := text
    rw [listed_text, Except.ok.injEq]
    constructor
    · rintro rfl
      exact .text s
    · rintro (nothing | _ | ⟨-, other, -, -⟩)
      · have empty : s = "" := by simpa [Value.truthy] using nothing
        rw [empty]
        rfl
      · rfl
      · exact absurd rfl (other s)
  have other : ∀ s, raw ≠ .str s := fun s same => text ⟨s, same⟩
  rw [listed_other other]
  cases filled : raw.truthy with
  | false =>
    refine (Except.ok.injEq ..).to_iff.trans ⟨?_, ?_⟩
    · rintro rfl
      exact .nothing filled
    · rintro (_ | s | ⟨filled', -, -, -⟩)
      · rfl
      · exact absurd rfl (other s)
      · cases filled.symm.trans filled'
  | true =>
    rw [if_neg (by simp)]
    constructor
    · cases members : Workflow.members? raw with
      | none =>
        intro read
        cases read
      | some ms =>
        intro read
        obtain ⟨each, rfl⟩ := mapM_written.mp read
        exact .members filled other members each
    · rintro (nothing | s | ⟨-, -, members, each⟩)
      · cases filled.symm.trans nothing
      · exact absurd rfl (other s)
      · rw [members]
        exact mapM_written.mpr ⟨each, rfl⟩

/-! ### Notes -/

/-- The tags of a header, if there is one. One that cannot be read as YAML has none; a reading that
fails in another way gives no answer. -/
inductive HeaderTags : Option (List Char) → List String → Prop
  | bare : HeaderTags none []
  | unreadable {header m} (h : Yaml.parse (String.ofList header) = .error (.unreadable m)) :
    HeaderTags (some header) []
  | entry {header v tags} (h : Yaml.parse (String.ofList header) = .ok v)
    (lists : Lists ((v.field? "tags").getD .null) tags) : HeaderTags (some header) tags

/-- A header whose tags can be told. -/
def Tells (header : List Char) : Prop :=
  (∃ m, Yaml.parse (String.ofList header) = .error (.unreadable m)) ∨
    ∃ v, Yaml.parse (String.ofList header) = .ok v ∧ Listable ((v.field? "tags").getD .null)

theorem exists_headerTags {header : Option (List Char)} :
    (∃ tags, HeaderTags header tags) ↔ ∀ h ∈ header, Tells h := by
  constructor
  · rintro ⟨tags, _ | h | ⟨h, lists⟩⟩ _ there
    · cases there
    · cases there
      exact .inl ⟨_, h⟩
    · cases there
      exact .inr ⟨_, h, exists_lists.mp ⟨_, lists⟩⟩
  · intro tells
    cases header with
    | none => exact ⟨[], .bare⟩
    | some header =>
      rcases tells header rfl with ⟨m, unread⟩ | ⟨v, read, listable⟩
      · exact ⟨[], .unreadable unread⟩
      · obtain ⟨tags, lists⟩ := exists_lists.mpr listable
        exact ⟨tags, .entry read lists⟩

theorem ofHeader_eq_ok {header : List Char} {tags : List String} :
    ofHeader header = .ok tags ↔ HeaderTags (some header) tags := by
  unfold ofHeader
  constructor
  · split
    · rename_i v read
      exact fun h => .entry read (listed_eq_ok.mp h)
    · rename_i m unread
      rintro ⟨⟩
      exact .unreadable unread
    · exact nofun
  · rintro (_ | unread | ⟨read, lists⟩)
    · rw [unread]
    · rw [read]
      exact listed_eq_ok.mpr lists

/-- The tags of a note are those of its header and then those of its text without fences, each
once. -/
theorem ofNote_eq_ok {content : String} {header : Option (List Char)} {body text : List Char}
    (parts : Parts content.toList header body) (unfenced : Unfenced body text)
    {tags : List String} : ofNote content = .ok tags ↔
      ∃ front, HeaderTags header front ∧ tags = (front ++ tagsOf text).eraseDups := by
  rw [unfenced.unique (unfenced_withoutFences (Nat.le_refl _)), ← inText_eq]
  unfold ofNote
  rcases parts_of_header? content.toList with ⟨h, b, found, parts'⟩ | ⟨bare, parts'⟩
  · obtain ⟨rfl, rfl⟩ := parts.unique parts'
    rw [found]
    simp only [← ofHeader_eq_ok]
    rw [bind_eq_ok]
    refine exists_congr fun front => and_congr_right fun _ => ?_
    exact (Except.ok.injEq ..).to_iff.trans eq_comm
  · obtain ⟨rfl, rfl⟩ := parts.unique parts'
    rw [bare]
    constructor
    · rintro ⟨⟩
      exact ⟨[], .bare, rfl⟩
    · rintro ⟨_, _ | _ | _, rfl⟩
      rfl

theorem exists_parts (content : String) : ∃ header body text,
    Parts content.toList header body ∧ Unfenced body text := by
  rcases parts_of_header? content.toList with ⟨_, _, -, parts⟩ | ⟨-, parts⟩ <;>
    exact ⟨_, _, _, parts, unfenced_withoutFences (Nat.le_refl _)⟩

theorem exists_ofNote {content : String} {header : Option (List Char)} {body text : List Char}
    (parts : Parts content.toList header body) (unfenced : Unfenced body text) :
    (∃ tags, ofNote content = .ok tags) ↔ ∀ h ∈ header, Tells h := by
  rw [← exists_headerTags]
  simp only [ofNote_eq_ok parts unfenced]
  constructor
  · rintro ⟨_, front, known, -⟩
    exact ⟨front, known⟩
  · rintro ⟨front, known⟩
    exact ⟨_, front, known, rfl⟩

/-! ### Hash signs -/

theorem startsWith_cons (cs : List Char) : (String.ofList ('#' :: cs)).startsWith "#" = true := by
  rw [String.startsWith_string_iff, String.toList_ofList (l := '#' :: cs)]
  exact ⟨cs, rfl⟩

theorem startsWith_hashed (s : String) : (hashed s).startsWith "#" = true := by
  unfold hashed
  split
  · assumption
  · rw [String.startsWith_string_iff, String.toList_append]
    exact List.prefix_append ..

theorem Lists.hashed {raw : Value} {tags : List String} (h : Lists raw tags) :
    ∀ t ∈ tags, t.startsWith "#" = true := by
  cases h with
  | nothing => exact List.forall_mem_nil _
  | text s => exact List.forall_mem_map.mpr fun _ _ => startsWith_hashed _
  | members => exact List.forall_mem_map.mpr fun _ _ => startsWith_hashed _

theorem HeaderTags.hashed {header : Option (List Char)} {tags : List String}
    (h : HeaderTags header tags) : ∀ t ∈ tags, t.startsWith "#" = true := by
  cases h with
  | bare => exact List.forall_mem_nil _
  | unreadable => exact List.forall_mem_nil _
  | entry _ lists => exact lists.hashed

theorem startsWith_tagsOf (cs : List Char) : ∀ t ∈ tagsOf cs, t.startsWith "#" = true := by
  intro t there
  obtain ⟨i, -, found⟩ := List.mem_filterMap.mp there
  unfold tagAt? at found
  split at found
  · split at found
    · cases found
      exact startsWith_cons _
    · cases found
  · cases found

theorem nodup_eraseDups (l : List String) : l.eraseDups.Nodup := by
  cases l with
  | nil => exact List.nodup_nil
  | cons t l =>
    rw [List.eraseDups_cons, List.nodup_cons]
    have fewer := List.length_filter_le (fun u => !u == t) l
    exact ⟨by simp [List.mem_eraseDups], nodup_eraseDups (l.filter fun u => !u == t)⟩
termination_by l.length

/-- The tags of a note are told once each, with their hash signs. -/
theorem told_tags {content : String} {tags : List String} (h : ofNote content = .ok tags) :
    tags.Nodup ∧ ∀ t ∈ tags, t.startsWith "#" = true := by
  obtain ⟨header, body, text, parts, unfenced⟩ := exists_parts content
  obtain ⟨front, known, rfl⟩ := (ofNote_eq_ok parts unfenced).mp h
  refine ⟨nodup_eraseDups _, fun t there => ?_⟩
  rcases List.mem_append.mp (List.mem_eraseDups.mp there) with here | there
  · exact known.hashed t here
  · exact startsWith_tagsOf text t there

end Tags
end Runbook
