import Runbook.Proofs.Text.Case
import Runbook.Proofs.Visit.Consent
import Runbook.Visit.NoteList

/-! Searching the texts of notes.

A search gives the first notes, in the order of the vault, that have the query among their small
forms, and shows a part of each. The part is cut around the place of the match among the small
forms, which lies behind its place in the note by one character for every dotted capital before it.
So the part is a part of the note with its dots where they belong, whatever the note, and it has
the match in it with no more than the margin on either side where the two places, and the lengths of
the match and the query, do not drift apart too far (`searchNotes_shows`): always, where neither
the query nor the note up to the end of the match has a dotted capital. -/
namespace Runbook.Visit

open Text

variable {σ : Type}

/-! ### The part that is shown -/

/-- The dots at an end of an excerpt, where something is left out there. -/
def dots (left_out : List Char) : List Char := if left_out = [] then [] else "...".toList

/-- A part of a note, with dots at each end where the note goes on. -/
structure Excerpt (note : List Char) (shown : String) (before part after : List Char) : Prop where
  note_eq : note = before ++ part ++ after
  shown_eq : shown.toList = dots before ++ part ++ dots after

/-- A part of a text that has a match in it, with at most the margin on either side. -/
def Shows (before part after front here behind : List Char) : Prop :=
  ∃ left right, left.length ≤ margin ∧ right.length ≤ margin ∧
    front = before ++ left ∧ part = left ++ here ++ right ∧ behind = right ++ after

/-- Whether a match is shown is a matter of lengths. -/
theorem shows_iff {before part after front here behind : List Char}
    (same : before ++ part ++ after = front ++ here ++ behind) :
    Shows before part after front here behind ↔
      (before.length ≤ front.length ∧ front.length ≤ before.length + margin) ∧
        after.length ≤ behind.length ∧ behind.length ≤ after.length + margin := by
  constructor
  · rintro ⟨left, right, narrow_left, narrow_right, rfl, -, rfl⟩
    simp only [List.length_append]
    omega
  · rintro ⟨⟨starts, near_start⟩, ends, near_end⟩
    rw [List.append_assoc, List.append_assoc] at same
    obtain ⟨left, rfl⟩ := List.prefix_of_prefix_length_le ⟨_, same⟩ ⟨_, rfl⟩ starts
    rw [List.append_assoc, List.append_cancel_left_eq] at same
    have same' : part ++ after = (left ++ here) ++ behind := by rw [same, List.append_assoc]
    obtain ⟨right, rfl⟩ := List.suffix_of_suffix_length_le ⟨_, same'⟩ ⟨_, rfl⟩ ends
    rw [← List.append_assoc, List.append_cancel_right_eq] at same'
    simp only [List.length_append] at near_start near_end
    exact ⟨left, right, by omega, by omega, rfl, same', rfl⟩

theorem dots_eq {left_out : List Char} {there : Prop} [Decidable there]
    (same : there ↔ left_out ≠ []) :
    (if there then "...".toList else []) = dots left_out := by
  unfold dots
  by_cases none : left_out = []
  · rw [if_pos none, if_neg (fun h => same.mp h none)]
  · rw [if_neg none, if_pos (same.mpr none)]

/-- What a search shows of a note is a part of it. -/
theorem excerpt_snippet {note : List Char} (some_note : note ≠ []) (position query : Nat) :
    ∃ before part after, Excerpt note (snippet note position query) before part after ∧
      before.length = min (position - margin) note.length ∧
      after.length = note.length - (position + query + margin) := by
  have long : 0 < note.length := List.length_pos_iff.mpr some_note
  let start := position - margin
  let stop := min note.length (position + query + margin)
  let part := (note.drop start).take (stop - start)
  have behind_eq : (note.drop start).drop (stop - start) = note.drop (max start stop) := by
    rw [List.drop_drop]
    congr 1
    omega
  refine ⟨note.take start, part, note.drop (max start stop), ⟨?_, ?_⟩, List.length_take, ?_⟩
  · rw [← behind_eq, List.append_assoc, List.take_append_drop, List.take_append_drop]
  · have opens : 0 < start ↔ note.take start ≠ [] := by
      rw [← List.length_pos_iff, List.length_take]
      omega
    have closes : stop < note.length ↔ note.drop (max start stop) ≠ [] := by
      rw [← List.length_pos_iff, List.length_drop]
      omega
    rw [← dots_eq opens, ← dots_eq closes]
    exact String.toList_ofList
  · rw [List.length_drop]
    omega

/-- How far the place of a match among the small forms lies behind its place in the text. -/
def drift (front early : List Char) : Nat := front.count 'İ' + early.length

/-- What is shown of a text, for a query among its small forms. -/
def Exhibits (query note : List Char) (shown : String) : Prop :=
  ∃ front here behind early late before part after,
    Match (lower query) note front here behind early late ∧
      Excerpt note shown before part after ∧
      (Shows before part after front here behind ↔
        drift front early ≤ margin ∧ here.length ≤ drift front early + query.length + margin ∧
          (drift front early + query.length ≤ here.length ∨ behind.length ≤ margin)) ∧
      ('İ' ∉ query → 'İ' ∉ front ++ here → Shows before part after front here behind) ∧
      (Shows before part after front here behind → 'Σ' ∉ here → lower query <:+: lower part)

theorem lower_ne_nil {cs : List Char} (some_text : cs ≠ []) : lower cs ≠ [] := by
  rw [← List.length_pos_iff, length_lower, width]
  have := List.length_pos_iff.mpr some_text
  omega

theorem exhibits_snippet {query note : List Char} {position : Nat} (some_query : query ≠ [])
    (found : position? (lower query) (lower note) = some position) :
    Exhibits query note (snippet note position query.length) := by
  obtain ⟨front, here, behind, early, late, m, place⟩ :=
    exists_match (lower_ne_nil some_query) found
  have some_here : 0 < here.length := by
    have wide := m.width_here
    have := List.length_pos_iff.mpr (lower_ne_nil some_query)
    have := List.count_le_length (a := 'İ') (l := here)
    rw [width] at wide
    omega
  have length : note.length = front.length + here.length + behind.length := by
    rw [m.text_eq, List.length_append, List.length_append]
  have some_note : note ≠ [] := List.length_pos_iff.mp (by omega)
  obtain ⟨before, part, after, excerpt, opens, closes⟩ :=
    excerpt_snippet some_note position query.length
  rw [place, width, length] at opens closes
  have lengths : Shows before part after front here behind ↔
      drift front early ≤ margin ∧ here.length ≤ drift front early + query.length + margin ∧
        (drift front early + query.length ≤ here.length ∨ behind.length ≤ margin) := by
    rw [shows_iff (excerpt.note_eq.symm.trans m.text_eq), drift]
    omega
  refine ⟨front, here, behind, early, late, before, part, after, m, excerpt, lengths, ?_, ?_⟩
  · intro plain_query plain
    obtain ⟨plain_front, plain_here⟩ := not_or.mp (List.mem_append.not.mp plain)
    obtain ⟨no_early, -, same⟩ := m.plain plain_here
    rw [length_lower, width_eq_length plain_query] at same
    rw [lengths, drift, List.count_eq_zero_of_not_mem plain_front, no_early, same]
    exact ⟨Nat.zero_le _, by omega, .inl (by simp)⟩
  · rintro ⟨left, right, -, -, -, rfl, -⟩ plain
    exact m.infix_lower plain left right

/-! ### What a search finds -/

/-- A text that has a query among its small forms. -/
def Mentions (query : String) (text : String) : Prop :=
  lower query.toList <:+: lower text.toList

instance (query text : String) : Decidable (Mentions query text) :=
  decidable_of_iff _ (contains_iff (lower query.toList) (lower text.toList))

/-- What a search says of a note, with the part that it shows. -/
def told (path shown : String) : Value :=
  .record [("name", .str (FileName.ofPath path).name), ("path", .str path),
    ("matchedContent", .str shown)]

/-- What a search leaves of what it found. -/
def searched (c : Context σ) (found : List Value) : Outcome :=
  { output := .record [("count", .int found.length)]
    writes := c.writes [("saveTo", .list found)] }

/-- A node that searches the texts of notes, with the files of its vault and their texts in all
worlds of a kind. -/
structure Searches (c : Context σ) (vault : VaultProvider σ) (within : σ → Prop)
    (paths : List String) (text : String → String) (enough : Nat) : Prop where
  offered : c.providers.vault = some vault
  query : (c.property "query").isEmpty = false
  saves : (c.trimmed "saveTo").isEmpty = false
  inContent : c.flag "searchContent" = true
  limit : Visit.limit c 10 = .ok enough
  listed : vault.listFiles.Returns within paths
  read : ∀ path ∈ paths, Notes.isNote path = true →
    (vault.readText path).Returns within (text path)

/-- The first notes that mention a query. -/
def mentioning (query : String) (text : String → String) (enough : Nat) (paths : List String) :
    List String :=
  ((paths.filter Notes.isNote).filter fun path => Mentions query (text path)).take enough

/-- The part of a text that is shown for a query. -/
def shownOf (query text : String) : String :=
  match position? (lower query.toList) (lower text.toList) with
  | some position => snippet text.toList position query.toList.length
  | none => ""

variable {vault : VaultProvider σ} {within : σ → Prop} {text : String → String} {query : String}
  {s s' : Session σ}

theorem hit_content {path content : String}
    (read : Act.call (vault.readText path) s = (.ok content, s')) :
    hit vault query.toList true path s =
      (.ok (if Mentions query content then some (told path (shownOf query content)) else none),
        s') := by
  have mentions := isSome_position? (lower query.toList) (lower content.toList)
  unfold hit shownOf
  simp only [if_true]
  rw [Act.bind_apply, read]
  cases found : position? (lower query.toList) (lower content.toList) with
  | some position =>
    have there : Mentions query content := mentions.mp (by rw [found]; rfl)
    simp only [found, if_pos there]
    rfl
  | none =>
    have absent : ¬ Mentions query content := fun there => by
      rw [← Option.not_isSome_iff_eq_none] at found
      exact found (mentions.mpr there)
    simp only [found, if_neg absent]
    rfl

/-- The search goes through the notes in order, and stops when it has found enough. -/
theorem hits_content (query : String) {paths : List String} (enough count : Nat)
    (returns : ∀ path ∈ paths, (vault.readText path).Returns within (text path))
    (inside : within s.world) :
    ∃ s', within s'.world ∧ hits vault query.toList true enough count paths s =
      (.ok (((paths.filter fun path => Mentions query (text path)).take (enough - count)).map
        fun path => told path (shownOf query (text path))), s') := by
  induction paths generalizing count s with
  | nil => exact ⟨s, inside, by rw [List.filter_nil, List.take_nil]; rfl⟩
  | cons path rest ih =>
    obtain ⟨here, later⟩ := List.forall_mem_cons.mp returns
    rw [hits]
    by_cases full : enough ≤ count
    · refine ⟨s, inside, ?_⟩
      rw [if_pos (Int.ofNat_le.mpr full), Nat.sub_eq_zero_of_le full, List.take_zero]
      rfl
    · obtain ⟨s₁, read, inside₁⟩ := Act.call_returns here inside
      rw [if_neg (mt Int.ofNat_le.mp full), Act.bind_apply, hit_content read]
      by_cases there : Mentions query (text path)
      · obtain ⟨s₂, inside₂, found⟩ := ih (count + 1) later inside₁
        refine ⟨s₂, inside₂, ?_⟩
        have left : enough - count = enough - (count + 1) + 1 := by omega
        rw [List.filter_cons_of_pos (by simpa using there), left, List.take_succ_cons,
          List.map_cons, if_pos there]
        dsimp only
        rw [Act.bind_apply, found]
        rfl
      · obtain ⟨s₂, inside₂, found⟩ := ih count later inside₁
        refine ⟨s₂, inside₂, ?_⟩
        rw [List.filter_cons_of_neg (by simpa using there), if_neg there]
        exact found

/-- A search finds the first notes that mention the query. -/
theorem Searches.searchNotes_eq {c : Context σ} {paths : List String} {enough : Nat}
    (searches : Searches c vault within paths text enough) (inside : within s.world) :
    ∃ s', within s'.world ∧ searchNotes c s =
      (.ok (searched c ((mentioning (c.property "query") text enough paths).map
        fun path => told path (shownOf (c.property "query") (text path)))), s') := by
  obtain ⟨s₁, listed, inside₁⟩ := Act.call_returns searches.listed inside
  obtain ⟨s₂, inside₂, found⟩ := hits_content (c.property "query") enough 0
    (fun path there => searches.read path (List.mem_filter.mp there).1 (List.mem_filter.mp there).2)
    inside₁
  refine ⟨s₂, inside₂, ?_⟩
  unfold searchNotes Context.vault Context.require noteFiles
  simp only [searches.query, searches.saves, searches.offered, searches.limit, searches.inContent,
    Act.ofExcept, Bool.false_eq_true, if_false, pure_bind, bind_assoc]
  rw [Act.bind_apply, listed]
  dsimp only
  rw [Act.bind_apply, found]
  rfl

/-- A search of texts finds the first notes, in the order of the vault, that have the query among
their small forms, and shows a part of each, with dots at an end just where the note goes on. The
part has the match in it, with no more than the margin on either side, where the drift of the match
and its length allow it: always where neither the query nor the note up to the end of the match has
a dotted capital. -/
theorem searchNotes_shows {c : Context σ} {paths : List String} {enough : Nat}
    (searches : Searches c vault within paths text enough) (inside : within s.world) :
    ∃ shown : String → String, ∃ s', within s'.world ∧
      searchNotes c s = (.ok (searched c ((mentioning (c.property "query") text enough paths).map
        fun path => told path (shown path))), s') ∧
      ∀ path ∈ mentioning (c.property "query") text enough paths,
        Exhibits (c.property "query").toList (text path).toList (shown path) := by
  obtain ⟨s', inside', found⟩ := searches.searchNotes_eq inside
  refine ⟨_, s', inside', found, fun path there => ?_⟩
  have mentions : Mentions (c.property "query") (text path) := by
    simpa using (List.mem_filter.mp (List.mem_of_mem_take there)).2
  obtain ⟨position, place⟩ := Option.isSome_iff_exists.mp ((isSome_position? _ _).mpr mentions)
  have some_query : (c.property "query").toList ≠ [] := by
    have given := searches.query
    simpa [String.isEmpty_iff] using given
  unfold shownOf
  rw [place]
  exact exhibits_snippet some_query place

/-- A node that searches the texts of a vault of notes. -/
def browsing (query : String) (notes : List (String × String)) : Context (List Called) :=
  { node := { id := "s", kind := "note-search" }
    properties := [("query", query), ("searchContent", "true"), ("saveTo", "h")]
    scope := .empty
    providers := { (drafting "" none).providers with vault := some (shelf notes) } }

theorem searches_browsing {query : String} {notes : List (String × String)}
    (given : ((browsing query notes).property "query").isEmpty = false) :
    Searches (browsing query notes) (shelf notes) (fun _ => True) (Entries.keys notes)
      (fun path => (Entries.get? path notes).getD "") 10 where
  offered := rfl
  query := given
  saves := by
    have named : (browsing query notes).property "saveTo" = "h" := rfl
    rw [Context.trimmed, named]
    decide
  inContent := by
    have named : (browsing query notes).property "searchContent" = "true" := rfl
    rw [Context.flag, Context.flagOr, named]
    decide
  limit := by with_unfolding_all rfl
  listed := fun _ _ => ⟨rfl, trivial⟩
  read := fun _ _ _ _ _ => ⟨rfl, trivial⟩

theorem searchNotes_shows_second :
    let notes := [("a.md", "none"), ("b.md", "İ: the SECRET")]
    let c := browsing "Secret" notes
    Searches c (shelf notes) (fun _ => True) ["a.md", "b.md"]
        (fun path => (Entries.get? path notes).getD "") 10 ∧
      ∃ shown s', searchNotes c fresh = (.ok (searched c [told "b.md" shown]), s') ∧
        Exhibits "Secret".toList "İ: the SECRET".toList shown := by
  intro notes c
  have searches : Searches c _ _ _ _ _ := searches_browsing (by decide)
  obtain ⟨shown, s', -, found, exhibits⟩ := searchNotes_shows (s := fresh) searches trivial
  have first : mentioning (c.property "query") (fun path => (Entries.get? path notes).getD "") 10
      (Entries.keys notes) = ["b.md"] := by decide +kernel
  rw [first] at found exhibits
  exact ⟨searches, _, s', found, exhibits _ (List.mem_singleton.mpr rfl)⟩

/-- A secret behind dotted capitals. -/
def dotted : String := String.ofList (List.replicate 60 'İ' ++ "secret".toList)

theorem toList_dotted : dotted.toList = List.replicate 60 'İ' ++ "secret".toList :=
  String.toList_ofList

theorem lower_dotted :
    lower dotted.toList = (List.replicate 60 ['i', '\u0307']).flatten ++ "secret".toList := by
  rw [toList_dotted, lower_plain (by decide), List.flatMap_append,
    List.flatMap_replicate, lowerChar_dotted]
  rfl

theorem lower_secret : lower "secret".toList = "secret".toList := by decide

theorem mentions_dotted : Mentions "secret" dotted := by
  rw [Mentions, lower_dotted, lower_secret]
  exact List.infix_append_right

theorem shownOf_dotted : shownOf "secret" dotted = "..." := by
  have place : position? "secret".toList
      ((List.replicate 60 ['i', '\u0307']).flatten ++ "secret".toList) = some 120 := by
    decide +kernel
  rw [shownOf, lower_dotted, lower_secret, place, toList_dotted]
  decide

/-- Dotted capitals in front of a match move what is shown behind it. -/
theorem searchNotes_drifts :
    let c := browsing "secret" [("a.md", dotted)]
    Mentions "secret" dotted ∧
      (∃ s', searchNotes c fresh = (.ok (searched c [told "a.md" "..."]), s')) ∧
      ¬ lower "secret".toList <:+: lower "...".toList := by
  intro c
  have searches : Searches c _ _ _ _ _ := searches_browsing (by decide)
  obtain ⟨s', -, found⟩ := searches.searchNotes_eq (s := fresh) trivial
  have asked : c.property "query" = "secret" := rfl
  have held : (Entries.get? "a.md" [("a.md", dotted)]).getD "" = dotted := rfl
  have first : mentioning "secret"
      (fun path => (Entries.get? path [("a.md", dotted)]).getD "") 10 ["a.md"] = ["a.md"] := by
    have noted : ["a.md"].filter Notes.isNote = ["a.md"] := by decide +kernel
    rw [mentioning, noted, List.filter_cons_of_pos (by simpa [held] using mentions_dotted)]
    rfl
  rw [asked, Entries.keys, List.map_singleton, first, List.map_singleton, held,
    shownOf_dotted] at found
  exact ⟨mentions_dotted, ⟨s', found⟩, by decide⟩

end Runbook.Visit
