import Mathlib.Logic.Relation
import Runbook.FileTree
import Runbook.Path

/-! The names that a path text comes to.

A text falls into pieces at its slashes. Pieces are simplified one at a time and in any order: an
empty one and a single dot do not count, two dots cancel the name in front of them, and at the top
they lead nowhere. Whatever the order, they come to the same names, and those are where the pieces
lead (`Path.normalises_iff`). Pieces with the null character come to none. -/
namespace Runbook

namespace Text

/-- A text without the separator is its own piece. -/
theorem splitAt_of_not_mem {sep : Char} {cs : List Char} (h : sep ∉ cs) :
    splitAt sep cs = [cs] := by
  induction cs with
  | nil => rfl
  | cons c cs ih =>
    obtain ⟨here, behind⟩ := List.ne_and_not_mem_of_not_mem_cons h
    rw [splitAt, if_neg (Ne.symm here), ih behind]

end Text

namespace Path

/-- What a file can be called: a text without slashes that is neither empty nor one of the dots. -/
structure IsName (n : String) : Prop where
  noSlash : '/' ∉ n.toList
  some : n ≠ ""
  noDot : n ≠ "."
  noDots : n ≠ ".."

variable {n : String}

theorem namesOf_name (h : IsName n) : namesOf n = [n] := by
  have some : n.toList.isEmpty = false :=
    List.isEmpty_eq_false_iff.mpr fun none => h.some (String.toList_eq_nil_iff.mp none)
  have noDot : (n.toList == ['.']) = false :=
    beq_eq_false_iff_ne.mpr fun dot => h.noDot (String.toList_injective dot)
  rw [namesOf, Text.splitAt_of_not_mem h.noSlash]
  simp only [List.filterMap_cons, some, noDot, String.ofList_toList]
  rfl

theorem ofText_name (h : IsName n) : ofText n = ⟨0, [n]⟩ := by
  have relative : n.toList.takeWhile (· == '/') = [] := by
    cases chars : n.toList with
    | nil => rfl
    | cons c cs =>
      have other := (List.ne_and_not_mem_of_not_mem_cons (chars ▸ h.noSlash)).1
      simp [Ne.symm other]
  rw [ofText, slashesOf, relative, namesOf_name h]
  rfl

end Path

/-! ### Pieces -/

namespace Text

variable {sep : Char}

theorem splitAt_append {front : List Char} (h : sep ∉ front) (rest : List Char) :
    splitAt sep (front ++ sep :: rest) = front :: splitAt sep rest := by
  induction front with
  | nil => rw [List.nil_append, splitAt, if_pos rfl]
  | cons c cs ih =>
    obtain ⟨here, behind⟩ := List.ne_and_not_mem_of_not_mem_cons h
    rw [List.cons_append, splitAt, if_neg (Ne.symm here), ih behind]

theorem not_mem_of_mem_splitAt {cs piece : List Char} (h : piece ∈ splitAt sep cs) :
    sep ∉ piece := by
  induction cs generalizing piece with
  | nil =>
    cases List.mem_singleton.mp h
    exact List.not_mem_nil
  | cons c cs ih =>
    rw [splitAt] at h
    split at h
    · rcases List.mem_cons.mp h with rfl | behind
      · exact List.not_mem_nil
      · exact ih behind
    · rename_i other
      split at h
      · rename_i first pieces split
        rw [split] at ih
        rcases List.mem_cons.mp h with rfl | behind
        · rintro (_ | ⟨_, there⟩)
          · exact other rfl
          · exact ih (List.mem_cons_self ..) there
        · exact ih (List.mem_cons_of_mem _ behind)
      · cases List.mem_singleton.mp h
        exact fun there => other (List.mem_singleton.mp there).symm

/-- A character other than the separator is in a piece of the text. -/
theorem mem_splitAt {c : Char} (other : c ≠ sep) (cs : List Char) :
    (∃ piece ∈ splitAt sep cs, c ∈ piece) ↔ c ∈ cs := by
  induction cs with
  | nil => simp [splitAt]
  | cons d cs ih =>
    rw [splitAt, List.mem_cons, ← ih]
    split
    · rename_i same
      simp [same, other]
    · split
      · rename_i first pieces split
        simp [split, or_assoc]
      · rename_i split
        simp [split]

end Text

namespace Path

/-- What a system takes as the name of a file. -/
structure IsFileName (n : String) : Prop extends IsName n where
  noNull : '\x00' ∉ n.toList

/-- The pieces of a text between its slashes. -/
def pieces (s : String) : List String := (Text.splitAt '/' s.toList).map String.ofList

/-- One simplification, of the pieces from the top. -/
inductive Simplifies : List String → List String → Prop
  | empty (front rest : List String) : Simplifies (front ++ "" :: rest) (front ++ rest)
  | dot (front rest : List String) : Simplifies (front ++ "." :: rest) (front ++ rest)
  | back (front rest : List String) {n : String} (name : IsFileName n) :
    Simplifies (front ++ n :: ".." :: rest) (front ++ rest)
  | top (rest : List String) : Simplifies (".." :: rest) rest

/-- The names that pieces come to. -/
structure Normalises (ps names : List String) : Prop where
  steps : Relation.ReflTransGen Simplifies ps names
  normal : ∀ n ∈ names, IsFileName n

/-- Where pieces lead to from a place. -/
def led (l : Location) (ps : List String) : Location :=
  FileTree.lead l (ps.filter fun p => !(p == "" || p == "."))

theorem lead_append (l : Location) (ns more : List String) :
    FileTree.lead l (ns ++ more) = FileTree.lead (FileTree.lead l ns) more := by
  induction ns generalizing l with
  | nil => rfl
  | cons n ns ih => exact ih _

theorem led_append (l : Location) (ps more : List String) :
    led l (ps ++ more) = led (led l ps) more := by
  rw [led, List.filter_append, lead_append]
  rfl

theorem led_empty (l : Location) (ps : List String) : led l ("" :: ps) = led l ps := rfl

theorem led_dot (l : Location) (ps : List String) : led l ("." :: ps) = led l ps := rfl

theorem led_dots (l : Location) (ps : List String) : led l (".." :: ps) = led l.dropLast ps := rfl

theorem led_name {n : String} (h : IsName n) (l : Location) (ps : List String) :
    led l (n :: ps) = led (l ++ [n]) ps := by
  simp [led, FileTree.lead, h.some, h.noDot, h.noDots]

theorem led_names {names : List String} (h : ∀ n ∈ names, IsName n) (l : Location) :
    led l names = l ++ names := by
  induction names generalizing l with
  | nil => exact (List.append_nil l).symm
  | cons n names ih =>
    obtain ⟨here, behind⟩ := List.forall_mem_cons.mp h
    rw [led_name here, ih behind, List.append_assoc, List.singleton_append]

/-! ### Uniqueness -/

/-- Simplifying does not change where the pieces lead. -/
theorem Simplifies.led_eq {ps qs : List String} (h : Simplifies ps qs) : led [] ps = led [] qs := by
  cases h with
  | empty front rest => rw [led_append, led_append, led_empty]
  | dot front rest => rw [led_append, led_append, led_dot]
  | back front rest name =>
    rw [led_append, led_append, led_name name.toIsName, led_dots, List.dropLast_concat]
  | top rest => rfl

theorem Normalises.led_eq {ps names : List String} (h : Normalises ps names) :
    led [] ps = names := by
  have same : led [] ps = led [] names := by
    refine h.steps.head_induction_on rfl fun step _ ih => ?_
    exact step.led_eq.trans ih
  rw [same, led_names fun n hn => (h.normal n hn).toIsName, List.nil_append]

/-! ### Existence -/

/-- What can stand between slashes, besides the null character. -/
structure IsPiece (p : String) : Prop where
  noSlash : '/' ∉ p.toList
  noNull : '\x00' ∉ p.toList

/-- Pieces behind names lead to names, and simplify to them. -/
theorem simplifies_led {ps : List String} (h : ∀ p ∈ ps, IsPiece p) {l : Location}
    (names : ∀ n ∈ l, IsFileName n) : Normalises (l ++ ps) (led l ps) := by
  induction ps generalizing l with
  | nil =>
    rw [List.append_nil]
    exact ⟨.refl, names⟩
  | cons p ps ih =>
    obtain ⟨here, behind⟩ := List.forall_mem_cons.mp h
    by_cases empty : p = ""
    · subst empty
      obtain ⟨steps, normal⟩ := ih behind names
      exact ⟨.head (.empty l ps) steps, normal⟩
    by_cases dot : p = "."
    · subst dot
      obtain ⟨steps, normal⟩ := ih behind names
      exact ⟨.head (.dot l ps) steps, normal⟩
    by_cases dots : p = ".."
    · subst dots
      rw [led_dots]
      rcases List.eq_nil_or_concat l with rfl | ⟨front, n, last⟩
      · obtain ⟨steps, normal⟩ := ih behind names
        exact ⟨.head (.top ps) steps, normal⟩
      · -- The dots go with the last of the names.
        rw [List.concat_eq_append] at last
        subst last
        obtain ⟨before, name⟩ := List.forall_mem_append.mp names
        obtain ⟨steps, normal⟩ := ih behind before
        rw [List.dropLast_concat, List.append_assoc]
        exact ⟨.head (.back front ps (List.forall_mem_singleton.mp name)) steps, normal⟩
    · have name : IsFileName p := ⟨⟨here.noSlash, empty, dot, dots⟩, here.noNull⟩
      rw [led_name name.toIsName, ← List.singleton_append, ← List.append_assoc]
      exact ih behind (List.forall_mem_append.mpr ⟨names, List.forall_mem_singleton.mpr name⟩)

theorem Simplifies.noNull {ps qs : List String} (h : Simplifies ps qs)
    (none : ∀ q ∈ qs, '\x00' ∉ q.toList) : ∀ p ∈ ps, '\x00' ∉ p.toList := by
  cases h with
  | empty front rest | dot front rest =>
    obtain ⟨before, behind⟩ := List.forall_mem_append.mp none
    exact List.forall_mem_append.mpr ⟨before, List.forall_mem_cons.mpr ⟨by decide, behind⟩⟩
  | back front rest name =>
    obtain ⟨before, behind⟩ := List.forall_mem_append.mp none
    refine List.forall_mem_append.mpr ⟨before, List.forall_mem_cons.mpr ⟨name.noNull, ?_⟩⟩
    exact List.forall_mem_cons.mpr ⟨by decide, behind⟩
  | top rest => exact List.forall_mem_cons.mpr ⟨by decide, none⟩

theorem Normalises.noNull {ps names : List String} (h : Normalises ps names) :
    ∀ p ∈ ps, '\x00' ∉ p.toList := by
  refine h.steps.head_induction_on ?_ fun step _ => step.noNull
  exact fun n hn => (h.normal n hn).noNull

/-! ### Texts -/

theorem noSlash_of_mem_pieces {s p : String} (h : p ∈ pieces s) : '/' ∉ p.toList := by
  obtain ⟨cs, there, rfl⟩ := List.mem_map.mp h
  rw [String.toList_ofList]
  exact Text.not_mem_of_mem_splitAt there

theorem noNull_pieces {s : String} :
    (∀ p ∈ pieces s, '\x00' ∉ p.toList) ↔ '\x00' ∉ s.toList := by
  have other : '\x00' ≠ '/' := by decide
  rw [← Text.mem_splitAt other s.toList, not_exists]
  simp [pieces]

/-- The pieces of a text lead where its names do. -/
theorem led_pieces (l : Location) (s : String) :
    led l (pieces s) = FileTree.lead l (namesOf s) := by
  unfold led namesOf pieces
  congr 1
  induction Text.splitAt '/' s.toList with
  | nil => rfl
  | cons p ps ih =>
    have empty : (String.ofList p == "") = p.isEmpty := by
      cases p with
      | nil => rfl
      | cons c cs => exact beq_eq_false_iff_ne.mpr (by simp [String.ofList_eq_empty_iff])
    have dot : (String.ofList p == ".") = (p == ['.']) := by
      rw [Bool.eq_iff_iff, beq_iff_eq, beq_iff_eq]
      show String.ofList p = String.ofList ['.'] ↔ p = ['.']
      exact String.ofList_inj
    rw [List.map_cons, List.filter_cons, List.filterMap_cons, ih, empty, dot]
    cases p.isEmpty || p == ['.'] <;> rfl

/-- Behind the names of a place, the pieces of a text come to the place that the text leads to from
there, unless the null character is among them. -/
theorem normalises_iff {l names : Location} {s : String} (h : ∀ n ∈ l, IsFileName n) :
    Normalises (l ++ pieces s) names ↔
      '\x00' ∉ s.toList ∧ names = FileTree.lead l (namesOf s) := by
  constructor
  · intro normal
    refine ⟨?_, ?_⟩
    · exact noNull_pieces.mp fun p hp => normal.noNull p (List.mem_append_right _ hp)
    · rw [← normal.led_eq, led_append, led_names fun n hn => (h n hn).toIsName, List.nil_append,
        led_pieces]
  · rintro ⟨noNull, rfl⟩
    rw [← led_pieces]
    exact simplifies_led
      (fun p hp => ⟨noSlash_of_mem_pieces hp, noNull_pieces.mpr noNull p hp⟩) h

theorem pieces_intercalate {names : List String} (some_names : names ≠ [])
    (h : ∀ n ∈ names, '/' ∉ n.toList) : pieces ("/".intercalate names) = names := by
  have split : Text.splitAt '/' (['/'].intercalate (names.map String.toList)) =
      names.map String.toList := by
    induction names with
    | nil => exact absurd rfl some_names
    | cons n names ih =>
      obtain ⟨here, behind⟩ := List.forall_mem_cons.mp h
      cases names with
      | nil =>
        rw [List.map_singleton, List.intercalate_singleton]
        exact Text.splitAt_of_not_mem here
      | cons m names =>
        rw [List.map_cons, List.map_cons, List.intercalate_cons_cons, List.append_assoc,
          List.singleton_append, Text.splitAt_append here, ← List.map_cons,
          ih (List.cons_ne_nil m names) behind]
  rw [pieces, String.toList_intercalate]
  refine (congrArg _ split).trans ?_
  rw [List.map_map]
  exact List.map_id'' (fun _ => String.ofList_toList) names

end Path
end Runbook
