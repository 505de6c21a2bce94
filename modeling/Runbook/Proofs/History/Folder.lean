import Runbook.Glob
import Runbook.History
import Runbook.Proofs.FileTree
import Runbook.Proofs.Path

/-! The folder of a history, seen from its names.

A file of the history stands right inside the folder, and is found by the end of its name: the id of
its run and the suffix. Which of several is found is a question of their order alone. -/

/-! ## Which names a pattern takes

A pattern that is a star in front of plain characters takes the names that end with these
characters, and no others. -/
namespace Runbook.Glob

/-- A character that stands for itself in a pattern. -/
def IsPlain (c : Char) : Prop := c ≠ '*' ∧ c ≠ '?' ∧ c ≠ '['

theorem piecesUpTo_plain {cs : List Char} (plain : ∀ c ∈ cs, IsPlain c) {fuel : Nat}
    (enough : cs.length ≤ fuel) : piecesUpTo fuel cs = cs.map .exactly := by
  induction cs generalizing fuel with
  | nil => cases fuel <;> rfl
  | cons c cs ih =>
    obtain ⟨fuel, rfl⟩ := Nat.exists_eq_succ_of_ne_zero (Nat.ne_of_gt (Nat.zero_lt_of_lt enough))
    obtain ⟨⟨noStar, noMark, noBracket⟩, behind⟩ := List.forall_mem_cons.mp plain
    have rest := ih behind (Nat.le_of_succ_le_succ enough)
    unfold piecesUpTo
    split
    · exact absurd rfl noStar
    · exact absurd rfl noMark
    · exact absurd rfl noBracket
    · rw [rest, List.map_cons]

theorem pieces_star {cs : List Char} (plain : ∀ c ∈ cs, IsPlain c) :
    pieces ('*' :: cs) = .any :: cs.map .exactly := by
  show Piece.any :: piecesUpTo cs.length cs = _
  rw [piecesUpTo_plain plain (Nat.le_refl _)]

theorem taken_exactly (cs ds : List Char) : taken (cs.map .exactly) ds = true ↔ ds = cs := by
  induction cs generalizing ds with
  | nil => cases ds <;> simp [taken]
  | cons c cs ih =>
    cases ds with
    | nil => simp [taken]
    | cons d ds => simp [taken, Piece.takes, ih]

theorem taken_any (ps : List Piece) (ds : List Char) :
    taken (.any :: ps) ds = true ↔ ∃ back, back <:+ ds ∧ taken ps back = true := by
  induction ds with
  | nil => simp [taken]
  | cons d ds ih =>
    rw [taken, Bool.or_eq_true, ih]
    constructor
    · rintro (here | ⟨back, behind, takes⟩)
      · exact ⟨_, List.suffix_rfl, here⟩
      · exact ⟨back, behind.trans (List.suffix_cons d ds), takes⟩
    · rintro ⟨back, behind, takes⟩
      rcases List.suffix_cons_iff.mp behind with rfl | behind
      · exact .inl takes
      · exact .inr ⟨back, behind, takes⟩

/-- A star in front of plain characters takes the names that end with them. -/
theorem isMatch_star {pattern name : String} {tail : List Char}
    (starred : pattern.toList = '*' :: tail) (plain : ∀ c ∈ tail, IsPlain c) :
    isMatch pattern name = true ↔ tail <:+ name.toList := by
  rw [isMatch, starred, pieces_star plain, taken_any]
  simp only [taken_exactly]
  exact ⟨fun ⟨_, behind, same⟩ => same ▸ behind, fun behind => ⟨_, behind, rfl⟩⟩

end Runbook.Glob

namespace Runbook.History
variable {h : History} {n : String}

/-! ### Names -/

theorem placeOf_name (name : Path.IsName n) : h.placeOf n = h.folder ++ [n] := by
  have step : (if n == ".." then h.folder.dropLast else h.folder ++ [n]) = h.folder ++ [n] :=
    if_neg (by simpa using name.noDots)
  rw [placeOf, Path.ofText_name name]
  exact step

theorem mem_names {pattern : String} :
    n ∈ h.names pattern ↔
      [n] ∈ Entries.keys (h.tree.below h.folder) ∧ Glob.isMatch pattern n = true := by
  unfold names Entries.keys
  simp only [List.mem_filterMap, List.mem_map]
  constructor
  · rintro ⟨⟨place, i⟩, there, named⟩
    split at named
    · rename_i same
      cases same
      split at named
      · cases named
        exact ⟨⟨_, there, rfl⟩, ‹_›⟩
      · cases named
    · cases named
  · rintro ⟨⟨⟨place, i⟩, there, rfl⟩, takes⟩
    exact ⟨_, there, if_pos takes⟩

/-- What stands right inside the folder has names that files can have. -/
def Proper (h : History) : Prop :=
  ∀ n, [n] ∈ Entries.keys (h.tree.below h.folder) → Path.IsName n

/-! ### The first in order -/

/-- The first of some names. -/
def first (names : List String) : Option String :=
  (names.mergeSort fun a b => decide (a ≤ b)).head?

theorem first_eq_some {names : List String} {least : String} :
    first names = some least ↔ least ∈ names ∧ ∀ m ∈ names, least ≤ m := by
  have trans (a b c : String) (ab : decide (a ≤ b) = true) (bc : decide (b ≤ c) = true) :
      decide (a ≤ c) = true :=
    decide_eq_true (String.le_trans (of_decide_eq_true ab) (of_decide_eq_true bc))
  have total (a b : String) : (decide (a ≤ b) || decide (b ≤ a)) = true := by
    simp [String.le_total]
  have sorted : (names.mergeSort fun a b => decide (a ≤ b)).Pairwise (· ≤ ·) :=
    (List.pairwise_mergeSort trans total names).imp of_decide_eq_true
  have same (m : String) : m ∈ names.mergeSort (fun a b => decide (a ≤ b)) ↔ m ∈ names :=
    (List.mergeSort_perm names _).mem_iff
  simp only [← same, first]
  cases sorting : names.mergeSort fun a b => decide (a ≤ b) with
  | nil => simp
  | cons m rest =>
    rw [sorting] at sorted
    obtain ⟨before, -⟩ := List.pairwise_cons.mp sorted
    simp only [List.head?_cons, Option.some.injEq]
    constructor
    · rintro rfl
      exact ⟨List.mem_cons_self .., List.forall_mem_cons.mpr ⟨String.le_refl m, before⟩⟩
    · rintro ⟨there, lowest⟩
      rcases List.mem_cons.mp there with rfl | behind
      · rfl
      · exact String.le_antisymm (before _ behind) (lowest m (List.mem_cons_self ..))

theorem first_eq_none {names : List String} : first names = none ↔ names = [] := by
  rw [first, List.head?_eq_none_iff, ← List.length_eq_zero_iff, List.length_mergeSort,
    List.length_eq_zero_iff]

/-- One more name may come first; otherwise the first is the one from before. -/
theorem first_more {names more : List String} {p : Prop}
    (same : ∀ m, m ∈ more ↔ m ∈ names ∨ m = n ∧ p) :
    first more = first names ∨ first more = some n := by
  cases found : first more with
  | none =>
    left
    rw [first_eq_none, List.eq_nil_iff_forall_not_mem] at found
    exact (first_eq_none.mpr (List.eq_nil_iff_forall_not_mem.mpr fun m there =>
      found m ((same m).mpr (.inl there)))).symm
  | some m =>
    obtain ⟨there, least⟩ := first_eq_some.mp found
    rcases (same m).mp there with before | ⟨rfl, -⟩
    · exact .inl (first_eq_some.mpr ⟨before, fun k inside =>
        least k ((same k).mpr (.inl inside))⟩).symm
    · exact .inr rfl

/-! ### Finding -/

/-- An id that stands for itself in names and in patterns. -/
structure IsId (id : String) : Prop where
  noSlash : '/' ∉ id.toList
  plain : ∀ c ∈ id.toList, Glob.IsPlain c

/-- What the name of the file of a run ends with. -/
def ending (id : String) : List Char := '_' :: (id.toList ++ ".json".toList)

theorem suffix_ending (id : String) : ".json".toList <:+ ending id :=
  (List.suffix_append _ _).trans (List.suffix_cons _ _)

theorem isMatch_isRecord : Glob.isMatch isRecord n = true ↔ ".json".toList <:+ n.toList :=
  Glob.isMatch_star rfl (by simp [Glob.IsPlain])

theorem isMatch_ending {id : String} (plain : IsId id) :
    Glob.isMatch ("*_" ++ id ++ ".json") n = true ↔ ending id <:+ n.toList := by
  have starred : ("*_" ++ id ++ ".json").toList = '*' :: ending id := by simp [ending]
  refine Glob.isMatch_star starred ?_
  refine List.forall_mem_cons.mpr ⟨by simp [Glob.IsPlain], List.forall_mem_append.mpr
    ⟨plain.plain, by simp [Glob.IsPlain]⟩⟩

/-- A name with the suffix of records is one that a file can have, if it has no slash. -/
theorem isName_of_suffix (noSlash : '/' ∉ n.toList) (suffix : ".json".toList <:+ n.toList) :
    Path.IsName n := by
  have long : 5 ≤ n.toList.length := suffix.length_le
  refine ⟨noSlash, ?_, ?_, ?_⟩ <;>
  · rintro rfl
    revert long
    decide

theorem find_id {id : String} (plain : IsId id) (stands : h.tree.isFolder h.folder = true) :
    h.find id = .ok (first (h.names ("*_" ++ id ++ ".json"))) := by
  have chars : ("*_" ++ id ++ ".json").toList = '*' :: ending id := by simp [ending]
  have noSlash : '/' ∉ ("*_" ++ id ++ ".json").toList := by
    rw [chars]
    simp [ending, plain.noSlash]
  have suffix : ".json".toList <:+ ("*_" ++ id ++ ".json").toList := by
    rw [chars]
    exact (suffix_ending id).trans (List.suffix_cons _ _)
  have noStars : Text.contains ['*', '*'] ("*_" ++ id ++ ".json").toList = false := by
    rw [Text.contains, Option.isSome_eq_false_iff, Option.isNone_iff_eq_none,
      Option.eq_none_iff_forall_ne_some]
    rintro ⟨before, rest⟩ cut
    have one : ('*' :: ending id).count '*' = 1 := by
      have none : '*' ∉ id.toList := fun there => (plain.plain _ there).1 rfl
      simp [ending, List.count_append, List.count_eq_zero.mpr none]
    have two := congrArg (List.count '*') (Text.cutAtWord_eq cut)
    rw [chars, one] at two
    simp at two
    omega
  unfold find
  rw [stands, Path.namesOf_name (isName_of_suffix noSlash suffix)]
  simp only [Bool.not_true, Bool.false_eq_true, if_false, List.any_cons, noStars, Bool.and_false,
    List.any_nil, Bool.or_self]
  rfl

/-- An id makes no pattern, or one that finds nothing, or one that finds the first of the names that
it takes; which of these it is does not depend on the folder. -/
theorem find_by_pattern (id : String) :
    (∀ h : History, h.tree.isFolder h.folder = true → h.find id = .error (.badValue starsMessage)) ∨
    (∀ h : History, h.tree.isFolder h.folder = true → h.find id = .ok none) ∨
    ∃ pattern, ∀ h : History, h.tree.isFolder h.folder = true →
      h.find id = .ok (first (h.names pattern)) := by
  unfold find
  by_cases stars : (Path.namesOf ("*_" ++ id ++ ".json")).any fun p =>
      p != "**" && Text.contains ['*', '*'] p.toList
  · refine .inl fun h stands => ?_
    simp [stands, stars]
  · by_cases single : ∃ pattern, Path.namesOf ("*_" ++ id ++ ".json") = [pattern]
    · obtain ⟨pattern, only⟩ := single
      refine .inr (.inr ⟨pattern, fun h stands => ?_⟩)
      rw [only] at stars
      simp [stands, only, stars, first]
    · refine .inr (.inl fun h stands => ?_)
      simp only [stands, Bool.not_true, Bool.false_eq_true, if_false, stars]
      split
      · rename_i only
        exact absurd ⟨_, only⟩ single
      · rfl

/-- What is found is a name in the folder. -/
theorem mem_of_find {id : String} (stands : h.tree.isFolder h.folder = true)
    (found : h.find id = .ok (some n)) : [n] ∈ Entries.keys (h.tree.below h.folder) := by
  obtain failed | none | ⟨pattern, finds⟩ := find_by_pattern id
  · cases (failed h stands).symm.trans found
  · cases (none h stands).symm.trans found
  · rw [finds h stands, Except.ok.injEq, first_eq_some] at found
    exact (mem_names.mp found.1).1

/-- A search for a run fails only where its id makes no pattern. -/
theorem find_eq_error {id : String} {f : Fault} (stands : h.tree.isFolder h.folder = true)
    (failed : h.find id = .error f) : f = .badValue starsMessage := by
  obtain refused | none | ⟨pattern, finds⟩ := find_by_pattern id
  · cases (refused h stands).symm.trans failed
    rfl
  · cases (none h stands).symm.trans failed
  · cases (finds h stands).symm.trans failed

/-! ### Names of new files -/

theorem fileName_toList (r : Record) :
    (fileName r).toList = (stamp r.startTime).toList ++ ending r.id := by
  simp [fileName, ending]

theorem isName_fileName {r : Record} (id : IsId r.id) (time : '/' ∉ r.startTime.toList) :
    Path.IsName (fileName r) := by
  have noSlash : '/' ∉ (stamp r.startTime).toList := by
    rw [stamp, String.toList_ofList]
    intro there
    obtain ⟨c, inside, same⟩ := List.mem_map.mp there
    split at same
    · cases same
    · split at same
      · cases same
      · exact time (same ▸ inside)
  refine isName_of_suffix ?_ ?_
  · rw [fileName_toList, List.mem_append]
    rintro (there | there)
    · exact noSlash there
    · simp [ending, id.noSlash] at there
  · rw [fileName_toList]
    exact (suffix_ending r.id).trans (List.suffix_append _ _)

/-! ### A file written in the folder -/

/-- A history with a file written in its folder. -/
def wrote (h : History) (n : String) (content : List UInt8) : History :=
  { h with tree := ⟨Entries.insert (h.folder ++ [n]) (.file content) h.tree.items⟩ }

section Wrote
variable {content : List UInt8}

theorem below_wrote : (h.wrote n content).tree.below h.folder =
    Entries.insert [n] (.file content) (h.tree.below h.folder) :=
  FileTree.below_write (List.cons_ne_nil n []) _

theorem stands_wrote (stands : h.tree.isFolder h.folder = true) :
    (h.wrote n content).tree.isFolder h.folder = true := by
  rw [FileTree.isFolder_iff] at stands ⊢
  rw [← stands]
  exact FileTree.item?_insert_of_ne _ (by simp)

theorem item?_wrote_self :
    (h.wrote n content).tree.item? (h.folder ++ [n]) = some (.file content) :=
  FileTree.item?_insert_self _ (by simp)

theorem item?_wrote_of_ne {m : String} (other : m ≠ n) :
    (h.wrote n content).tree.item? (h.folder ++ [m]) = h.tree.item? (h.folder ++ [m]) :=
  FileTree.item?_insert_of_ne _ (by simpa using other)

theorem mem_names_wrote {pattern m : String} :
    m ∈ (h.wrote n content).names pattern ↔
      m ∈ h.names pattern ∨ m = n ∧ Glob.isMatch pattern n = true := by
  have keys : [m] ∈ Entries.keys ((h.wrote n content).tree.below h.folder) ↔
      m = n ∨ [m] ∈ Entries.keys (h.tree.below h.folder) := by
    rw [below_wrote, Entries.mem_keys_insert, List.cons_eq_cons, and_iff_left rfl]
  rw [mem_names, mem_names]
  show [m] ∈ Entries.keys ((h.wrote n content).tree.below h.folder) ∧ _ ↔ _
  rw [keys]
  constructor
  · rintro ⟨rfl | there, takes⟩
    · exact .inr ⟨rfl, takes⟩
    · exact .inl ⟨there, takes⟩
  · rintro (⟨there, takes⟩ | ⟨rfl, takes⟩)
    · exact ⟨.inr there, takes⟩
    · exact ⟨.inl rfl, takes⟩

/-- A search finds the file that was written or what it found before. -/
theorem find_wrote (stands : h.tree.isFolder h.folder = true) (id : String) :
    (h.wrote n content).find id = h.find id ∨ (h.wrote n content).find id = .ok (some n) := by
  have stands' : (h.wrote n content).tree.isFolder h.folder = true := stands_wrote stands
  obtain refused | none | ⟨pattern, finds⟩ := find_by_pattern id
  · exact .inl ((refused _ stands').trans (refused h stands).symm)
  · exact .inl ((none _ stands').trans (none h stands).symm)
  · have more (m : String) : m ∈ (h.wrote n content).names pattern ↔
        m ∈ h.names pattern ∨ m = n ∧ Glob.isMatch pattern n = true := mem_names_wrote
    rw [finds _ stands', finds h stands]
    rcases first_more more with same | new
    · exact .inl (congrArg Except.ok same)
    · exact .inr (congrArg Except.ok new)

end Wrote

end Runbook.History
