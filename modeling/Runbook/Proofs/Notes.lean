import Runbook.Listing
import Runbook.Notes
import Runbook.Proofs.Entries
import Runbook.Proofs.Number.Numeral
import Runbook.Proofs.Text.Case

/-! Folders, tags and ages as a filter of notes gives them.

A folder stands for what lies in it, with or without slashes at its end (`inFolder_iff`), a list of
tags for the tags with their hash signs (`mem_tags`), and an age for seconds (`seconds_eq`). An age
is told whatever the case of its unit, and with other letters for an i that are one without case:
but those the table of units does not know, so that such an age is refused where other texts that
are no age are passed over. -/
namespace Runbook

/-! ### The last place of a character -/

namespace Text

theorem cutAtLast_append {sep : Char} {after : List Char} (before : List Char) (h : sep ∉ after) :
    cutAtLast sep (before ++ sep :: after) = some (before, after) := by
  have back : (before ++ sep :: after).reverse = after.reverse ++ sep :: before.reverse := by simp
  rw [cutAtLast, back, cutAt_append (by simpa using h)]
  simp

theorem cutAtLast_eq_some {sep : Char} {cs before after : List Char}
    (h : cutAtLast sep cs = some (before, after)) : cs = before ++ sep :: after ∧ sep ∉ after := by
  rw [cutAtLast] at h
  rcases cut : cutAt sep cs.reverse with ⟨front, _ | rest⟩ <;> rw [cut] at h <;> cases h
  obtain ⟨whole, absent⟩ := cutAt_eq_some cut
  refine ⟨?_, by simpa using absent⟩
  have back := congrArg List.reverse whole
  simpa using back

end Text

namespace Notes

/-! ### Folders -/

/-- A folder as it is written, without the slashes at its end. -/
structure Bare (folder : String) (base : List Char) : Prop where
  written : ∃ slashes, folder.toList = base ++ List.replicate slashes '/'
  bare : ∀ c ∈ base.getLast?, c ≠ '/'

theorem bare_iff {s : String} {base : List Char} : Bare s base ↔ base = (folder s).toList := by
  have kept : (folder s).toList = (s.toList.reverse.dropWhile (· == '/')).reverse :=
    String.toList_ofList
  rw [kept]
  constructor
  · rintro ⟨⟨slashes, whole⟩, bare⟩
    have solid : base.reverse.dropWhile (· == '/') = base.reverse := by
      cases back : base.reverse with
      | nil => rfl
      | cons c cs =>
        have last : c ∈ base.getLast? := by rw [← List.head?_reverse, back]; rfl
        exact List.dropWhile_cons_of_neg (by simpa using bare c last)
    have dropped : (List.replicate slashes '/').dropWhile (· == '/') = [] := by simp
    rw [whole, List.reverse_append, List.reverse_replicate, List.dropWhile_append, dropped, solid]
    simp
  · rintro rfl
    have cut := List.takeWhile_append_dropWhile (p := (· == '/')) (l := s.toList.reverse)
    have slashes : s.toList.reverse.takeWhile (· == '/') =
        List.replicate (s.toList.reverse.takeWhile (· == '/')).length '/' := by
      refine List.eq_replicate_iff.mpr ⟨rfl, fun c there => ?_⟩
      exact eq_of_beq (List.all_eq_true.mp List.all_takeWhile c there)
    constructor
    · refine ⟨(s.toList.reverse.takeWhile (· == '/')).length, ?_⟩
      rw [← List.reverse_replicate, ← slashes, ← List.reverse_append, cut, List.reverse_reverse]
    · intro c last
      rw [List.getLast?_reverse] at last
      have other := List.head?_dropWhile_not (· == '/') s.toList.reverse
      rw [last] at other
      simpa using other

/-- A path that lies in a folder; below the folder at any depth counts its own note too. -/
def LiesIn (folder path : String) (recursive : Bool) : Prop :=
  ∃ base, Bare folder base ∧
    if recursive then (∃ rest, path.toList = base ++ '/' :: rest) ∨
      path.toList = base ++ ".md".toList
    else ∃ name, '/' ∉ name ∧ path.toList = base ++ '/' :: name

theorem startsWith_iff (path : String) (base : String) :
    path.startsWith (base ++ "/") = true ↔ ∃ rest, path.toList = base.toList ++ '/' :: rest := by
  rw [String.startsWith_string_iff, String.toList_append]
  constructor
  · rintro ⟨rest, whole⟩
    exact ⟨rest, by rw [← whole]; simp⟩
  · rintro ⟨rest, whole⟩
    exact ⟨rest, by rw [whole]; simp⟩

theorem inFolder_iff (path folderPath : String) (recursive : Bool) :
    inFolder path folderPath recursive = true ↔ LiesIn folderPath path recursive := by
  unfold inFolder LiesIn
  simp only [bare_iff, exists_eq_left]
  cases recursive with
  | true =>
    simp only [if_true, Bool.or_eq_true, startsWith_iff, beq_iff_eq]
    rw [← String.toList_inj, String.toList_append]
  | false =>
    simp only [Bool.false_eq_true, if_false]
    constructor
    · intro h
      rcases cut : Text.cutAtLast '/' path.toList with _ | ⟨parent, name⟩ <;> rw [cut] at h
      · cases h
      · obtain ⟨whole, absent⟩ := Text.cutAtLast_eq_some cut
        have same : String.ofList parent = folder folderPath := eq_of_beq h
        exact ⟨name, absent, by rw [whole, ← same, String.toList_ofList]⟩
    · rintro ⟨name, absent, whole⟩
      rw [whole, Text.cutAtLast_append _ absent]
      simp

/-! ### Tags -/

/-- A tag that a list asks for: an entry of it, which may lack the hash sign. -/
def Asked (list tag : String) : Prop :=
  ∃ entry ∈ Listing.items list, tag ≠ "#" ∧
    (entry.startsWith "#" = true ∧ tag = entry ∨ entry.startsWith "#" = false ∧ tag = "#" ++ entry)

/-- Of the texts that start with a hash sign, only the sign alone is no longer than it. -/
theorem one_lt_length {tag : String} (hashed : tag.startsWith "#" = true) :
    1 < tag.length ↔ tag ≠ "#" := by
  rw [String.startsWith_string_iff] at hashed
  obtain ⟨rest, whole⟩ := hashed
  rw [← String.length_toList, ← whole, ne_eq, ← String.toList_inj, ← whole]
  cases rest <;> simp

theorem mem_tags (list tag : String) : tag ∈ Listing.tags list ↔ Asked list tag := by
  unfold Listing.tags Asked
  rw [List.mem_filterMap]
  refine exists_congr fun entry => and_congr_right fun _ => ?_
  dsimp only
  cases hash : entry.startsWith "#" with
  | true =>
    rw [if_pos rfl]
    constructor
    · intro h
      obtain ⟨long, same⟩ := Option.ite_none_right_eq_some.mp h
      cases same
      exact ⟨(one_lt_length hash).mp long, .inl ⟨rfl, rfl⟩⟩
    · rintro ⟨other, ⟨-, rfl⟩ | ⟨h, -⟩⟩
      · rw [if_pos ((one_lt_length hash).mpr other)]
      · cases h
  | false =>
    rw [if_neg Bool.false_ne_true]
    have hashed : ("#" ++ entry).startsWith "#" = true := by
      rw [String.startsWith_string_iff, String.toList_append]
      exact List.prefix_append ..
    constructor
    · intro h
      obtain ⟨long, same⟩ := Option.ite_none_right_eq_some.mp h
      cases same
      exact ⟨(one_lt_length hashed).mp long, .inr ⟨rfl, rfl⟩⟩
    · rintro ⟨other, ⟨h, -⟩ | ⟨-, rfl⟩⟩
      · cases h
      · rw [if_pos ((one_lt_length hashed).mpr other)]

/-! ### Ages -/

/-- The name of a unit of so many seconds, in the singular, whatever its case. -/
def Names (name : List Char) (unit : Nat) : Prop :=
  ∃ word, (word, unit) ∈ units ∧ word.toList = name.map fold

/-- What may stand behind the name of a unit. -/
def Plural (cs : List Char) : Prop := cs = [] ∨ ∃ c, fold c = 's' ∧ cs = [c]

/-- An age: digits, and behind blanks the name of a unit. -/
structure Age (s : String) (digits name : List Char) (unit : Nat) : Prop where
  digits_eq : (Text.trim s.toList).takeWhile Text.isDecimal = digits
  some_digits : digits ≠ []
  rest : ∃ gap plural, (Text.trim s.toList).dropWhile Text.isDecimal = gap ++ (name ++ plural) ∧
    Text.blank gap = true ∧ Plural plural
  names : Names name unit

/-- An age whose unit is written with the letters that the units are known by, and whose digits are
not too many for a number. -/
def Age.Known (digits name : List Char) : Prop :=
  digits.length ≤ digitLimit ∧ 'ı' ∉ name ∧ 'İ' ∉ name

/-- The letters that names of units have. -/
def unitLetters : List Char := "minhourday".toList

theorem mem_unitLetters {name : List Char} {unit : Nat} (names : Names name unit) :
    ∀ c ∈ name, fold c ∈ unitLetters := by
  obtain ⟨word, there, same⟩ := names
  have letters : (units.all fun e => e.1.toList.all (· ∈ unitLetters)) = true := by decide
  intro c within
  have letter := List.all_eq_true.mp (List.all_eq_true.mp letters _ there) (fold c)
  exact of_decide_eq_true (letter (same ▸ List.mem_map_of_mem within))

theorem names_ne_nil {name : List Char} {unit : Nat} (names : Names name unit) : name ≠ [] := by
  obtain ⟨word, there, same⟩ := names
  have some_word : ∀ e ∈ units, e.1.toList ≠ [] := by decide
  rintro rfl
  exact some_word _ there same

theorem isBlank_of_mem_unitLetters {c : Char} (h : fold c ∈ unitLetters) :
    Text.isBlank c = false := by
  by_contra blank
  have none : ∀ n ∈ Text.blanks, fold (Char.ofNat n) ∉ unitLetters := by decide
  exact Text.forall_isBlank (P := fun c => fold c ∉ unitLetters) none
    (Bool.not_eq_false _ ▸ blank) h

/-- A name of a unit and an s behind it is no name of a unit. -/
theorem not_names_concat {name : List Char} {c : Char} (plural : fold c = 's') (unit : Nat) :
    ¬ Names (name ++ [c]) unit := by
  intro names
  have letter := mem_unitLetters names c (by simp)
  rw [plural] at letter
  exact absurd letter (by decide)

theorem any_units (cs : List Char) :
    (units.any fun (name, _) => name.toList == List.map fold cs) = true ↔
      ∃ unit, Names cs unit := by
  rw [List.any_eq_true]
  constructor
  · rintro ⟨⟨word, unit⟩, there, same⟩
    exact ⟨unit, word, there, eq_of_beq same⟩
  · rintro ⟨unit, word, there, same⟩
    exact ⟨(word, unit), there, by simpa using same⟩

theorem unitName?_eq_some {cs name : List Char} :
    unitName? cs = some name ↔
      ∃ plural, cs = name ++ plural ∧ Plural plural ∧ ∃ unit, Names name unit := by
  unfold unitName?
  dsimp only
  by_cases whole : ∃ unit, Names cs unit
  · rw [if_pos ((any_units cs).mpr whole)]
    constructor
    · rintro ⟨⟩
      exact ⟨[], (List.append_nil _).symm, .inl rfl, whole⟩
    · rintro ⟨plural, rfl, rfl | ⟨c, isS, rfl⟩, -⟩
      · rw [List.append_nil]
      · obtain ⟨unit, names⟩ := whole
        exact absurd names (not_names_concat isS unit)
  · rw [if_neg (mt (any_units cs).mp whole)]
    constructor
    · intro h
      cases back : cs.reverse with
      | nil =>
        rw [back] at h
        cases h
      | cons last front =>
        rw [back] at h
        obtain ⟨both, same⟩ := Option.ite_none_right_eq_some.mp h
        cases same
        obtain ⟨isS, named⟩ := Bool.and_eq_true_iff.mp both
        refine ⟨[last], ?_, .inr ⟨last, of_decide_eq_true isS, rfl⟩, (any_units _).mp named⟩
        have forth := congrArg List.reverse back
        simpa using forth
    · rintro ⟨plural, rfl, rfl | ⟨c, isS, rfl⟩, names⟩
      · exact absurd (by simpa using names) whole
      · have back : (name ++ [c]).reverse = c :: name.reverse := by simp
        rw [back]
        dsimp only
        rw [List.reverse_reverse]
        exact if_pos (Bool.and_eq_true_iff.mpr ⟨decide_eq_true isS, (any_units name).mpr names⟩)

/-- Small letters and folded ones are the same for the letters of a known unit. -/
theorem lower_eq_fold {name : List Char} {unit : Nat} (names : Names name unit)
    (plain : 'ı' ∉ name ∧ 'İ' ∉ name) : Text.lower name = name.map fold := by
  have letters := mem_unitLetters names
  have apart {c : Char} (other : fold c ∉ unitLetters) : c ∉ name :=
    fun within => other (letters c within)
  have sigma : 'Σ' ∉ name := apart (by decide)
  have long : 'ſ' ∉ name := apart (by decide)
  have single {c : Char} (within : c ∈ name) : Text.lowerChar c = [fold c] := by
    have here (d : Char) (absent : d ∉ name) : c ≠ d := fun same => absent (same ▸ within)
    have one := Text.length_lowerChar (here _ plain.2)
    obtain ⟨d, only⟩ := List.length_eq_one_iff.mp one
    simp only [fold, here _ plain.1, here _ plain.2, here _ long, only, decide_false,
      Bool.or_self, Bool.false_eq_true, if_false]
  rw [Text.lower_plain sigma, List.map_eq_flatMap]
  exact List.flatMap_congr fun c within => single within

/-- An i that is one only without case stays in the small letters, where no unit is known by it. -/
theorem lower_unknown {name : List Char} {unit : Nat} (names : Names name unit)
    (dotted : ¬ ('ı' ∉ name ∧ 'İ' ∉ name)) :
    Entries.get? (String.ofList (Text.lower name)) units = none := by
  have sigma : 'Σ' ∉ name := fun within =>
    absurd (mem_unitLetters names _ within) (by decide)
  have unknown : ∀ key ∈ Entries.keys units, 'ı' ∉ key.toList ∧ '\u0307' ∉ key.toList := by
    decide
  refine Entries.get?_eq_none.mpr fun known => ?_
  have apart := unknown _ known
  rw [String.toList_ofList, Text.lower_plain sigma] at apart
  refine dotted ⟨fun within => apart.1 ?_, fun within => apart.2 ?_⟩
  · exact List.mem_flatMap.mpr ⟨_, within, by decide⟩
  · exact List.mem_flatMap.mpr ⟨_, within, by rw [Text.lowerChar_dotted]; decide⟩

/-- The rest of an age behind its digits. -/
theorem Age.unitName? {s : String} {digits name : List Char} {unit : Nat}
    (age : Age s digits name unit) :
    Notes.unitName? (Text.trimStart ((Text.trim s.toList).dropWhile Text.isDecimal)) =
      some name := by
  obtain ⟨gap, plural, rest, blank, isPlural⟩ := age.rest
  obtain ⟨c, cs, rfl⟩ := List.exists_cons_of_ne_nil (names_ne_nil age.names)
  have solid := isBlank_of_mem_unitLetters (mem_unitLetters age.names c List.mem_cons_self)
  rw [rest, List.cons_append, Text.trimStart_append blank solid]
  exact unitName?_eq_some.mpr ⟨plural, rfl, isPlural, unit, age.names⟩

theorem get?_names {name : List Char} {unit : Nat} (names : Names name unit) :
    Entries.get? (String.ofList (name.map fold)) units = some unit := by
  obtain ⟨word, there, same⟩ := names
  rw [← same, String.ofList_toList]
  exact Entries.get?_of_mem (by decide) there

/-- An age is read as its number of units, if its digits are not too many and its unit is written
with the letters that units are known by; else it is refused. -/
theorem seconds_eq {s : String} {digits name : List Char} {unit : Nat}
    (age : Age s digits name unit) :
    (Age.Known digits name →
        seconds s = .ok (some (Number.ofDigits (digits.filterMap Text.decimal?) * unit))) ∧
      (¬ Age.Known digits name → ∃ f, seconds s = .error f) := by
  have values : (digits.filterMap Text.decimal?).length = digits.length :=
    Number.length_filterMap_decimal? (by
      rw [← age.digits_eq]
      exact List.all_eq_true.mp List.all_takeWhile)
  obtain ⟨d, ds, some_values⟩ : ∃ d ds, digits.filterMap Text.decimal? = d :: ds :=
    List.exists_cons_of_ne_nil fun none => age.some_digits (List.length_eq_zero_iff.mp (by
      rw [← values, none]; rfl))
  unfold seconds
  rw [Number.takeDigits_eq, age.digits_eq, some_values]
  simp only [age.unitName?]
  rw [← some_values, values]
  constructor
  · rintro ⟨few, plain⟩
    rw [if_neg (Nat.not_lt.mpr few), lower_eq_fold age.names plain, get?_names age.names]
  · intro unknown
    by_cases many : digitLimit < digits.length
    · exact ⟨_, if_pos many⟩
    · have dotted := fun plain => unknown ⟨Nat.not_lt.mp many, plain⟩
      rw [if_neg many, lower_unknown age.names dotted]
      exact ⟨_, rfl⟩

/-- A text that is no age is passed over. -/
theorem seconds_none {s : String} (ageless : ¬ ∃ digits name unit, Age s digits name unit) :
    seconds s = .ok none := by
  unfold seconds
  rw [Number.takeDigits_eq]
  cases values : ((Text.trim s.toList).takeWhile Text.isDecimal).filterMap Text.decimal? with
  | nil => rfl
  | cons d ds =>
    cases named : unitName? (Text.trimStart ((Text.trim s.toList).dropWhile Text.isDecimal)) with
    | none => simp only [named]
    | some name =>
      obtain ⟨plural, rest, isPlural, unit, names⟩ := unitName?_eq_some.mp named
      obtain ⟨gap, blank, whole⟩ :=
        Text.exists_trimmed ((Text.trim s.toList).dropWhile Text.isDecimal)
      have age : Age s _ name unit :=
        { digits_eq := rfl
          some_digits := fun none => by
            rw [none] at values
            cases values
          rest := ⟨gap, plural, rest ▸ whole, List.all_eq_true.mpr blank, isPlural⟩
          names }
      exact absurd ⟨_, name, unit, age⟩ ageless

/-- The seconds of an age. -/
def Lasts (s : String) (n : Nat) : Prop :=
  ∃ digits name unit, Age s digits name unit ∧
    n = Number.ofDigits (digits.filterMap Text.decimal?) * unit

/-- A text that is no age, or one that can be read. -/
def Readable (s : String) : Prop :=
  ∀ {digits name : List Char} {unit : Nat}, Age s digits name unit → Age.Known digits name

/-- A short text without a special i is no age that is refused. -/
theorem readable_of_plain {s : String} (short : (Text.trim s.toList).length ≤ digitLimit)
    (plain : 'ı' ∉ Text.trim s.toList ∧ 'İ' ∉ Text.trim s.toList) : Readable s := by
  intro digits name unit age
  obtain ⟨gap, plural, rest, -, -⟩ := age.rest
  have within {c : Char} (there : c ∈ name) : c ∈ Text.trim s.toList := by
    refine (List.dropWhile_sublist Text.isDecimal).subset ?_
    rw [rest]
    simp [there]
  refine ⟨?_, fun there => plain.1 (within there), fun there => plain.2 (within there)⟩
  rw [← age.digits_eq]
  exact (List.takeWhile_sublist Text.isDecimal).length_le.trans short

theorem exists_seconds {s : String} (readable : Readable s) :
    ∃ age, seconds s = .ok age ∧ ∀ n, age = some n ↔ Lasts s n := by
  by_cases told : ∃ digits name unit, Age s digits name unit
  · obtain ⟨digits, name, unit, age⟩ := told
    have read := (seconds_eq age).1 (readable age)
    refine ⟨_, read, fun n => ⟨fun same => ?_, ?_⟩⟩
    · exact ⟨digits, name, unit, age, (Option.some.inj same).symm⟩
    · rintro ⟨_, _, _, other, rfl⟩
      exact Except.ok.inj (read.symm.trans ((seconds_eq other).1 (readable other)))
  · refine ⟨none, seconds_none told, fun n => ⟨nofun, ?_⟩⟩
    rintro ⟨digits, name, unit, age, -⟩
    exact absurd ⟨digits, name, unit, age⟩ told

theorem seconds_fails {s : String} (unreadable : ¬ Readable s) : ∃ f, seconds s = .error f := by
  by_contra never
  exact unreadable fun age => by_contra fun unknown => never ((seconds_eq age).2 unknown)

end Notes
end Runbook
