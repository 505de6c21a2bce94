import Runbook.Proofs.Json.Reading
import Runbook.Proofs.Text.Cutting
import Runbook.Text.Word

/-! What is read at the front of a text.

A name or a number is a run of letters, digits, points and signs. It is read the same whatever is
behind the run (`atom_append`), and where the reading stops in front of something else, all that was
read is of the run (`inAtom_of_atom`).

A character in quotes is written plainly or with an escape, and each stands for itself, whatever is
behind it (`exists_of_piece`): only two numbers in a row can stand for one character together, and
`Unpaired` rules the first of them out. -/
namespace Runbook.Json

/-- What names and numbers are made of. -/
def inAtom (c : Char) : Bool :=
  Text.isAsciiLetter c || isAsciiDigit c || c == '.' || c == '+' || c == '-'

/-- What may stand behind a name or a number: nothing that it could be made of. -/
def Stops (rest : List Char) : Prop := ∀ c ∈ rest.head?, inAtom c = false

theorem isAsciiDigit_of_not_inAtom {c : Char} (h : inAtom c = false) : isAsciiDigit c = false := by
  simp only [inAtom, Bool.or_eq_false_iff] at h
  exact h.1.1.1.2

theorem ne_of_inAtom {c d : Char} (other : inAtom c = false) (h : inAtom d = true) : c ≠ d := by
  intro same
  rw [same, h] at other
  cases other

/-! ### Digits, fractions and powers of ten -/

section
variable {rest : List Char}

theorem takeWhile_stops (stops : Stops rest) (a : List Char) :
    (a ++ rest).takeWhile isAsciiDigit = a.takeWhile isAsciiDigit ∧
      (a ++ rest).dropWhile isAsciiDigit = a.dropWhile isAsciiDigit ++ rest := by
  induction a with
  | nil =>
    cases rest with
    | nil => exact ⟨rfl, rfl⟩
    | cons c rest =>
      have other : ¬ isAsciiDigit c = true := by simp [isAsciiDigit_of_not_inAtom (stops c rfl)]
      exact ⟨List.takeWhile_cons_of_neg other, List.dropWhile_cons_of_neg other⟩
  | cons c a ih =>
    by_cases digit : isAsciiDigit c = true
    · simp [digit, ih]
    · simp [digit]

theorem fraction_stops (stops : Stops rest) (a : List Char) :
    fraction (a ++ rest) = ((fraction a).1, (fraction a).2 ++ rest) := by
  have plain {c : Char} (other : c ≠ '.') (cs : List Char) : fraction (c :: cs) = ([], c :: cs) := by
    unfold fraction
    split
    · rename_i same
      exact absurd (List.cons.inj same).1 other
    · rfl
  cases a with
  | nil =>
    cases rest with
    | nil => rfl
    | cons c rest => exact plain (ne_of_inAtom (stops c rfl) rfl) rest
  | cons c a =>
    by_cases point : c = '.'
    · obtain ⟨taken, left⟩ := takeWhile_stops stops a
      rw [point, List.cons_append, fraction, fraction, taken, left]
      cases a.takeWhile isAsciiDigit <;> rfl
    · rw [List.cons_append, plain point, plain point, List.cons_append]

/-- The sign of a power of ten, if there is one, and what is behind it. -/
def powerSign : List Char → Bool × List Char
  | '-' :: rest => (true, rest)
  | '+' :: rest => (false, rest)
  | rest => (false, rest)

theorem powerSign_stops (stops : Stops rest) (a : List Char) :
    powerSign (a ++ rest) = ((powerSign a).1, (powerSign a).2 ++ rest) := by
  have plain {c : Char} (minus : c ≠ '-') (plus : c ≠ '+') (cs : List Char) :
      powerSign (c :: cs) = (false, c :: cs) := by
    unfold powerSign
    split
    · rename_i same
      exact absurd (List.cons.inj same).1 minus
    · rename_i same
      exact absurd (List.cons.inj same).1 plus
    · rfl
  cases a with
  | nil =>
    cases rest with
    | nil => rfl
    | cons c rest =>
      exact plain (ne_of_inAtom (stops c rfl) rfl) (ne_of_inAtom (stops c rfl) rfl) rest
  | cons c a =>
    by_cases minus : c = '-'
    · rw [minus]
      rfl
    · by_cases plus : c = '+'
      · rw [plus]
        rfl
      · rw [List.cons_append, plain minus plus, plain minus plus, List.cons_append]

theorem power_cons {e : Char} (h : e = 'e' ∨ e = 'E') (cs : List Char) :
    power (e :: cs) =
      match (powerSign cs).2.takeWhile isAsciiDigit with
      | [] => (none, e :: cs)
      | ds => (some ((powerSign cs).1, ds), (powerSign cs).2.dropWhile isAsciiDigit) := by
  obtain rfl | rfl := h <;> rfl

theorem power_stops (stops : Stops rest) (a : List Char) :
    power (a ++ rest) = ((power a).1, (power a).2 ++ rest) := by
  have plain {c : Char} (other : ¬ (c = 'e' ∨ c = 'E')) (cs : List Char) :
      power (c :: cs) = (none, c :: cs) := by
    unfold power
    exact if_neg (by simpa using other)
  cases a with
  | nil =>
    cases rest with
    | nil => rfl
    | cons c rest =>
      refine plain (fun mark => ?_) rest
      rcases mark with rfl | rfl <;> cases stops _ rfl
  | cons c a =>
    by_cases mark : c = 'e' ∨ c = 'E'
    · rw [List.cons_append, power_cons mark, power_cons mark, powerSign_stops stops]
      obtain ⟨taken, left⟩ := takeWhile_stops stops (powerSign a).2
      rw [taken, left]
      cases (powerSign a).2.takeWhile isAsciiDigit <;> rfl
    · rw [List.cons_append, plain mark, plain mark, List.cons_append]

/-! ### Numbers -/

/-- The whole digits of a number. -/
def wholeDigits (cs : List Char) : List Char :=
  match cs with
  | '0' :: _ => ['0']
  | _ => cs.takeWhile isAsciiDigit

theorem wholeDigits_stops (stops : Stops rest) (a : List Char) :
    wholeDigits (a ++ rest) = wholeDigits a := by
  have plain {c : Char} (other : c ≠ '0') (cs : List Char) :
      wholeDigits (c :: cs) = (c :: cs).takeWhile isAsciiDigit := by
    unfold wholeDigits
    split
    · rename_i same
      exact absurd (List.cons.inj same).1 other
    · rfl
  cases a with
  | nil =>
    cases rest with
    | nil => rfl
    | cons c rest =>
      rw [List.nil_append, plain (ne_of_inAtom (stops c rfl) rfl)]
      exact List.takeWhile_cons_of_neg (by simp [isAsciiDigit_of_not_inAtom (stops c rfl)])
  | cons c a =>
    by_cases zero : c = '0'
    · rw [zero]
      rfl
    · rw [List.cons_append, plain zero, plain zero]
      exact (takeWhile_stops stops (c :: a)).1

theorem length_wholeDigits_le (cs : List Char) : (wholeDigits cs).length ≤ cs.length := by
  unfold wholeDigits
  split
  · simp
  · exact (List.takeWhile_prefix _).length_le

/-- A number is read the same whatever stops it. -/
theorem unsigned_stops (stops : Stops rest) (negative : Bool) (a : List Char) :
    unsigned negative (a ++ rest) = (unsigned negative a).map fun r => (r.1, r.2 ++ rest) := by
  have whole : wholeDigits (a ++ rest) = wholeDigits a := wholeDigits_stops stops a
  have drop : (a ++ rest).drop (wholeDigits a).length = a.drop (wholeDigits a).length ++ rest :=
    List.drop_append_of_le_length (length_wholeDigits_le a)
  unfold unsigned
  extract_lets here n there m
  have here_eq : here = wholeDigits a := whole
  have there_eq : there = wholeDigits a := rfl
  have n_eq : n = digitsValue here := rfl
  have m_eq : m = digitsValue there := rfl
  clear_value n m here there
  rw [n_eq, m_eq, here_eq, there_eq]
  by_cases none : wholeDigits a = []
  · rw [if_pos none, if_pos none]
    rfl
  · rw [if_neg none, if_neg none, drop, fraction_stops stops]
    dsimp only
    rw [power_stops stops]
    dsimp only
    cases (fraction (a.drop (wholeDigits a).length)).1 with
    | cons d ds => rfl
    | nil =>
      cases (power (fraction (a.drop (wholeDigits a).length)).2).1 with
      | some p => rfl
      | none =>
        dsimp only
        split <;> rfl

/-! ### Names and numbers -/

theorem inAtom_of_named {name : String} {v : Value} (h : (name, v) ∈ named) :
    ∀ c ∈ name.toList, inAtom c = true := by
  simp only [named, List.mem_cons, Prod.mk.injEq, List.not_mem_nil, or_false] at h
  rcases h with ⟨rfl, -⟩ | ⟨rfl, -⟩ | ⟨rfl, -⟩ | ⟨rfl, -⟩ | ⟨rfl, -⟩ | ⟨rfl, -⟩ <;>
    exact List.all_eq_true.mp rfl

theorem after?_stops (stops : Stops rest) {name : List Char} (inside : ∀ c ∈ name, inAtom c = true)
    (a : List Char) : Text.after? name (a ++ rest) = (Text.after? name a).map (· ++ rest) := by
  induction name generalizing a with
  | nil => rfl
  | cons w name ih =>
    obtain ⟨here, behind⟩ := List.forall_mem_cons.mp inside
    cases a with
    | nil =>
      cases rest with
      | nil => rfl
      | cons c rest => exact if_neg (ne_of_inAtom (stops c rfl) here).symm
    | cons c a =>
      rw [List.cons_append, Text.after?, Text.after?]
      split
      · exact ih behind a
      · rfl

/-- A number with its sign. -/
def number? (cs : List Char) : Option (Except Failure Value × List Char) :=
  match cs with
  | '-' :: rest => unsigned true rest
  | _ => unsigned false cs

theorem number?_stops (stops : Stops rest) (a : List Char) :
    number? (a ++ rest) = (number? a).map fun r => (r.1, r.2 ++ rest) := by
  have plain {c : Char} (other : c ≠ '-') (cs : List Char) :
      number? (c :: cs) = unsigned false (c :: cs) := by
    unfold number?
    split
    · rename_i same
      exact absurd (List.cons.inj same).1 other
    · rfl
  cases a with
  | nil =>
    cases rest with
    | nil => rfl
    | cons c rest =>
      rw [List.nil_append, plain (ne_of_inAtom (stops c rfl) rfl)]
      exact unsigned_stops stops false []
  | cons c a =>
    by_cases minus : c = '-'
    · rw [minus]
      exact unsigned_stops stops true a
    · rw [List.cons_append, plain minus, plain minus]
      exact unsigned_stops stops false (c :: a)

/-- The value of a name at the front of a text. -/
def name? (cs : List Char) : Option (Value × List Char) :=
  named.findSome? fun (name, v) => (Text.after? name.toList cs).map (v, ·)

theorem name?_stops (stops : Stops rest) (a : List Char) :
    name? (a ++ rest) = (name? a).map fun r => (r.1, r.2 ++ rest) := by
  refine Text.findSome?_eq_map fun (name, v) listed => ?_
  dsimp only
  rw [after?_stops stops (inAtom_of_named listed), Option.map_map, Option.map_map]
  rfl

theorem atom_eq_ok {cs b : List Char} {v : Value} :
    atom cs = .ok (v, b) ↔
      name? cs = some (v, b) ∨ name? cs = none ∧ number? cs = some (.ok v, b) := by
  unfold atom
  split
  · rename_i r found
    have name : name? cs = some r := found
    simp [name]
  · rename_i unnamed
    have name : name? cs = none := unnamed
    dsimp only
    split
    · rename_i w rest came
      have number : number? cs = some (.ok w, rest) := came
      simp [name, number]
    · rename_i f rest came
      have number : number? cs = some (.error f, rest) := came
      simp [name, number]
    · rename_i came
      have number : number? cs = none := came
      simp [name, number, failAt]

/-- A name or a number is read the same whatever stops it. -/
theorem atom_append (stops : Stops rest) {a b : List Char} {v : Value}
    (read : atom a = .ok (v, b)) : atom (a ++ rest) = .ok (v, b ++ rest) := by
  rw [atom_eq_ok] at read
  rw [atom_eq_ok, name?_stops stops, number?_stops stops]
  rcases read with named | ⟨unnamed, number⟩
  · exact .inl (by rw [named]; rfl)
  · exact .inr ⟨by rw [unnamed]; rfl, by rw [number]; rfl⟩

/-- Where reading goes on behind a stop, it has not read beyond it. -/
theorem exists_of_atom (stops : Stops rest) {a c : List Char} {v : Value}
    (read : atom (a ++ rest) = .ok (v, c)) : ∃ b, c = b ++ rest ∧ atom a = .ok (v, b) := by
  rw [atom_eq_ok, name?_stops stops, number?_stops stops] at read
  rcases read with named | ⟨unnamed, number⟩
  · obtain ⟨⟨w, b⟩, found, same⟩ := Option.map_eq_some_iff.mp named
    cases same
    exact ⟨b, rfl, atom_eq_ok.mpr (.inl found)⟩
  · obtain ⟨⟨r, b⟩, found, same⟩ := Option.map_eq_some_iff.mp number
    cases same
    exact ⟨b, rfl, atom_eq_ok.mpr (.inr ⟨Option.map_eq_none_iff.mp unnamed, found⟩)⟩

/-- All that is read up to a stop is of the name or the number. -/
theorem inAtom_of_atom {a : List Char} {v : Value}
    (read : atom (a ++ rest) = .ok (v, rest)) : ∀ c ∈ a, inAtom c = true := by
  intro c there
  by_contra other
  obtain ⟨front, behind, rfl⟩ := List.append_of_mem there
  have stops_here : Stops (c :: (behind ++ rest)) := by
    intro d first
    cases first
    exact Bool.eq_false_iff.mpr other
  rw [List.append_assoc, List.cons_append] at read
  obtain ⟨b, same, -⟩ := exists_of_atom stops_here read
  have lengths := congrArg List.length same
  simp only [List.length_append, List.length_cons] at lengths
  omega

end

/-! ### Numbers behind a backslash -/

/-- The numbers that characters are given by in data text, from the left. -/
def codes : List Char → List Nat
  | [] => []
  | '\\' :: 'u' :: rest => ((fourHex? rest).map (·.1)).toList ++ codes rest
  | '\\' :: _ :: rest => codes rest
  | _ :: rest => codes rest

/-- Whether no number begins a pair. -/
def Unpaired (cs : List Char) : Prop := ∀ n ∈ codes cs, isHighHalf n = false

instance (cs : List Char) : Decidable (Unpaired cs) := inferInstanceAs (Decidable (∀ n ∈ _, _))

theorem codes_cons {c : Char} (other : c ≠ '\\') (cs : List Char) : codes (c :: cs) = codes cs := by
  rw [codes]
  · intro _ same
    exact absurd same other
  · intro _ _ same
    exact absurd same other

theorem codes_append {a : List Char} (plain : '\\' ∉ a) (cs : List Char) :
    codes (a ++ cs) = codes cs := by
  induction a with
  | nil => rfl
  | cons c a ih =>
    obtain ⟨here, behind⟩ := List.ne_and_not_mem_of_not_mem_cons plain
    rw [List.cons_append, codes_cons here.symm, ih behind]

theorem Unpaired.append {a cs : List Char} (h : Unpaired (a ++ cs)) (plain : '\\' ∉ a) :
    Unpaired cs := by
  rwa [Unpaired, codes_append plain] at h

theorem fourHex?_eq_some {cs rest : List Char} {n : Nat} (h : fourHex? cs = some (n, rest)) :
    ∃ ds, cs = ds ++ rest ∧ (∀ d ∈ ds, hexValue? d ≠ none) ∧
      ∀ more, more ≠ [] → fourHex? (ds ++ more) = some (n, more) := by
  unfold fourHex? at h
  split at h
  · rename_i a b c d e behind
    simp only [bind, Option.bind_eq_some_iff, pure, Option.some.injEq, Prod.mk.injEq] at h
    obtain ⟨w, first, x, second, y, third, z, fourth, rfl, rfl⟩ := h
    refine ⟨[a, b, c, d], rfl, by simp [first, second, third, fourth], fun more some_more => ?_⟩
    obtain ⟨m, more, rfl⟩ := List.exists_cons_of_ne_nil some_more
    simp [fourHex?, first, second, third, fourth]
  · cases h

/-! ### Pieces -/

theorem escaped_hex {cs rest : List Char} {n : Nat} (read : fourHex? cs = some (n, rest))
    (single : isHighHalf n = false) (start : Nat) :
    escaped start ('u' :: cs) = .char (unit n) rest := by
  simp [escaped, read, single]

theorem ne_of_shortEscape? {c d e : Char} (short : shortEscape? c = some d)
    (long : shortEscape? e = none) : c ≠ e := by
  rintro rfl
  exact Option.some_ne_none d (short.symm.trans long)

theorem escaped_short {c d : Char} (short : shortEscape? c = some d) (start : Nat)
    (cs : List Char) : escaped start (c :: cs) = .char d cs := by
  rw [escaped]
  · rw [short]
  · exact ne_of_shortEscape? short rfl

/-- An escape stands for its character, whatever is behind it. -/
theorem exists_of_escaped {start : Nat} {cs rest : List Char} {d : Char}
    (unpaired : Unpaired ('\\' :: cs)) (h : escaped start cs = .char d rest) :
    ∃ taken, cs = taken ++ rest ∧ '{' ∉ taken ∧ Unpaired rest ∧
      ∀ start more, more ≠ [] → escaped start (taken ++ more) = .char d more := by
  unfold escaped at h
  split at h
  · cases h
  · rename_i hex
    cases read : fourHex? hex with
    | none =>
      rw [read] at h
      cases h
    | some r =>
      obtain ⟨n, behind⟩ := r
      have single : isHighHalf n = false := unpaired n (by simp [codes, read])
      rw [read] at h
      dsimp only at h
      rw [single] at h
      cases h
      obtain ⟨ds, rfl, digits, again⟩ := fourHex?_eq_some read
      have other {c : Char} (noDigit : hexValue? c = none) : c ∉ ds := fun there =>
        digits c there noDigit
      have all : Unpaired (ds ++ rest) := fun m there => unpaired m (by simp [codes, there])
      exact ⟨'u' :: ds, rfl, List.not_mem_cons_of_ne_of_not_mem (by decide) (other rfl),
        all.append (other rfl),
        fun start more some_more => escaped_hex (again more some_more) single start⟩
  · rename_i c behind noNumber
    split at h
    · rename_i short
      cases h
      refine ⟨[c], rfl, ?_, fun m there => unpaired m ?_, fun start more _ =>
        escaped_short short start more⟩
      · exact mt List.mem_singleton.mp (ne_of_shortEscape? short rfl).symm
      · rw [codes]
        · exact there
        · exact fun same => absurd same (ne_of_shortEscape? short rfl)
    · cases h

/-- A character in quotes stands for itself or for what its escape says, whatever is behind it. -/
theorem exists_of_piece {start : Nat} {cs rest : List Char} {d : Char} (unpaired : Unpaired cs)
    (h : piece start cs = .char d rest) :
    ∃ c taken, cs = c :: (taken ++ rest) ∧ '{' ∉ taken ∧ Unpaired rest ∧
      ∀ start more, more ≠ [] → piece start (c :: (taken ++ more)) = .char d more := by
  unfold piece at h
  split at h
  · cases h
  · cases h
  · obtain ⟨taken, rfl, noBrace, behind, again⟩ := exists_of_escaped unpaired h
    exact ⟨'\\', taken, rfl, noBrace, behind, again⟩
  · rename_i c behind noQuote noBackslash
    by_cases control : c.toNat < 32
    · rw [if_pos control] at h
      cases h
    · rw [if_neg control] at h
      cases h
      refine ⟨d, [], rfl, List.not_mem_nil, ?_, fun start more _ => ?_⟩
      · rwa [Unpaired, codes_cons noBackslash] at unpaired
      · rw [List.nil_append, piece]
        · exact if_neg control
        · exact noQuote
        · exact noBackslash

/-! ### Texts -/

/-- Plain characters come out as they are. -/
theorem textFrom_plain {start fuel : Nat} {acc a cs : List Char} {r : String × List Char}
    (plain : ∀ c ∈ a, c ≠ '"' ∧ c ≠ '\\') (h : textFrom start fuel acc (a ++ cs) = .ok r) :
    ∃ fuel, textFrom start fuel (a.reverse ++ acc) cs = .ok r := by
  induction a generalizing fuel acc with
  | nil => exact ⟨fuel, h⟩
  | cons c a ih =>
    obtain ⟨⟨noQuote, noBackslash⟩, behind⟩ := List.forall_mem_cons.mp plain
    cases fuel with
    | zero => cases h
    | succ fuel =>
      rw [List.cons_append, textFrom, piece] at h
      · by_cases control : c.toNat < 32
        · rw [if_pos control] at h
          cases h
        · rw [if_neg control] at h
          obtain ⟨fuel, read⟩ := ih behind h
          exact ⟨fuel, by simpa using read⟩
      · exact noQuote
      · exact noBackslash

end Runbook.Json
