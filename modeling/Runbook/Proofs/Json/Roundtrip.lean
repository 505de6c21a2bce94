import Runbook.Proofs.Entries
import Runbook.Proofs.Json.Numeral
import Runbook.Proofs.Json.Reading

/-! Data text, written and read back.

`reread` says what the data text of a value brings back: the value itself, but for keys that are no
texts, which come back as texts, and for containers that are one inside another too deeply. It says
so for every layout, and in front of anything that does not go on a number (`rereads`). A legible
value comes back as it is (`reread_of_legible`). -/
namespace Runbook.Json

/-! ### Layouts -/

/-- The layouts that the library writes. -/
def layouts : List Style := [compact, spaced, pretty]

theorem skipSpace_append {blanks : List Char} (h : ∀ b ∈ blanks, isSpace b = true)
    (cs : List Char) : skipSpace (blanks ++ cs) = skipSpace cs := List.dropWhile_append_of_pos h

theorem isSpace_of_newline (style : Style) (level : Nat) :
    ∀ b ∈ newline style level, isSpace b = true := by
  unfold newline
  split
  · exact nofun
  · refine List.forall_mem_cons.mpr ⟨rfl, fun b hb => ?_⟩
    rw [(List.mem_replicate.mp hb).2]
    rfl

/-- Keys end with a colon in every layout, and with blanks at most. -/
theorem colon_eq {style : Style} (h : style ∈ layouts) :
    ∃ blanks, style.colon.toList = ':' :: blanks ∧ ∀ b ∈ blanks, isSpace b = true := by
  simp only [layouts, List.mem_cons, List.not_mem_nil, or_false] at h
  rcases h with rfl | rfl | rfl
  · exact ⟨[], rfl, nofun⟩
  · exact ⟨[' '], rfl, List.forall_mem_singleton.mpr rfl⟩
  · exact ⟨[' '], rfl, List.forall_mem_singleton.mpr rfl⟩

/-- Commas are followed by blanks at most. -/
theorem comma_eq {style : Style} (h : style ∈ layouts) :
    ∃ blanks, style.comma.toList = ',' :: blanks ∧ ∀ b ∈ blanks, isSpace b = true := by
  simp only [layouts, List.mem_cons, List.not_mem_nil, or_false] at h
  rcases h with rfl | rfl | rfl
  · exact ⟨[], rfl, List.forall_mem_nil _⟩
  · exact ⟨[' '], rfl, List.forall_mem_singleton.mpr rfl⟩
  · exact ⟨[], rfl, List.forall_mem_nil _⟩

/-! ### Scalars -/

/-- What opens neither a text nor a container is read as an atom. -/
theorem value_of_atom {depth : Nat} {cs rest : List Char} {v : Value}
    (read : atom cs = .ok (v, rest)) : value depth cs = .ok (v, rest) := by
  have other {c : Char} {more : List Char} (refused : atom (c :: more) = failAt "Expecting value"
      (c :: more)) : cs ≠ c :: more := by
    rintro rfl
    cases refused.symm.trans read
  unfold value
  split
  · exact absurd rfl (other rfl)
  · exact absurd rfl (other rfl)
  · exact absurd rfl (other rfl)
  · exact read

theorem value_quote (depth : Nat) (s : String) (rest : List Char) :
    value depth (quote s ++ rest) = .ok (.str s, rest) := by
  have read : text (escapeAll s.toList ++ '"' :: rest) = .ok (s, rest) := text_escapeAll s rest
  have opened : quote s ++ rest = '"' :: (escapeAll s.toList ++ '"' :: rest) := by simp [quote]
  rw [opened]
  cases depth <;> (rw [value, read]; rfl)

theorem value_writeScalar {s : Scalar} (h : s.Writable) (depth : Nat) {rest : List Char}
    (ends : EndsNumber rest) :
    value depth ((writeScalar s).text ++ rest) = .ok (.scalar s, rest) := by
  cases s with
  | null => exact value_of_atom rfl
  | bool b => cases b <;> exact value_of_atom rfl
  | int n =>
    obtain ⟨s, written⟩ := Option.isSome_iff_exists.mp h
    have text : (writeScalar (.int n)).text = s.toList := by
      show (writeInt n).text = _
      rw [writeInt, written]
      rfl
    rw [text]
    exact value_of_atom (atom_int written ends)
  | float x => exact value_of_atom (atom_float x ends)
  | str s => exact value_quote depth s rest
  | bytes => cases h
  | moment => cases h

/-- The text that a key comes back as. -/
def keyText : Scalar → String
  | .str s => s
  | k => String.ofList (writeScalar k).text

/-- A character that stands for itself inside quotes. -/
def IsPlain (c : Char) : Prop := escape c = [c]

instance (c : Char) : Decidable (IsPlain c) := inferInstanceAs (Decidable (_ = _))

theorem isPlain_of_all {cs : List Char} (h : cs.all (IsPlain ·) = true) : ∀ c ∈ cs, IsPlain c :=
  fun c there => of_decide_eq_true (List.all_eq_true.mp h c there)

theorem escapeAll_of_plain {cs : List Char} (h : ∀ c ∈ cs, IsPlain c) : escapeAll cs = cs := by
  induction cs with
  | nil => rfl
  | cons c cs ih =>
    obtain ⟨here, behind⟩ := List.forall_mem_cons.mp h
    rw [escapeAll, List.flatMap_cons, here, ← escapeAll, ih behind, List.singleton_append]

theorem isPlain_of_isAsciiDigit {c : Char} (h : isAsciiDigit c = true) : IsPlain c := by
  obtain ⟨least, greatest⟩ : 48 ≤ c.toNat ∧ c.toNat ≤ 57 := (isAsciiDigit_iff c).mp h
  obtain ⟨d, digit, rfl⟩ : ∃ d < 10, c = Char.ofNat (48 + d) :=
    ⟨c.toNat - 48, by omega, by rw [Nat.add_sub_cancel' least, Char.ofNat_toNat]⟩
  interval_cases d <;> decide

/-- What a number may be written in besides digits. -/
def numberMarks : List Char := ['.', 'e', '+', '-'] ++ ("Infinity".toList ++ "NaN".toList)

/-- A number is written in digits, the marks of a numeral and the letters of two names. -/
theorem forall_mem_number {P : Char → Prop} (digits : ∀ c, isAsciiDigit c = true → P c)
    (marks : ∀ c ∈ numberMarks, P c) {s : Scalar} (h : IsNumber s) :
    ∀ c ∈ (writeScalar s).text, P c := by
  have numeralMarks : ∀ c ∈ ['.', 'e', '+', '-'], P c := fun c there =>
    marks c (List.mem_append_left _ there)
  have sign (negative : Bool) : ∀ c ∈ signText negative, P c := by
    cases negative with
    | false => exact List.forall_mem_nil _
    | true => exact List.forall_mem_singleton.mpr (numeralMarks '-' (by decide))
  have infinity : ∀ c ∈ "Infinity".toList, P c := fun c there =>
    marks c (List.mem_append_right _ (List.mem_append_left _ there))
  have notANumber : ∀ c ∈ "NaN".toList, P c := fun c there =>
    marks c (List.mem_append_right _ (List.mem_append_right _ there))
  obtain ⟨written, ⟨n, rfl⟩ | ⟨x, rfl⟩⟩ := h
  · obtain ⟨s, written⟩ := Option.isSome_iff_exists.mp written
    have text : (writeScalar (.int n)).text = s.toList := by
      show (writeInt n).text = _
      rw [writeInt, written]
      rfl
    rw [text, (numeral?_eq_some written).2]
    exact List.forall_mem_append.mpr
      ⟨sign _, fun c there => digits c (areDigits_digitChars _ c there)⟩
  · cases x with
    | nan => exact notANumber
    | infinite negative =>
      cases negative with
      | false => exact infinity
      | true => exact List.forall_mem_append.mpr ⟨sign true, infinity⟩
    | finite negative rank =>
      show ∀ c ∈ (Number.data.text (.finite negative rank)).toList, P c
      rw [text_finite]
      refine List.forall_mem_append.mpr ⟨sign _, ?_⟩
      rw [magnitudeText]
      split
      · exact List.forall_mem_cons.mpr ⟨digits _ rfl, List.forall_mem_cons.mpr
          ⟨numeralMarks _ (by decide), List.forall_mem_singleton.mpr (digits _ rfl)⟩⟩
      · rename_i some_rank
        have near := Number.near_shortest (Nat.pos_of_ne_zero some_rank)
        obtain ⟨w, frac, pow, numeral⟩ :=
          exists_written (near.digits_ne_zero (Nat.pos_of_ne_zero some_rank))
        exact numeral.forall_mem digits numeralMarks

/-- Numbers and names are written in characters that stand for themselves. -/
theorem isPlain_of_writeScalar {s : Scalar} (h : s.Writable) (noText : ∀ t, s ≠ .str t) :
    ∀ c ∈ (writeScalar s).text, IsPlain c := by
  have number := forall_mem_number (fun _ => isPlain_of_isAsciiDigit) (isPlain_of_all rfl) (s := s)
  cases s with
  | null => exact isPlain_of_all rfl
  | bool b => cases b <;> exact isPlain_of_all rfl
  | int n => exact number ⟨h, .inl ⟨n, rfl⟩⟩
  | float x => exact number ⟨h, .inr ⟨x, rfl⟩⟩
  | str s => exact absurd rfl (noText s)
  | bytes => cases h
  | moment => cases h

/-- A key is written as the text that it comes back as. -/
theorem writeKey_eq {k : Scalar} (h : k.Writable) : writeKey k = .ok (quote (keyText k)) := by
  unfold writeKey
  split
  · rfl
  · rename_i noText
    have written := (writeScalar_refused k).mpr h
    have plain := escapeAll_of_plain (isPlain_of_writeScalar h noText)
    have key : keyText k = String.ofList (writeScalar k).text := by
      unfold keyText
      split
      · exact absurd rfl (noText _)
      · rfl
    rw [key, quote, String.toList_ofList, plain]
    simp only [written]

/-! ### What comes back -/

mutual

/-- What the data text of a value is read as, where `depth` containers may be one inside another. -/
def reread : Nat → Value → Except Failure Value
  | _, .scalar s => .ok (.scalar s)
  | 0, .list _ | 0, .map _ => .error .tooDeep
  | depth + 1, .list items => (rereadItems depth items).map .list
  | depth + 1, .map entries => (rereadEntries depth entries).map fun es => .map (Entries.ofList es)

def rereadItems (depth : Nat) : List Value → Except Failure (List Value)
  | [] => .ok []
  | v :: rest => do
    let v ← reread depth v
    let rest ← rereadItems depth rest
    return v :: rest

def rereadEntries (depth : Nat) : List (Scalar × Value) → Except Failure (List (Scalar × Value))
  | [] => .ok []
  | (k, v) :: rest => do
    let v ← reread depth v
    let rest ← rereadEntries depth rest
    return (.str (keyText k), v) :: rest

end

/-- The entries of named fields come back under their names. -/
theorem rereadEntries_fields {depth : Nat} {fields : List (String × Value)} (back : Value → Value)
    (h : ∀ e ∈ fields, reread depth e.2 = .ok (back e.2)) :
    rereadEntries depth (fields.map fun e => (.str e.1, e.2)) =
      .ok (fields.map fun e => (.str e.1, back e.2)) := by
  induction fields with
  | nil => rfl
  | cons e fields ih =>
    obtain ⟨here, behind⟩ := List.forall_mem_cons.mp h
    rw [List.map_cons, rereadEntries, here, ih behind]
    rfl

/-! ### Between values -/

theorem Written.ok_append (a b : List Char) : Written.ok a ++ Written.ok b = Written.ok (a ++ b) :=
  rfl

theorem Written.text_append {a : Written} (b : Written) (h : a.refused = none) :
    (a ++ b).text = a.text ++ b.text := by
  show (Written.append a b).text = _
  rw [Written.append, h]

theorem endsNumber_cons {c : Char} (rest : List Char)
    (other : isAsciiDigit c = false ∧ c ≠ '.' ∧ c ≠ 'e' ∧ c ≠ 'E') : EndsNumber (c :: rest) := by
  rintro d ⟨⟩
  exact other

/-- The end of a line ends a number, and so does what stands behind it otherwise. -/
theorem endsNumber_newline (style : Style) (level : Nat) {rest : List Char}
    (ends : EndsNumber rest) : EndsNumber (newline style level ++ rest) := by
  unfold newline
  split
  · exact ends
  · exact endsNumber_cons _ (by decide)


/-- A character that a value may start with: no blank, no closing bracket and no mark of the order of
bytes. -/
def Opens (c : Char) : Prop := isSpace c = false ∧ c ≠ ']' ∧ c ≠ '\uFEFF'

instance (c : Char) : Decidable (Opens c) := inferInstanceAs (Decidable (_ ∧ _))

theorem exists_of_value {depth : Nat} {cs rest : List Char} {v : Value}
    (read : value depth cs = .ok (v, rest)) : ∃ c more, cs = c :: more ∧ Opens c := by
  have refused {cs : List Char} (plain : ∀ d, value d cs = atom cs)
      (h : atom cs = failAt "Expecting value" cs) : value depth cs ≠ .ok (v, rest) := by
    rw [plain depth, h]
    exact nofun
  rcases cs with _ | ⟨c, more⟩
  · exact absurd read (refused (fun d => by cases d <;> rfl) rfl)
  refine ⟨c, more, rfl, ?_, ?_, ?_⟩
  · cases blank : isSpace c with
    | false => rfl
    | true =>
      simp only [isSpace, Bool.or_eq_true, beq_iff_eq] at blank
      rcases blank with ((rfl | rfl) | rfl) | rfl <;>
        exact absurd read (refused (fun d => by cases d <;> rfl) rfl)
  all_goals
    rintro rfl
    exact absurd read (refused (fun d => by cases d <;> rfl) rfl)

section Containers
variable {style : Style} {depth level : Nat}

theorem Written.exists_append {a : Written} {c : Char} {more : List Char} (first : a.text = c :: more)
    (b : Written) : ∃ more, (a ++ b).text = c :: more := by
  show ∃ more, (Written.append a b).text = c :: more
  unfold Written.append
  split
  · exact ⟨more ++ b.text, by rw [first]; rfl⟩
  · exact ⟨more, first⟩

theorem exists_write_list (style : Style) (level : Nat) (items : List Value) :
    ∃ more, (write style level (.list items)).text = '[' :: more := by
  cases items with
  | nil => exact ⟨_, by rw [write]; rfl⟩
  | cons v items =>
    rw [write]
    obtain ⟨_, here⟩ := Written.exists_append (a := .ok ('[' :: newline style (level + 1))) rfl
      (write style (level + 1) v)
    exact Written.exists_append here _

theorem exists_write_map (style : Style) (level : Nat) (entries : List (Scalar × Value)) :
    ∃ more, (write style level (.map entries)).text = '{' :: more := by
  cases entries with
  | nil => exact ⟨_, by rw [write]; rfl⟩
  | cons e entries =>
    rw [write]
    obtain ⟨_, key⟩ := Written.exists_append (a := .ok ('{' :: newline style (level + 1))) rfl
      (writeKey e.1)
    obtain ⟨_, colon⟩ := Written.exists_append key (.ok style.colon.toList)
    obtain ⟨_, here⟩ := Written.exists_append colon (write style (level + 1) e.2)
    exact Written.exists_append here _

theorem exists_write {v : Value} (h : v.Writable) (style : Style) (level : Nat) :
    ∃ c more, (write style level v).text = c :: more ∧ Opens c := by
  cases h with
  | @scalar s h =>
    have read := value_writeScalar h 0 (nofun : EndsNumber [])
    rw [List.append_nil] at read
    rw [write]
    exact exists_of_value read
  | @list items h =>
    obtain ⟨more, first⟩ := exists_write_list style level items
    exact ⟨_, more, first, by decide⟩
  | @map entries keys values =>
    obtain ⟨more, first⟩ := exists_write_map style level entries
    exact ⟨_, more, first, by decide⟩

/-- The data text of a value is read as what comes back of it. -/
def Rereads (style : Style) (depth level : Nat) (v : Value) : Prop :=
  ∀ rest, EndsNumber rest →
    value depth ((write style level v).text ++ rest) = (reread depth v).map (·, rest)

/-- What stands in front of the next item or entry ends a number. -/
theorem endsNumber_comma (layout : style ∈ layouts) (rest : List Char) :
    EndsNumber (style.comma.toList ++ rest) := by
  obtain ⟨blanks, comma, -⟩ := comma_eq layout
  rw [comma]
  exact endsNumber_cons _ (by decide)

/-- What stands behind a comma is found behind its blanks and the new line. -/
theorem exists_comma (layout : style ∈ layouts) (level : Nat) {cs : List Char}
    (solid : skipSpace cs = cs) :
    ∃ behind, skipSpace (style.comma.toList ++ (newline style level ++ cs)) = ',' :: behind ∧
      skipSpace behind = cs := by
  obtain ⟨blanks, comma, blank⟩ := comma_eq layout
  refine ⟨blanks ++ (newline style level ++ cs), by rw [comma]; exact skipSpace_cons rfl _, ?_⟩
  rw [skipSpace_append blank, skipSpace_append (isSpace_of_newline style level), solid]

/-- The bracket or brace at the end is found behind the new line. -/
theorem skipSpace_closing {c : Char} (solid : isSpace c = false) (level : Nat) (rest : List Char) :
    skipSpace (newline style level ++ [c] ++ rest) = c :: rest := by
  rw [List.append_assoc, skipSpace_append (isSpace_of_newline style level)]
  exact skipSpace_cons solid rest

theorem skipSpace_write (style : Style) (level : Nat) {v : Value} (h : v.Writable)
    (rest : List Char) :
    skipSpace ((write style level v).text ++ rest) = (write style level v).text ++ rest := by
  obtain ⟨c, more, first, solid, -⟩ := exists_write h style level
  rw [first, List.cons_append, skipSpace_cons solid]

/-- Blanks in front of a value are passed over. -/
theorem skipSpace_value (style : Style) (level : Nat) {v : Value} (h : v.Writable) {blanks : List Char}
    (blank : ∀ b ∈ blanks, isSpace b = true) (rest : List Char) :
    skipSpace (blanks ++ ((write style level v).text ++ rest)) =
      (write style level v).text ++ rest := by
  rw [skipSpace_append blank, skipSpace_write style level h]

/-! ### Lists -/

theorem text_writeItems_cons {v : Value} (h : v.Writable) (items : List Value) (rest : List Char) :
    (writeItems style level (v :: items)).text ++ rest =
      style.comma.toList ++ (newline style (level + 1) ++
        ((write style (level + 1) v).text ++ ((writeItems style level items).text ++ rest))) := by
  have here := (write_refused style (level + 1) v).mpr h
  rw [writeItems, Written.text_append _ (by simp [here]), Written.text_append _ rfl]
  simp [Written.ok]

theorem endsNumber_writeItems (level : Nat) (layout : style ∈ layouts) {items : List Value}
    (h : ∀ v ∈ items, v.Writable) (rest : List Char) :
    EndsNumber ((writeItems style level items).text ++ rest) := by
  cases items with
  | nil =>
    show EndsNumber (newline style level ++ [']'] ++ rest)
    rw [List.append_assoc]
    exact endsNumber_newline style level (endsNumber_cons _ (by decide))
  | cons v items =>
    rw [text_writeItems_cons (h v (List.mem_cons_self ..))]
    exact endsNumber_comma layout _

theorem itemsFrom_write (layout : style ∈ layouts) {fuel : Nat} {acc items : List Value} {v : Value}
    (h : ∀ w ∈ v :: items, w.Writable) (reads : ∀ w ∈ v :: items, Rereads style depth (level + 1) w)
    (enough : items.length < fuel) (rest : List Char) :
    itemsFrom (value depth) fuel acc ((write style (level + 1) v).text ++
      ((writeItems style level items).text ++ rest)) =
        (rereadItems depth (v :: items)).map fun ws => (acc.reverse ++ ws, rest) := by
  induction items generalizing v acc fuel with
  | nil =>
    obtain ⟨fuel, rfl⟩ := Nat.exists_eq_succ_of_ne_zero (Nat.ne_of_gt enough)
    have ends := endsNumber_writeItems level layout (List.forall_mem_nil _) rest
    have read := reads v (List.mem_cons_self ..) _ ends
    rw [rereadItems]
    cases back : reread depth v with
    | error f => exact itemsFrom_refused (by rw [read, back]; rfl)
    | ok w =>
      rw [itemsFrom_last (by rw [read, back]; rfl) (skipSpace_closing rfl level rest),
        List.reverse_cons]
      rfl
  | cons w items ih =>
    obtain ⟨fuel, rfl⟩ := Nat.exists_eq_succ_of_ne_zero (Nat.ne_of_gt (Nat.zero_lt_of_lt enough))
    obtain ⟨-, behind⟩ := List.forall_mem_cons.mp h
    obtain ⟨here, later⟩ := List.forall_mem_cons.mp reads
    have next := behind w (List.mem_cons_self ..)
    have ends := endsNumber_writeItems level layout behind rest
    have read := here _ ends
    rw [text_writeItems_cons next] at read ⊢
    obtain ⟨_, comma, passed⟩ := exists_comma layout (level + 1)
      (skipSpace_write style (level + 1) next ((writeItems style level items).text ++ rest))
    rw [rereadItems]
    cases back : reread depth v with
    | error f => exact itemsFrom_refused (by rw [read, back]; rfl)
    | ok u =>
      rw [itemsFrom_comma (by rw [read, back]; rfl) comma, passed,
        ih behind later (Nat.lt_of_succ_lt_succ enough), List.reverse_cons]
      cases rereadItems depth (w :: items) with
      | error f => rfl
      | ok us => simp [Except.map, bind, Except.bind, pure, Except.pure]

/-- Every item but the first has a comma in front of it. -/
theorem length_writeItems (level : Nat) (layout : style ∈ layouts) {items : List Value}
    (h : ∀ v ∈ items, v.Writable) (rest : List Char) :
    items.length ≤ ((writeItems style level items).text ++ rest).length := by
  induction items with
  | nil => exact Nat.zero_le _
  | cons v items ih =>
    obtain ⟨here, behind⟩ := List.forall_mem_cons.mp h
    obtain ⟨blanks, comma, -⟩ := comma_eq layout
    have := ih behind
    rw [text_writeItems_cons here, comma]
    simp only [List.length_cons, List.length_append] at this ⊢
    omega

theorem Rereads.list (layout : style ∈ layouts) {vs : List Value} (h : ∀ v ∈ vs, v.Writable)
    (reads : ∀ v ∈ vs, Rereads style depth (level + 1) v) :
    Rereads style (depth + 1) level (.list vs) := by
  intro rest _
  cases vs with
  | nil =>
    rw [write]
    rfl
  | cons v vs =>
    obtain ⟨here, behind⟩ := List.forall_mem_cons.mp h
    have text : (write style level (.list (v :: vs))).text ++ rest =
        '[' :: (newline style (level + 1) ++ ((write style (level + 1) v).text ++
          ((writeItems style level vs).text ++ rest))) := by
      have written := (write_refused style (level + 1) v).mpr here
      rw [write, Written.text_append _ (by simp [written]), Written.text_append _ rfl]
      simp [Written.ok]
    obtain ⟨c, more, first, -, opens, -⟩ := exists_write here style (level + 1)
    have enough := length_writeItems level layout behind rest
    have passed := skipSpace_value style (level + 1) here
      (isSpace_of_newline style (level + 1)) ((writeItems style level vs).text ++ rest)
    have read : items (value depth) (newline style (level + 1) ++
        ((write style (level + 1) v).text ++ ((writeItems style level vs).text ++ rest))) =
        (rereadItems depth (v :: vs)).map (·, rest) := by
      rw [items_of_ne passed fun _ same =>
        opens (List.cons.inj ((congrArg (· ++ _) first).symm.trans same)).1]
      exact itemsFrom_write layout h reads (by rw [List.length_append]; omega) rest
    rw [text, value, read, reread]
    cases rereadItems depth (v :: vs) <;> rfl

/-! ### Mappings -/

theorem text_writeEntries_cons {k : Scalar} {v : Value} (key : k.Writable) (h : v.Writable)
    (entries : List (Scalar × Value)) (rest : List Char) :
    (writeEntries style level ((k, v) :: entries)).text ++ rest =
      style.comma.toList ++ (newline style (level + 1) ++ (quote (keyText k) ++
        (style.colon.toList ++ ((write style (level + 1) v).text ++
          ((writeEntries style level entries).text ++ rest))))) := by
  have here := (write_refused style (level + 1) v).mpr h
  rw [writeEntries, writeKey_eq key]
  show (Written.ok (style.comma.toList ++ newline style (level + 1)) ++ .ok (quote (keyText k)) ++
    .ok style.colon.toList ++ write style (level + 1) v ++ writeEntries style level entries).text ++
      rest = _
  rw [Written.text_append _ (by simp [here]), Written.text_append _ (by simp), Written.ok_append,
    Written.ok_append]
  simp [Written.ok]

theorem endsNumber_writeEntries (level : Nat) (layout : style ∈ layouts) {entries : List (Scalar × Value)}
    (h : ∀ e ∈ entries, e.1.Writable ∧ e.2.Writable) (rest : List Char) :
    EndsNumber ((writeEntries style level entries).text ++ rest) := by
  cases entries with
  | nil =>
    show EndsNumber (newline style level ++ ['}'] ++ rest)
    rw [List.append_assoc]
    exact endsNumber_newline style level (endsNumber_cons _ (by decide))
  | cons e entries =>
    obtain ⟨key, here⟩ := h e (List.mem_cons_self ..)
    rw [text_writeEntries_cons key here]
    exact endsNumber_comma layout _

theorem skipSpace_key (s : String) (cs : List Char) :
    skipSpace (quote s ++ cs) = quote s ++ cs := skipSpace_cons rfl _

theorem skipSpace_quote (style : Style) (level : Nat) (s : String) (cs : List Char) :
    skipSpace (newline style level ++ (quote s ++ cs)) = quote s ++ cs := by
  rw [skipSpace_append (isSpace_of_newline style level), skipSpace_key]

/-- A key and its colon are read in front of what does not begin with a blank. -/
theorem entriesFrom_key (layout : style ∈ layouts) {fuel : Nat} {acc : List (Scalar × Value)}
    (key : String) {cs : List Char} (solid : skipSpace cs = cs) :
    entriesFrom (value depth) (fuel + 1) acc (quote key ++ (style.colon.toList ++ cs)) =
      entryFrom (value depth) fuel acc key cs := by
  obtain ⟨blanks, colon, blank⟩ := colon_eq layout
  have opened : quote key ++ (style.colon.toList ++ cs) =
      '"' :: (escapeAll key.toList ++ '"' :: ':' :: (blanks ++ cs)) := by
    simp [quote, colon]
  rw [opened, entriesFrom_named (text_escapeAll key _) (skipSpace_cons rfl _),
    skipSpace_append blank, solid]

theorem entriesFrom_write (layout : style ∈ layouts) {fuel : Nat} {acc entries : List (Scalar × Value)}
    {e : Scalar × Value} (h : ∀ f ∈ e :: entries, f.1.Writable ∧ f.2.Writable)
    (reads : ∀ f ∈ e :: entries, Rereads style depth (level + 1) f.2)
    (enough : entries.length < fuel) (rest : List Char) :
    entriesFrom (value depth) fuel acc (quote (keyText e.1) ++ (style.colon.toList ++
      ((write style (level + 1) e.2).text ++ ((writeEntries style level entries).text ++ rest)))) =
        (rereadEntries depth (e :: entries)).map fun es =>
          (Entries.ofList (acc.reverse ++ es), rest) := by
  induction entries generalizing e acc fuel with
  | nil =>
    obtain ⟨fuel, rfl⟩ := Nat.exists_eq_succ_of_ne_zero (Nat.ne_of_gt enough)
    have ends := endsNumber_writeEntries level layout (List.forall_mem_nil _) rest
    have read := reads e (List.mem_cons_self ..) _ ends
    rw [entriesFrom_key layout _ (skipSpace_write style _ (h e (List.mem_cons_self ..)).2 _),
      rereadEntries]
    cases back : reread depth e.2 with
    | error f => exact entryFrom_refused (by rw [read, back]; rfl)
    | ok w =>
      rw [entryFrom_last (by rw [read, back]; rfl) (skipSpace_closing rfl level rest),
        List.reverse_cons]
      rfl
  | cons f entries ih =>
    obtain ⟨fuel, rfl⟩ := Nat.exists_eq_succ_of_ne_zero (Nat.ne_of_gt (Nat.zero_lt_of_lt enough))
    obtain ⟨here, behind⟩ := List.forall_mem_cons.mp h
    obtain ⟨first, later⟩ := List.forall_mem_cons.mp reads
    obtain ⟨key, next⟩ := behind f (List.mem_cons_self ..)
    have ends := endsNumber_writeEntries level layout behind rest
    have read := first _ ends
    rw [entriesFrom_key layout _ (skipSpace_write style _ here.2 _)]
    rw [text_writeEntries_cons key next] at read ⊢
    obtain ⟨_, comma, passed⟩ := exists_comma layout (level + 1) (skipSpace_key (keyText f.1)
      (style.colon.toList ++ ((write style (level + 1) f.2).text ++
        ((writeEntries style level entries).text ++ rest))))
    rw [rereadEntries]
    cases back : reread depth e.2 with
    | error f => exact entryFrom_refused (by rw [read, back]; rfl)
    | ok u =>
      rw [entryFrom_comma (by rw [read, back]; rfl) comma, passed,
        ih behind later (Nat.lt_of_succ_lt_succ enough), List.reverse_cons]
      cases rereadEntries depth (f :: entries) with
      | error f => rfl
      | ok us => simp [Except.map, bind, Except.bind, pure, Except.pure]

theorem length_writeEntries (level : Nat) (layout : style ∈ layouts) {entries : List (Scalar × Value)}
    (h : ∀ e ∈ entries, e.1.Writable ∧ e.2.Writable) (rest : List Char) :
    entries.length ≤ ((writeEntries style level entries).text ++ rest).length := by
  induction entries with
  | nil => exact Nat.zero_le _
  | cons e entries ih =>
    obtain ⟨⟨key, here⟩, behind⟩ := List.forall_mem_cons.mp h
    obtain ⟨blanks, comma, -⟩ := comma_eq layout
    have := ih behind
    rw [text_writeEntries_cons key here, comma]
    simp only [List.length_cons, List.length_append] at this ⊢
    omega

theorem Rereads.map (layout : style ∈ layouts) {es : List (Scalar × Value)}
    (h : ∀ e ∈ es, e.1.Writable ∧ e.2.Writable)
    (reads : ∀ e ∈ es, Rereads style depth (level + 1) e.2) :
    Rereads style (depth + 1) level (.map es) := by
  intro rest _
  cases es with
  | nil =>
    rw [write]
    rfl
  | cons e es =>
    obtain ⟨⟨key, here⟩, behind⟩ := List.forall_mem_cons.mp h
    have text : (write style level (.map (e :: es))).text ++ rest =
        '{' :: (newline style (level + 1) ++ (quote (keyText e.1) ++ (style.colon.toList ++
          ((write style (level + 1) e.2).text ++ ((writeEntries style level es).text ++ rest))))) := by
      have written := (write_refused style (level + 1) e.2).mpr here
      rw [write, writeKey_eq key, Written.text_append _ (by simp [written]),
        Written.text_append _ (by simp), Written.ok_append, Written.ok_append]
      simp [Written.ok]
    have enough := length_writeEntries level layout behind rest
    have read : entries (value depth) (newline style (level + 1) ++ (quote (keyText e.1) ++
        (style.colon.toList ++ ((write style (level + 1) e.2).text ++
          ((writeEntries style level es).text ++ rest))))) =
        (rereadEntries depth (e :: es)).map fun es => (Entries.ofList es, rest) := by
      rw [entries_of_ne (skipSpace_quote style (level + 1) _ _) fun _ same => by cases same]
      refine entriesFrom_write layout h reads ?_ rest
      simp only [List.length_append] at enough ⊢
      omega
    rw [text, value, read, reread]
    cases rereadEntries depth (e :: es) <;> rfl

end Containers

/-- In every layout and at every level, the data text of a value is read as what comes back of it. -/
theorem rereads {style : Style} (layout : style ∈ layouts) {v : Value} (h : v.Writable)
    (depth level : Nat) : Rereads style depth level v := by
  induction h generalizing depth level with
  | @scalar s h =>
    intro rest ends
    rw [write, value_writeScalar h depth ends]
    cases depth <;> rfl
  | @list items h ih =>
    cases depth with
    | zero =>
      intro rest _
      obtain ⟨more, first⟩ := exists_write_list style level items
      rw [first]
      rfl
    | succ depth => exact .list layout h fun v there => ih v there depth (level + 1)
  | @map entries keys values ih =>
    cases depth with
    | zero =>
      intro rest _
      obtain ⟨more, first⟩ := exists_write_map style level entries
      rw [first]
      rfl
    | succ depth =>
      exact .map layout (fun e there => ⟨keys e there, values e there⟩)
        fun e there => ih e there depth (level + 1)

/-- The data text of a value is read as what comes back of it. -/
theorem document_write {style : Style} (layout : style ∈ layouts) {v : Value} (h : v.Writable) :
    document (write style 0 v).text = reread depthLimit v := by
  obtain ⟨c, more, first, solid, -, plain⟩ := exists_write h style 0
  have read := rereads layout h depthLimit 0 [] nofun
  rw [List.append_nil, first] at read
  rw [first]
  unfold document
  split
  · rename_i mark
    exact absurd (List.cons.inj mark).1 plain
  · rw [skipSpace_cons solid, read]
    cases reread depthLimit v <;> rfl

/-- The data text of a value is read as what comes back of it. -/
theorem parse_render {style : Style} (layout : style ∈ layouts) {v w : Value} {text : String}
    (rendered : render style v = .ok text) (back : reread depthLimit v = .ok w) :
    parse text = .ok w := by
  have writable := (render_isOk style v).mp ⟨text, rendered⟩
  have whole := document_write layout writable
  unfold render at rendered
  simp only [(write_refused style 0 v).mpr writable, Except.ok.injEq] at rendered
  rw [parse, ← rendered, String.toList_ofList, whole, back]

/-! ### Legible values -/

/-- A value that data text brings back as it is: scalars with a data text, lists, and mappings with
distinct text keys, with `depth` containers at most one inside another. -/
inductive Legible : Nat → Value → Prop
  | scalar {depth : Nat} {s : Scalar} (h : s.Writable) : Legible depth (.scalar s)
  | list {depth : Nat} {items : List Value} (h : ∀ v ∈ items, Legible depth v) :
    Legible (depth + 1) (.list items)
  | record {depth : Nat} {fields : List (String × Value)} (distinct : (Entries.keys fields).Nodup)
    (h : ∀ e ∈ fields, Legible depth e.2) : Legible (depth + 1) (.record fields)

namespace Legible

variable {depth : Nat} {v : Value}

theorem writable (h : Legible depth v) : v.Writable := by
  induction h with
  | scalar h => exact .scalar h
  | list _ ih => exact .list ih
  | record _ _ ih =>
    exact .map (List.forall_mem_map.mpr fun _ _ => trivial) (List.forall_mem_map.mpr ih)

theorem mono {more : Nat} (h : Legible depth v) (le : depth ≤ more) : Legible more v := by
  induction h generalizing more with
  | scalar h => exact .scalar h
  | list _ ih =>
    cases more with
    | zero => cases le
    | succ more => exact .list fun v there => ih v there (Nat.le_of_succ_le_succ le)
  | record distinct _ ih =>
    cases more with
    | zero => cases le
    | succ more => exact .record distinct fun e there => ih e there (Nat.le_of_succ_le_succ le)

theorem rereadItems {items : List Value} (h : ∀ v ∈ items, Json.reread depth v = .ok v) :
    rereadItems depth items = .ok items := by
  induction items with
  | nil => rfl
  | cons v items ih =>
    obtain ⟨here, behind⟩ := List.forall_mem_cons.mp h
    rw [Json.rereadItems, here, ih behind]
    rfl

theorem rereadEntries {fields : List (String × Value)}
    (h : ∀ e ∈ fields, Json.reread depth e.2 = .ok e.2) :
    rereadEntries depth (fields.map fun e => (.str e.1, e.2)) =
      .ok (fields.map fun e => (.str e.1, e.2)) :=
  rereadEntries_fields id h

theorem reread (h : Legible depth v) : reread depth v = .ok v := by
  induction h with
  | scalar h => cases ‹Nat› <;> rfl
  | list _ ih =>
    rw [Json.reread, rereadItems ih]
    rfl
  | @record depth fields distinct _ ih =>
    have kept : Entries.ofList (fields.map fun e => (Scalar.str e.1, e.2)) =
        fields.map fun e => (Scalar.str e.1, e.2) := by
      have named := Entries.ofList_map Scalar.str_beq (id : Value → Value) fields
      rwa [Entries.ofList_of_nodup distinct] at named
    show Json.reread (depth + 1) (.map (fields.map fun e => (Scalar.str e.1, e.2))) = _
    rw [Json.reread, rereadEntries ih]
    exact congrArg (fun es => Except.ok (Value.map es)) kept

end Legible

/-- The data text of a legible value is read as that value. -/
theorem parse_of_legible {style : Style} (layout : style ∈ layouts) {v : Value} {text : String}
    (h : Legible depthLimit v) (rendered : render style v = .ok text) : parse text = .ok v :=
  parse_render layout rendered h.reread

theorem readable_legible : Readable fun depth _ v => Legible depth v where
  text _ := .scalar trivial
  atom h := by
    obtain ⟨s, rfl, written⟩ := scalar_of_atom h
    exact .scalar written
  list := .list
  record := .record

/-- What was read is read again from its data text. -/
theorem parse_render_of_parse {style : Style} (layout : style ∈ layouts) {s text : String} {v : Value}
    (read : parse s = .ok v) (rendered : render style v = .ok text) : parse text = .ok v :=
  parse_of_legible layout (readable_legible.parse read) rendered

/-- Where a field is written more than once, what comes back of the last one counts. -/
theorem parse_repeated {style : Style} (layout : style ∈ layouts) {fields : List (String × Value)}
    {text : String} (back : Value → Value)
    (h : ∀ e ∈ fields, reread (depthLimit - 1) e.2 = .ok (back e.2))
    (rendered : render style (.record fields) = .ok text) :
    ∃ v, parse text = .ok v ∧ ∀ name, v.field? name = (Entries.get? name fields.reverse).map back := by
  have whole : reread depthLimit (.record fields) =
      .ok (.record (Entries.ofList (fields.map fun e => (e.1, back e.2)))) := by
    show reread (depthLimit - 1 + 1) (.map _) = _
    rw [reread, rereadEntries_fields back h]
    have named := Entries.ofList_map Scalar.str_beq (id : Value → Value)
      (fields.map fun e => (e.1, back e.2))
    rw [List.map_map] at named
    exact congrArg (fun es => Except.ok (Value.map es)) named
  refine ⟨_, parse_render layout rendered whole, fun name => ?_⟩
  rw [Value.field?_record, Entries.get?_ofList, ← List.map_reverse]
  exact Entries.get?_map (f := id) (fun _ _ => rfl) back name fields.reverse

end Runbook.Json
