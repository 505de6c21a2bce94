import Mathlib.Data.List.TakeWhile
import Mathlib.Data.Nat.Digits.Defs
import Mathlib.Tactic.IntervalCases
import Runbook.Proofs.Entries
import Runbook.Proofs.Json.Writing
import Runbook.Proofs.Results

/-! What data text reads as.

A value that was read can be written again: it has no bytes, no moments and no number without
a numeral. A text does not read for one of two reasons only: it breaks the grammar, or its
containers are nested too deeply. A text inside data text is shorter than the data text. And a text
written inside quotes is read back as itself, whatever its characters are. -/
namespace Runbook.Json

/-! ### Failures -/

theorem Failure.fault_kind (cs : List Char) (f : Failure) :
    (f.fault cs).isBadValue = true ∨ f.fault cs = .tooDeep := by
  cases f with
  | tooDeep => exact .inr rfl
  | _ => exact .inl rfl

theorem parse_error {s : String} {f : Fault} (h : parse s = .error f) :
    f.isBadValue = true ∨ f = .tooDeep := by
  unfold parse at h
  split at h
  · cases h
  · cases h
    exact Failure.fault_kind ..

theorem parse_eq_ok {s : String} {v : Value} : parse s = .ok v ↔ document s.toList = .ok v := by
  unfold parse
  cases document s.toList <;> simp

/-! ### Parts of a text -/

theorem skipSpace_cons {c : Char} (h : isSpace c = false) (cs : List Char) :
    skipSpace (c :: cs) = c :: cs := List.dropWhile_cons_of_neg (by simp [h])

theorem length_skipSpace_le (cs : List Char) : (skipSpace cs).length ≤ cs.length :=
  (List.dropWhile_suffix _).length_le

theorem length_lt_of_skipSpace {cs rest : List Char} {c : Char}
    (h : skipSpace cs = c :: rest) : rest.length < cs.length := by
  have shorter := length_skipSpace_le cs
  rw [h, List.length_cons] at shorter
  omega

/-- What opens neither a text nor a container is read as a name or a number. -/
theorem value_plain {c : Char} (plain : c ≠ '"' ∧ c ≠ '[' ∧ c ≠ '{') (depth : Nat) (cs : List Char) :
    value depth (c :: cs) = atom (c :: cs) := by
  obtain ⟨quote, bracket, brace⟩ := plain
  unfold value
  split
  · rename_i same
    exact absurd (List.cons.inj same).1 quote
  · rename_i same
    exact absurd (List.cons.inj same).1 bracket
  · rename_i same
    exact absurd (List.cons.inj same).1 brace
  · rfl

theorem document_of_ne {cs : List Char} (unmarked : ∀ rest, cs ≠ '\uFEFF' :: rest) :
    document cs = (do
      let (v, rest) ← value depthLimit (skipSpace cs)
      match skipSpace rest with
      | [] => return v
      | rest => failAt "Extra data" rest) := by
  unfold document
  split
  · exact absurd rfl (unmarked _)
  · rfl

/-! ### Depth -/

/-- A list whose first item is no value is refused with that item. -/
theorem value_list_error {depth : Nat} {cs : List Char} {f : Failure}
    (h : value depth ('[' :: cs) = .error f) : value (depth + 1) ('[' :: '[' :: cs) = .error f := by
  have first : items (value depth) ('[' :: cs) = .error f := by
    rw [items, skipSpace_cons rfl]
    show itemsFrom (value depth) (cs.length + 1 + 1) [] ('[' :: cs) = .error f
    rw [itemsFrom, h]
    rfl
  rw [value, first]
  rfl

/-- Opening brackets beyond the limit are refused before anything behind them is looked at. -/
theorem value_tooDeep {depth n : Nat} (h : depth ≤ n) :
    value depth ('[' :: List.replicate n '[') = .error .tooDeep := by
  induction depth generalizing n with
  | zero => rfl
  | succ depth ih =>
    obtain ⟨n, rfl⟩ := Nat.exists_eq_succ_of_ne_zero (Nat.ne_of_gt (Nat.zero_lt_of_lt h))
    exact value_list_error (ih (Nat.le_of_succ_le_succ h))

theorem parse_tooDeep {n : Nat} (h : depthLimit < n) :
    parse (String.ofList (List.replicate n '[')) = .error .tooDeep := by
  obtain ⟨n, rfl⟩ := Nat.exists_eq_succ_of_ne_zero (Nat.ne_of_gt (Nat.zero_lt_of_lt h))
  have deep := value_tooDeep (Nat.le_of_lt_succ h)
  rw [parse, String.toList_ofList, List.replicate_succ, document, skipSpace_cons rfl, deep]
  · rfl
  · nofun

/-! ### Numbers -/

theorem digit_lt {c : Char} (h : isAsciiDigit c = true) : c.toNat - 48 < 10 := by
  simp only [isAsciiDigit, Bool.and_eq_true, decide_eq_true_eq] at h
  have : c.toNat ≤ '9'.toNat := h.2
  have : '9'.toNat = 57 := rfl
  omega

theorem digitsValue_lt {ds : List Char} (h : ∀ d ∈ ds, isAsciiDigit d = true) :
    digitsValue ds < 10 ^ ds.length := by
  -- With `n` read before, there are `n * 10 ^ length` more numbers below.
  have run (n : Nat) :
      ds.foldl (fun n d => n * 10 + (d.toNat - 48)) n < (n + 1) * 10 ^ ds.length := by
    induction ds generalizing n with
    | nil => simp
    | cons d rest ih =>
      obtain ⟨here, behind⟩ := List.forall_mem_cons.mp h
      calc rest.foldl _ (n * 10 + (d.toNat - 48))
          < (n * 10 + (d.toNat - 48) + 1) * 10 ^ rest.length := ih behind _
        _ ≤ (n + 1) * 10 * 10 ^ rest.length :=
          Nat.mul_le_mul_right _ (by have := digit_lt here; omega)
        _ = (n + 1) * 10 ^ (rest.length + 1) := by rw [Nat.pow_succ, Nat.mul_assoc, Nat.mul_comm 10]
  simpa [digitsValue] using run 0

theorem numeral?_isSome {n : Int} {digits : Nat} (positive : 0 < digits)
    (h : n.natAbs < 10 ^ digits) (short : digits ≤ digitLimit) : (numeral? n).isSome = true := by
  have length : (toString n.natAbs).length ≤ digits := Nat.repr_length _ _ positive h
  unfold numeral?
  rw [if_pos (Nat.le_trans length short)]
  rfl

theorem fraction_suffix (cs : List Char) : (fraction cs).2 <:+ cs := by
  unfold fraction
  split
  · split
    · exact List.suffix_refl _
    · exact (List.dropWhile_suffix _).trans (List.suffix_cons ..)
  · exact List.suffix_refl _

theorem power_suffix (cs : List Char) : (power cs).2 <:+ cs := by
  unfold power
  split
  · rename_i e rest
    split
    · split
      rename_i negative digits signed
      have sign : digits <:+ rest := by
        split at signed
        · cases signed
          exact List.suffix_cons ..
        · cases signed
          exact List.suffix_cons ..
        · cases signed
          exact List.suffix_refl _
      split
      · exact List.suffix_refl _
      · exact ((List.dropWhile_suffix _).trans sign).trans (List.suffix_cons ..)
    · exact List.suffix_refl _
  · exact List.suffix_refl _

/-- A scalar that is a number with a numeral. -/
def IsNumber (s : Scalar) : Prop := s.Writable ∧ ((∃ n, s = .int n) ∨ ∃ x, s = .float x)

/-- What is read without a sign is a number, in front of the rest. -/
theorem number_of_unsigned {negative : Bool} {cs rest : List Char} {v : Value}
    (h : unsigned negative cs = some (.ok v, rest)) :
    (∃ s, v = .scalar s ∧ IsNumber s) ∧ rest <:+ cs := by
  unfold unsigned at h
  extract_lets whole at h
  have digits : ∀ d ∈ whole, isAsciiDigit d = true := by
    unfold whole
    split
    · simp [isAsciiDigit]
    · exact fun d hd => List.mem_takeWhile_imp hd
  split at h
  · cases h
  · rename_i some_digits
    have front := fraction_suffix (cs.drop whole.length)
    split at h
    rename_i frac rest' broken
    have back := power_suffix rest'
    split at h
    rename_i pow rest'' powered
    rw [broken] at front
    rw [powered] at back
    have behind := (back.trans front).trans (List.drop_suffix ..)
    split at h
    · split at h
      · cases h
      · rename_i short
        cases h
        have below := digitsValue_lt digits
        refine ⟨⟨_, rfl, numeral?_isSome (List.length_pos_iff.mpr some_digits) ?_
          (Nat.not_lt.mp short), .inl ⟨_, rfl⟩⟩, behind⟩
        show (if negative = true then -(digitsValue whole : Int) else digitsValue whole).natAbs < _
        cases negative <;> simpa using below
    · cases h
      exact ⟨⟨_, rfl, trivial, .inr ⟨_, rfl⟩⟩, behind⟩

/-- An atom is a name or a number, in front of the rest. -/
theorem atom_cases {cs rest : List Char} {v : Value} (h : atom cs = .ok (v, rest)) :
    (∃ name, (name, v) ∈ named ∧ cs = name.toList ++ rest) ∨
      (∃ s, v = .scalar s ∧ IsNumber s) ∧ rest <:+ cs := by
  unfold atom at h
  split at h
  · rename_i r found
    cases h
    obtain ⟨⟨name, w⟩, listed, here⟩ := List.exists_of_findSome?_eq_some found
    obtain ⟨_, behind, same⟩ := Option.map_eq_some_iff.mp here
    cases same
    exact .inl ⟨name, listed, Text.after?_eq behind⟩
  · dsimp only at h
    split at h
    · rename_i found
      cases h
      split at found
      · obtain ⟨number, behind⟩ := number_of_unsigned found
        exact .inr ⟨number, behind.trans (List.suffix_cons ..)⟩
      · exact .inr (number_of_unsigned found)
    · cases h
    · cases h

theorem scalar_of_named {name : String} {v : Value} (h : (name, v) ∈ named) :
    ∃ s, v = .scalar s ∧ s.Writable := by
  simp only [named, List.mem_cons, Prod.mk.injEq, List.not_mem_nil, or_false] at h
  rcases h with ⟨-, rfl⟩ | ⟨-, rfl⟩ | ⟨-, rfl⟩ | ⟨-, rfl⟩ | ⟨-, rfl⟩ | ⟨-, rfl⟩ <;>
    exact ⟨_, rfl, trivial⟩

/-- An atom is a scalar that can be written. -/
theorem scalar_of_atom {cs rest : List Char} {v : Value} (h : atom cs = .ok (v, rest)) :
    ∃ s, v = .scalar s ∧ s.Writable := by
  rcases atom_cases h with ⟨name, listed, -⟩ | ⟨⟨s, same, number⟩, -⟩
  · exact scalar_of_named listed
  · exact ⟨s, same, number.1⟩

theorem suffix_of_atom {cs rest : List Char} {v : Value} (h : atom cs = .ok (v, rest)) :
    rest <:+ cs := by
  rcases atom_cases h with ⟨name, -, front⟩ | ⟨-, behind⟩
  · exact ⟨name.toList, front.symm⟩
  · exact behind

/-! ### Lengths of texts -/

/-- An escape does not end a text. -/
theorem escaped_ne_done (start : Nat) (cs rest : List Char) : escaped start cs ≠ .done rest := by
  intro h
  unfold escaped at h
  repeat' first
    | split at h
    | cases h

/-- Only a quote ends a text. -/
theorem eq_of_piece_done {start : Nat} {cs rest : List Char} (h : piece start cs = .done rest) :
    cs = '"' :: rest := by
  unfold piece at h
  split at h
  · cases h
  · cases h
    rfl
  · exact (escaped_ne_done _ _ _ h).elim
  · split at h <;> cases h

theorem fourHex?_suffix {cs rest : List Char} {n : Nat} (h : fourHex? cs = some (n, rest)) :
    rest <:+ cs := by
  unfold fourHex? at h
  split at h
  · simp only [bind, Option.bind_eq_some_iff, pure, Option.some.injEq, Prod.mk.injEq] at h
    obtain ⟨-, -, -, -, -, -, -, -, -, rfl⟩ := h
    exact ⟨[_, _, _, _], rfl⟩
  · cases h

/-- An escape begins with a letter that says what it stands for, or with the one for numbers. -/
theorem cases_of_escaped {start : Nat} {cs rest : List Char} {c : Char}
    (h : escaped start cs = .char c rest) :
    ∃ d more, cs = d :: more ∧ rest <:+ more ∧ (d = 'u' ∨ shortEscape? d = some c) := by
  unfold escaped at h
  split at h
  · cases h
  · rename_i hex
    refine ⟨'u', hex, rfl, ?_, .inl rfl⟩
    split at h
    · cases h
    · rename_i n more read
      have shorter := fourHex?_suffix read
      split at h
      · split at h
        · rename_i low
          split at h
          · cases h
            exact shorter
          · split at h
            · cases h
            · rename_i m last pair
              have second := fourHex?_suffix pair
              split at h
              · rw [← (Piece.char.inj h).2]
                exact (second.trans ⟨['\\', 'u'], rfl⟩).trans shorter
              · cases h
                exact shorter
        · cases h
          exact shorter
      · cases h
        exact shorter
  · rename_i d more _
    split at h
    · rename_i e short
      cases h
      exact ⟨d, rest, rfl, List.suffix_refl _, .inr short⟩
    · cases h

theorem length_lt_of_piece {start : Nat} {cs rest : List Char} {c : Char}
    (h : piece start cs = .char c rest) : rest.length < cs.length := by
  unfold piece at h
  split at h
  · cases h
  · cases h
  · obtain ⟨d, more, rfl, behind, -⟩ := cases_of_escaped h
    have := behind.length_le
    simp only [List.length_cons]
    omega
  · split at h
    · cases h
    · cases h
      exact Nat.lt_succ_self _

theorem length_of_textFrom {start fuel : Nat} {acc cs rest : List Char} {s : String}
    (h : textFrom start fuel acc cs = .ok (s, rest)) :
    s.length + rest.length < acc.length + cs.length := by
  induction fuel generalizing acc cs with
  | zero => cases h
  | succ fuel ih =>
    rw [textFrom] at h
    split at h
    · rename_i more ends
      cases h
      rw [eq_of_piece_done ends]
      simp
    · rename_i c more goesOn
      have here := length_lt_of_piece goesOn
      have behind := ih h
      rw [List.length_cons] at behind
      omega
    · cases h

/-- A text that was read is shorter than what it was read from. -/
theorem length_of_text {cs rest : List Char} {s : String} (h : text cs = .ok (s, rest)) :
    s.length + rest.length < cs.length := by
  simpa using length_of_textFrom h

/-! ### Containers -/

section Containers
variable {item : List Char → Read Value} {P : Value → Prop} {n : Nat}

/-- What is read from so many characters has a property, and no more characters are left. -/
def Reads (item : List Char → Read Value) (P : Value → Prop) (n : Nat) : Prop :=
  ∀ cs v rest, cs.length ≤ n → item cs = .ok (v, rest) → P v ∧ rest.length ≤ cs.length

/-! ### Lists -/

theorem itemsFrom_last {fuel : Nat} {acc : List Value} {cs more rest : List Char} {v : Value}
    (read : item cs = .ok (v, more)) (closed : skipSpace more = ']' :: rest) :
    itemsFrom item (fuel + 1) acc cs = .ok ((v :: acc).reverse, rest) := by
  rw [itemsFrom, read]
  simp only [bind, Except.bind, closed]
  rfl

theorem itemsFrom_comma {fuel : Nat} {acc : List Value} {cs more next : List Char} {v : Value}
    (read : item cs = .ok (v, more)) (comma : skipSpace more = ',' :: next) :
    itemsFrom item (fuel + 1) acc cs = itemsFrom item fuel (v :: acc) (skipSpace next) := by
  rw [itemsFrom, read]
  simp only [bind, Except.bind, comma]

theorem itemsFrom_refused {fuel : Nat} {acc : List Value} {cs : List Char} {f : Failure}
    (refused : item cs = .error f) : itemsFrom item (fuel + 1) acc cs = .error f := by
  rw [itemsFrom, refused]
  rfl

/-- An item that was read is the last one, or stands in front of a comma and further ones. -/
theorem itemsFrom_cases {fuel : Nat} {acc vs : List Value} {cs rest : List Char}
    (h : itemsFrom item (fuel + 1) acc cs = .ok (vs, rest)) :
    ∃ v more, item cs = .ok (v, more) ∧
      (skipSpace more = ']' :: rest ∧ vs = (v :: acc).reverse ∨
        ∃ next, skipSpace more = ',' :: next ∧
          itemsFrom item fuel (v :: acc) (skipSpace next) = .ok (vs, rest)) := by
  rw [itemsFrom] at h
  obtain ⟨⟨v, more⟩, read, h⟩ := bind_eq_ok.mp h
  refine ⟨v, more, read, ?_⟩
  dsimp only at h
  split at h
  · rename_i closed
    cases h
    exact .inl ⟨closed, rfl⟩
  · rename_i next comma
    exact .inr ⟨next, comma, h⟩
  · cases h

theorem itemsFrom_forall (each : Reads item P n) {fuel : Nat} {acc vs : List Value}
    {cs rest : List Char} (bound : cs.length ≤ n) (before : ∀ v ∈ acc, P v)
    (h : itemsFrom item fuel acc cs = .ok (vs, rest)) :
    (∀ v ∈ vs, P v) ∧ rest.length ≤ cs.length := by
  induction fuel generalizing acc cs with
  | zero => cases h
  | succ fuel ih =>
    obtain ⟨v, more, read, h⟩ := itemsFrom_cases h
    obtain ⟨here, less⟩ := each _ _ _ bound read
    have so_far : ∀ w ∈ v :: acc, P w := List.forall_mem_cons.mpr ⟨here, before⟩
    rcases h with ⟨closed, rfl⟩ | ⟨next, comma, h⟩
    · have last := length_lt_of_skipSpace closed
      exact ⟨fun w hw => so_far w (List.mem_reverse.mp hw), by omega⟩
    · have further := length_lt_of_skipSpace comma
      have blanks := length_skipSpace_le next
      obtain ⟨all, behind⟩ := ih (by omega) so_far h
      exact ⟨all, by omega⟩

/-- A list that is not closed at once begins with an item. -/
theorem items_of_ne {cs front : List Char} (skipped : skipSpace cs = front)
    (open_list : ∀ rest, front ≠ ']' :: rest) :
    items item cs = itemsFrom item (front.length + 1) [] front := by
  unfold items
  rw [skipped]
  split
  · exact absurd rfl (open_list _)
  · rfl

theorem items_forall (each : Reads item P n) {vs : List Value} {cs rest : List Char}
    (bound : cs.length ≤ n) (h : items item cs = .ok (vs, rest)) :
    (∀ v ∈ vs, P v) ∧ rest.length ≤ cs.length := by
  have blanks := length_skipSpace_le cs
  unfold items at h
  split at h
  · rename_i closed
    cases h
    exact ⟨List.forall_mem_nil _, Nat.le_of_lt (length_lt_of_skipSpace closed)⟩
  · obtain ⟨all, behind⟩ := itemsFrom_forall each (by omega) (List.forall_mem_nil _) h
    exact ⟨all, by omega⟩

/-! ### Mappings -/

/-- An entry that was read has a key in quotes and a colon behind it. -/
theorem exists_key {fuel : Nat} {acc : List (Scalar × Value)} {cs : List Char}
    {r : List (Scalar × Value) × List Char} (h : entriesFrom item (fuel + 1) acc cs = .ok r) :
    ∃ inside key rest more, cs = '"' :: inside ∧ text inside = .ok (key, rest) ∧
      skipSpace rest = ':' :: more := by
  unfold entriesFrom at h
  dsimp only at h
  split at h
  · rename_i inside
    obtain ⟨⟨key, rest⟩, named, h⟩ := bind_eq_ok.mp h
    dsimp only at h
    split at h
    · rename_i colon
      exact ⟨inside, key, rest, _, rfl, named, colon⟩
    · cases h
  · cases h

/-- What is read behind the key of an entry and its colon: its value, and the entries behind it. -/
def entryFrom (item : List Char → Read Value) (fuel : Nat) (acc : List (Scalar × Value))
    (key : String) (cs : List Char) : Except Failure (List (Scalar × Value) × List Char) := do
  let (v, rest) ← item cs
  let rest := skipSpace rest
  let acc := (.str key, v) :: acc
  match rest with
  | '}' :: rest => return (Entries.ofList acc.reverse, rest)
  | ',' :: rest => entriesFrom item fuel acc (skipSpace rest)
  | _ => failAt "Expecting ',' delimiter" rest

theorem entriesFrom_named {fuel : Nat} {acc : List (Scalar × Value)} {inside rest more : List Char}
    {key : String} (named : text inside = .ok (key, rest)) (colon : skipSpace rest = ':' :: more) :
    entriesFrom item (fuel + 1) acc ('"' :: inside) =
      entryFrom item fuel acc key (skipSpace more) := by
  rw [entriesFrom]
  simp only [named, colon, bind, Except.bind]
  rfl

section

variable {fuel : Nat} {acc es : List (Scalar × Value)} {key : String} {cs more next rest : List Char}
  {v : Value} {f : Failure}

theorem entryFrom_last (read : item cs = .ok (v, more)) (closed : skipSpace more = '}' :: rest) :
    entryFrom item fuel acc key cs =
      .ok (Entries.ofList ((.str key, v) :: acc).reverse, rest) := by
  rw [entryFrom, read]
  simp only [bind, Except.bind, closed]
  rfl

theorem entryFrom_comma (read : item cs = .ok (v, more)) (comma : skipSpace more = ',' :: next) :
    entryFrom item fuel acc key cs =
      entriesFrom item fuel ((.str key, v) :: acc) (skipSpace next) := by
  rw [entryFrom, read]
  simp only [bind, Except.bind, comma]

theorem entryFrom_refused (refused : item cs = .error f) :
    entryFrom item fuel acc key cs = .error f := by
  rw [entryFrom, refused]
  rfl

/-- The value of an entry that was read is the last one, or stands in front of a comma and further
entries. -/
theorem entryFrom_cases (h : entryFrom item fuel acc key cs = .ok (es, rest)) :
    ∃ v more, item cs = .ok (v, more) ∧
      (skipSpace more = '}' :: rest ∧ es = Entries.ofList ((.str key, v) :: acc).reverse ∨
        ∃ next, skipSpace more = ',' :: next ∧
          entriesFrom item fuel ((.str key, v) :: acc) (skipSpace next) = .ok (es, rest)) := by
  obtain ⟨⟨v, more⟩, read, h⟩ := bind_eq_ok.mp h
  refine ⟨v, more, read, ?_⟩
  dsimp only at h
  split at h
  · rename_i closed
    cases h
    exact .inl ⟨closed, rfl⟩
  · rename_i next comma
    exact .inr ⟨next, comma, h⟩
  · cases h

end

/-- The keys of a mapping that was read are texts, each of them once. -/
theorem entriesFrom_fields (each : Reads item P n) {fuel : Nat} {es : List (Scalar × Value)}
    {cs rest : List Char} (bound : cs.length ≤ n) (before : List (String × Value))
    (so_far : ∀ e ∈ before, P e.2)
    (h : entriesFrom item fuel (before.map fun e => (.str e.1, e.2)) cs = .ok (es, rest)) :
    (∃ fields : List (String × Value), es = fields.map (fun e => (.str e.1, e.2)) ∧
      (Entries.keys fields).Nodup ∧ ∀ e ∈ fields, P e.2) ∧ rest.length ≤ cs.length := by
  induction fuel generalizing before cs with
  | zero => cases h
  | succ fuel ih =>
    obtain ⟨inside, key, behindKey, behindColon, rfl, named, colon⟩ := exists_key h
    rw [entriesFrom_named named colon] at h
    obtain ⟨v, more, read, h⟩ := entryFrom_cases h
    have inQuotes := length_of_text named
    have colons := length_lt_of_skipSpace colon
    have blanks := length_skipSpace_le behindColon
    rw [List.length_cons] at bound ⊢
    obtain ⟨here, less⟩ := each _ _ _ (by omega) read
    have so_far : ∀ e ∈ (key, v) :: before, P e.2 := List.forall_mem_cons.mpr ⟨here, so_far⟩
    rcases h with ⟨closed, rfl⟩ | ⟨next, comma, h⟩
    · have last := length_lt_of_skipSpace closed
      refine ⟨⟨Entries.ofList ((key, v) :: before).reverse, ?_, Entries.keys_nodup_ofList _, ?_⟩,
        by omega⟩
      · have whole := Entries.ofList_map Scalar.str_beq id ((key, v) :: before).reverse
        rwa [List.map_reverse, List.map_cons] at whole
      · exact fun e there => so_far e (List.mem_reverse.mp (Entries.mem_of_mem_ofList there))
    · have further := length_lt_of_skipSpace comma
      have skipped := length_skipSpace_le next
      obtain ⟨all, behind⟩ := ih (by omega) ((key, v) :: before) so_far h
      exact ⟨all, by omega⟩

/-- A mapping that is not closed at once begins with an entry. -/
theorem entries_of_ne {cs front : List Char} (skipped : skipSpace cs = front)
    (open_map : ∀ rest, front ≠ '}' :: rest) :
    entries item cs = entriesFrom item (front.length + 1) [] front := by
  unfold entries
  rw [skipped]
  split
  · exact absurd rfl (open_map _)
  · rfl

theorem entries_fields (each : Reads item P n) {es : List (Scalar × Value)} {cs rest : List Char}
    (bound : cs.length ≤ n) (h : entries item cs = .ok (es, rest)) :
    (∃ fields : List (String × Value), es = fields.map (fun e => (.str e.1, e.2)) ∧
      (Entries.keys fields).Nodup ∧ ∀ e ∈ fields, P e.2) ∧ rest.length ≤ cs.length := by
  have blanks := length_skipSpace_le cs
  unfold entries at h
  split at h
  · rename_i closed
    cases h
    exact ⟨⟨[], rfl, List.nodup_nil, nofun⟩, Nat.le_of_lt (length_lt_of_skipSpace closed)⟩
  · obtain ⟨all, behind⟩ := entriesFrom_fields each (by omega) [] (List.forall_mem_nil _) h
    exact ⟨all, by omega⟩

end Containers

/-- Two braces in a row begin no value. -/
theorem value_braces (depth : Nat) (cs : List Char) (r : Value × List Char) :
    value depth ('{' :: '{' :: cs) ≠ .ok r := by
  cases depth with
  | zero => exact nofun
  | succ depth =>
    intro read
    obtain ⟨es, inside, -⟩ := map_eq_ok.mp read
    have skip : skipSpace ('{' :: cs) = '{' :: cs := skipSpace_cons rfl cs
    rw [entries_of_ne skip (fun rest same => by cases same)] at inside
    obtain ⟨_, _, _, _, opens, -⟩ := exists_key inside
    cases opens

/-- What holds of scalars and of containers of what it holds of, holds of every value that was read
from so many characters. -/
structure Readable (P : Nat → Nat → Value → Prop) : Prop where
  text {depth n : Nat} {s : String} (short : s.length + 2 ≤ n) : P depth n (.str s)
  atom {depth n : Nat} {cs rest : List Char} {v : Value} (h : atom cs = .ok (v, rest)) : P depth n v
  list {depth n : Nat} {vs : List Value} (h : ∀ v ∈ vs, P depth n v) : P (depth + 1) n (.list vs)
  record {depth n : Nat} {fields : List (String × Value)} (distinct : (Entries.keys fields).Nodup)
    (h : ∀ e ∈ fields, P depth n e.2) : P (depth + 1) n (.record fields)

namespace Readable

variable {P : Nat → Nat → Value → Prop}

theorem value (h : Readable P) (depth n : Nat) : Reads (value depth) (P depth n) n := by
  have inQuotes {depth : Nat} {cs rest : List Char} {v : Value} (bound : ('"' :: cs).length ≤ n)
      (read : (Json.text cs).map (fun p => (Value.str p.1, p.2)) = .ok (v, rest)) :
      P depth n v ∧ rest.length ≤ ('"' :: cs).length := by
    obtain ⟨⟨s, rest⟩, inside, same⟩ := map_eq_ok.mp read
    cases same
    have length := length_of_text inside
    rw [List.length_cons] at bound ⊢
    have short : s.length + 2 ≤ n := by omega
    exact ⟨h.text short, show rest.length ≤ _ by omega⟩
  have atoms {depth : Nat} {cs rest : List Char} {v : Value} (read : Json.atom cs = .ok (v, rest)) :
      P depth n v ∧ rest.length ≤ cs.length := ⟨h.atom read, (suffix_of_atom read).length_le⟩
  intro cs v rest bound read
  induction depth generalizing cs v rest with
  | zero =>
    unfold Json.value at read
    split at read
    · exact inQuotes bound read
    · cases read
    · cases read
    · exact atoms read
  | succ depth ih =>
    unfold Json.value at read
    split at read
    · exact inQuotes bound read
    · obtain ⟨⟨vs, rest⟩, inside, same⟩ := map_eq_ok.mp read
      cases same
      rw [List.length_cons] at bound ⊢
      obtain ⟨each, less⟩ := items_forall ih (Nat.le_of_succ_le bound) inside
      exact ⟨h.list each, Nat.le_succ_of_le less⟩
    · obtain ⟨⟨es, rest⟩, inside, same⟩ := map_eq_ok.mp read
      cases same
      rw [List.length_cons] at bound ⊢
      obtain ⟨⟨fields, rfl, distinct, each⟩, less⟩ :=
        entries_fields ih (Nat.le_of_succ_le bound) inside
      exact ⟨h.record distinct each, Nat.le_succ_of_le less⟩
    · exact atoms read

theorem parse (h : Readable P) {s : String} {v : Value} (read : parse s = .ok v) :
    P depthLimit s.length v := by
  have whole := parse_eq_ok.mp read
  have length : s.toList.length = s.length := String.length_toList
  unfold document at whole
  split at whole
  · cases whole
  · obtain ⟨⟨w, rest⟩, inside, whole⟩ := bind_eq_ok.mp whole
    have bound := length_skipSpace_le s.toList
    rw [length] at bound
    dsimp only at whole
    split at whole
    · cases whole
      exact (h.value depthLimit s.length _ _ _ bound inside).1
    · cases whole

end Readable

theorem readable_writable : Readable fun _ _ v => v.Writable where
  text _ := .scalar trivial
  atom h := by
    obtain ⟨s, rfl, written⟩ := scalar_of_atom h
    exact .scalar written
  list h := .list h
  record _ h := .map (List.forall_mem_map.mpr fun _ _ => trivial) (List.forall_mem_map.mpr h)

/-- What was read as data text can be written as data text. -/
theorem writable_of_parse {s : String} {v : Value} (h : parse s = .ok v) : v.Writable :=
  readable_writable.parse h

/-! ### Text in quotes -/

theorem hexValue?_hexDigit {n : Nat} (h : n < 16) : hexValue? (Text.hexDigit n) = some n := by
  interval_cases n <;> rfl

theorem exists_of_mem_hex {width n : Nat} {c : Char} (h : c ∈ Text.hex width n) :
    ∃ d < 16, c = Text.hexDigit d := by
  induction width generalizing n with
  | zero => cases h
  | succ width ih =>
    rcases List.mem_append.mp h with before | last
    · exact ih before
    · exact ⟨n % 16, Nat.mod_lt _ (by decide), List.mem_singleton.mp last⟩

theorem fourHex?_hex {n : Nat} (h : n < 65536) (next : Char) (rest : List Char) :
    fourHex? (Text.hex 4 n ++ next :: rest) = some (n, next :: rest) := by
  have digit (m : Nat) : hexValue? (Text.hexDigit (m % 16)) = some (m % 16) :=
    hexValue?_hexDigit (Nat.mod_lt _ (by decide))
  have sum :
      ((n / 16 / 16 / 16 % 16 * 16 + n / 16 / 16 % 16) * 16 + n / 16 % 16) * 16 + n % 16 = n := by
    omega
  simp [Text.hex, fourHex?, digit, sum]

/-- What is written for a character is read as that character; a number in hexadecimal digits
needs something behind it. -/
theorem piece_escape (start : Nat) (c next : Char) (rest : List Char) :
    piece start (escape c ++ next :: rest) = .char c (next :: rest) := by
  unfold escape
  split
  iterate 7 rfl
  split
  · rename_i control
    have small : c.toNat < 0xD800 := Nat.lt_trans control (by decide)
    have whole : isHighHalf c.toNat = false ∧ isLowHalf c.toNat = false := by
      simp only [isHighHalf, isLowHalf, Bool.and_eq_false_imp, decide_eq_true_eq,
        decide_eq_false_iff_not]
      omega
    show escaped start ('u' :: (Text.hex 4 c.toNat ++ next :: rest)) = _
    simp [escaped, fourHex?_hex (Nat.lt_trans small (by decide)), whole, unit]
  · rename_i noQuote noBackslash _ _ _ _ _ printable
    rw [List.singleton_append, piece]
    · exact if_neg printable
    · exact noQuote
    · exact noBackslash

/-- Escaped characters are read as what they are escaped from, if there is something behind them. -/
theorem textFrom_escaped (start fuel : Nat) (acc cs : List Char) {rest : List Char}
    (some_rest : rest ≠ []) :
    textFrom start (cs.length + fuel) acc (escapeAll cs ++ rest) =
      textFrom start fuel (cs.reverse ++ acc) rest := by
  induction cs generalizing acc with
  | nil => rw [List.length_nil, Nat.zero_add]; rfl
  | cons c cs ih =>
    obtain ⟨next, more, behind⟩ : ∃ next more, escapeAll cs ++ rest = next :: more :=
      List.exists_cons_of_ne_nil (List.append_ne_nil_of_right_ne_nil _ some_rest)
    have step : textFrom start (cs.length + fuel + 1) acc (escapeAll (c :: cs) ++ rest) =
        textFrom start (cs.length + fuel) (c :: acc) (escapeAll cs ++ rest) := by
      rw [textFrom, escapeAll, List.flatMap_cons, List.append_assoc, ← escapeAll, behind,
        piece_escape]
    rw [List.length_cons, Nat.add_right_comm, step, ih, List.reverse_cons, List.append_assoc]
    rfl

theorem length_escapeAll (cs : List Char) : cs.length ≤ (escapeAll cs).length := by
  induction cs with
  | nil => exact Nat.le_refl _
  | cons c cs ih =>
    have one : 1 ≤ (escape c).length := by unfold escape; split <;> (try split) <;> simp
    rw [escapeAll, List.flatMap_cons, List.length_append, ← escapeAll, List.length_cons]
    omega

/-- A text written inside quotes is read back as itself. -/
theorem text_escapeAll (s : String) (rest : List Char) :
    text (escapeAll s.toList ++ '"' :: rest) = .ok (s, rest) := by
  have enough := length_escapeAll s.toList
  obtain ⟨fuel, length⟩ : ∃ fuel, (escapeAll s.toList ++ '"' :: rest).length + 1 =
      s.toList.length + (fuel + 1) := by
    refine ⟨(escapeAll s.toList ++ '"' :: rest).length - s.toList.length, ?_⟩
    rw [List.length_append, List.length_cons]
    omega
  rw [text, length, textFrom_escaped _ _ _ _ (List.cons_ne_nil _ _), textFrom, piece]
  simp

end Runbook.Json
