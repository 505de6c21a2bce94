import Runbook.Proofs.Json.Unfinished

/-! The weight of data text.

A value has many data texts: a character can be escaped in more than one way, a number spelled
differently, a key written twice. `burden` weighs characters so that none of this makes a text
lighter: what is read never weighs more than the text it is read from (`weight_of_value`), and the
compact text of a value weighs no more than the value (`weight_write_le`). So a piece of a compact
text that leaves out a backtick is not a text of the same value (`parse_ne_of_lighter`). -/
namespace Runbook.Json

/-! ### Characters -/

/-- A backtick weighs as much as the backslash and the letter that begin the escape for it. -/
def burden (c : Char) : Nat := if c = '`' then 2 else if c = '\\' || c = 'u' then 1 else 0

def weight (cs : List Char) : Nat := (cs.map burden).sum

@[simp] theorem weight_nil : weight [] = 0 := rfl

@[simp] theorem weight_cons (c : Char) (cs : List Char) : weight (c :: cs) = burden c + weight cs := rfl

@[simp] theorem weight_append (cs ds : List Char) : weight (cs ++ ds) = weight cs + weight ds := by
  simp [weight]

theorem weight_le_of_sublist {cs ds : List Char} (h : cs.Sublist ds) : weight cs ≤ weight ds := by
  induction h with
  | slnil => exact Nat.le_refl _
  | cons d _ ih => exact Nat.le_trans ih (Nat.le_add_left ..)
  | cons_cons d _ ih => exact Nat.add_le_add_left ih _

theorem weight_le_of_suffix {cs ds : List Char} (h : cs <:+ ds) : weight cs ≤ weight ds :=
  weight_le_of_sublist h.sublist

theorem weight_eq_zero {cs : List Char} (h : ∀ c ∈ cs, burden c = 0) : weight cs = 0 :=
  List.sum_eq_zero (List.forall_mem_map.mpr h)

theorem burden_of_mem_numberMarks : ∀ c ∈ numberMarks, burden c = 0 := fun c there =>
  eq_of_beq (List.all_eq_true.mp (show numberMarks.all (burden · == 0) = true by decide) c there)

theorem burden_of_isAsciiDigit {c : Char} (h : isAsciiDigit c = true) : burden c = 0 := by
  have other {d : Char} (no : isAsciiDigit d = false) : c ≠ d := by
    rintro rfl
    cases h.symm.trans no
  simp [burden, other (d := '`') rfl, other (d := '\\') rfl, other (d := 'u') rfl]

theorem weight_hex (width n : Nat) : weight (Text.hex width n) = 0 := by
  induction width generalizing n with
  | zero => rfl
  | succ width ih =>
    have digit : burden (Text.hexDigit (n % 16)) = 0 := by
      have small := Nat.mod_lt n (show 0 < 16 by decide)
      interval_cases n % 16 <;> rfl
    rw [Text.hex, weight_append, ih, weight_cons, digit, weight_nil]

/-- No escape weighs more than the longest one begins with. -/
theorem weight_escape_le (c : Char) : weight (escape c) ≤ 2 := by
  unfold escape
  split
  iterate 7 decide
  split
  · simp [weight_hex, burden]
  · simp only [weight_cons, weight_nil, burden]
    split
    · decide
    · split <;> decide

/-- What is not escaped weighs what it weighs. -/
theorem weight_escape_le_burden {c : Char} (printable : ¬ c.toNat < 32) (noQuote : c ≠ '"')
    (noBackslash : c ≠ '\\') : weight (escape c) ≤ burden c := by
  unfold escape
  split
  · exact absurd rfl noQuote
  · exact absurd rfl noBackslash
  iterate 5 exact absurd (by decide) printable
  rw [if_neg printable]
  exact Nat.le_refl _

theorem weight_escapeAll_cons (c : Char) (cs : List Char) :
    weight (escapeAll (c :: cs)) = weight (escape c) + weight (escapeAll cs) := by
  rw [escapeAll, List.flatMap_cons, weight_append, ← escapeAll]

theorem weight_escapeAll_append (cs ds : List Char) :
    weight (escapeAll (cs ++ ds)) = weight (escapeAll cs) + weight (escapeAll ds) := by
  rw [escapeAll, List.flatMap_append, weight_append, ← escapeAll, ← escapeAll]

/-! ### Values -/

end Json

/-- What the text of a scalar weighs. -/
def Scalar.weight : Scalar → Nat
  | .null => 1
  | .bool b => if b then 1 else 0
  | .str s => Json.weight (Json.escapeAll s.toList)
  | _ => 0

mutual

/-- What the scalars in a value weigh, and its keys. -/
def Value.weight : Value → Nat
  | .scalar s => s.weight
  | .list items => Value.weightOfItems items
  | .map entries => Value.weightOfEntries entries

def Value.weightOfItems : List Value → Nat
  | [] => 0
  | v :: rest => v.weight + Value.weightOfItems rest

def Value.weightOfEntries : List (Scalar × Value) → Nat
  | [] => 0
  | (k, v) :: rest => k.weight + v.weight + Value.weightOfEntries rest

end

namespace Value

theorem weightOfItems_append (vs ws : List Value) :
    weightOfItems (vs ++ ws) = weightOfItems vs + weightOfItems ws := by
  induction vs with
  | nil => simp [weightOfItems]
  | cons v vs ih => simp only [List.cons_append, weightOfItems, ih, Nat.add_assoc]

theorem weightOfItems_reverse (vs : List Value) : weightOfItems vs.reverse = weightOfItems vs := by
  induction vs with
  | nil => rfl
  | cons v vs ih =>
    rw [List.reverse_cons, weightOfItems_append, ih]
    simp only [weightOfItems]
    omega

theorem weightOfEntries_append (es fs : List (Scalar × Value)) :
    weightOfEntries (es ++ fs) = weightOfEntries es + weightOfEntries fs := by
  induction es with
  | nil => simp [weightOfEntries]
  | cons e es ih => simp only [List.cons_append, weightOfEntries, ih, Nat.add_assoc]

theorem weightOfEntries_reverse (es : List (Scalar × Value)) :
    weightOfEntries es.reverse = weightOfEntries es := by
  induction es with
  | nil => rfl
  | cons e es ih =>
    rw [List.reverse_cons, weightOfEntries_append, ih]
    simp only [weightOfEntries]
    omega

theorem weightOfEntries_insert_le (k : Scalar) (v : Value) (es : List (Scalar × Value)) :
    weightOfEntries (Entries.insert k v es) ≤ weightOfEntries es + (k.weight + v.weight) := by
  induction es with
  | nil => simp [Entries.insert, weightOfEntries]
  | cons e es ih =>
    rw [Entries.insert]
    split <;> simp only [weightOfEntries] <;> omega

/-- A key that comes twice is counted once. -/
theorem weightOfEntries_merge_le (es more : List (Scalar × Value)) :
    weightOfEntries (Entries.merge es more) ≤ weightOfEntries es + weightOfEntries more := by
  induction more generalizing es with
  | nil => simp [Entries.merge, weightOfEntries]
  | cons e more ih =>
    have first := weightOfEntries_insert_le e.1 e.2 es
    have rest := ih (Entries.insert e.1 e.2 es)
    simp only [Entries.merge, List.foldl_cons, weightOfEntries] at rest ⊢
    omega

end Value

namespace Json

/-! ### Writing -/

/-- What was written weighs no more than `n`. -/
def Written.Within (n : Nat) (w : Written) : Prop := weight w.text ≤ n

namespace Written.Within

variable {m n : Nat} {a b : Written}

theorem append (ha : a.Within m) (hb : b.Within n) : (a ++ b).Within (m + n) := by
  show (Written.append a b).Within (m + n)
  unfold Written.append
  split
  · show weight (a.text ++ b.text) ≤ m + n
    rw [weight_append]
    exact Nat.add_le_add ha hb
  · exact Nat.le_trans ha (Nat.le_add_right ..)

theorem quote (s : String) : (Written.ok (Json.quote s)).Within (weight (escapeAll s.toList)) := by
  simp [Within, ok, Json.quote, burden]

theorem scalar (s : Scalar) : (writeScalar s).Within s.weight := by
  by_cases number : (∃ n, s = .int n) ∨ ∃ x, s = .float x
  · unfold Within
    by_cases h : s.Writable
    · have light := forall_mem_number (fun _ => burden_of_isAsciiDigit) burden_of_mem_numberMarks
        ⟨h, number⟩
      rw [weight_eq_zero light]
      exact Nat.zero_le _
    · rw [text_writeScalar_of_refused fun written => h ((writeScalar_refused s).mp written)]
      exact Nat.zero_le _
  · cases s with
    | null => exact Nat.le_refl 1
    | bool b => cases b <;> exact Nat.le_refl _
    | int n => exact absurd (.inl ⟨n, rfl⟩) number
    | float x => exact absurd (.inr ⟨x, rfl⟩) number
    | str s => exact quote s
    | bytes => exact Nat.zero_le _
    | moment => exact Nat.zero_le _

theorem key (k : Scalar) : (writeKey k).Within k.weight := by
  unfold writeKey
  split
  · exact quote _
  · dsimp only
    split
    · simpa [Within, ok, burden] using scalar k
    · exact Nat.zero_le _

mutual

/-- The compact text of a value weighs no more than the value. -/
theorem write (level : Nat) : (v : Value) → (write compact level v).Within v.weight
  | .scalar s => by
    rw [Json.write]
    exact scalar s
  | .list [] => by
    rw [Json.write]
    exact Nat.zero_le _
  | .map [] => by
    rw [Json.write]
    exact Nat.zero_le _
  | .list (v :: rest) => by
    have bracket : (Written.ok ('[' :: newline compact (level + 1))).Within 0 := Nat.le_refl 0
    rw [Json.write, Value.weight, Value.weightOfItems, ← Nat.zero_add v.weight]
    exact (bracket.append (write (level + 1) v)).append (items level rest)
  | .map ((k, v) :: rest) => by
    have brace : (Written.ok ('{' :: newline compact (level + 1))).Within 0 := Nat.le_refl 0
    have colon : (Written.ok compact.colon.toList).Within 0 := Nat.le_refl 0
    rw [Json.write, Value.weight, Value.weightOfEntries, ← Nat.zero_add k.weight,
      ← Nat.add_zero (0 + k.weight)]
    exact (((brace.append (key k)).append colon).append (write (level + 1) v)).append
      (entries level rest)

theorem items (level : Nat) :
    (vs : List Value) → (writeItems compact level vs).Within (Value.weightOfItems vs)
  | [] => by
    rw [writeItems]
    exact Nat.zero_le _
  | v :: rest => by
    have comma : (Written.ok (compact.comma.toList ++ newline compact (level + 1))).Within 0 :=
      Nat.le_refl 0
    rw [writeItems, Value.weightOfItems, ← Nat.zero_add v.weight]
    exact (comma.append (write (level + 1) v)).append (items level rest)

theorem entries (level : Nat) :
    (es : List (Scalar × Value)) → (writeEntries compact level es).Within (Value.weightOfEntries es)
  | [] => by
    rw [writeEntries]
    exact Nat.zero_le _
  | (k, v) :: rest => by
    have comma : (Written.ok (compact.comma.toList ++ newline compact (level + 1))).Within 0 :=
      Nat.le_refl 0
    have colon : (Written.ok compact.colon.toList).Within 0 := Nat.le_refl 0
    rw [writeEntries]
    split
    · exact Nat.zero_le _
    · rw [Value.weightOfEntries, ← Nat.zero_add k.weight, ← Nat.add_zero (0 + k.weight)]
      exact (((comma.append (key k)).append colon).append (write (level + 1) v)).append
        (entries level rest)

end

end Written.Within

/-! ### Reading text -/

/-- An escape weighs as much as what it stands for, its backslash included. -/
theorem weight_of_escaped {start : Nat} {cs rest : List Char} {c : Char}
    (h : escaped start cs = .char c rest) : weight (escape c) + weight rest ≤ 1 + weight cs := by
  obtain ⟨d, more, rfl, behind, rfl | short⟩ := cases_of_escaped h
  · have whole := weight_escape_le c
    have letter : burden 'u' = 1 := rfl
    have less := weight_le_of_suffix behind
    rw [weight_cons]
    omega
  · have light : weight (escape c) ≤ 1 + burden d := by
      unfold shortEscape? at short
      split at short <;> cases short <;> decide
    have less := weight_le_of_suffix behind
    rw [weight_cons]
    omega

theorem weight_of_piece_char {start : Nat} {cs rest : List Char} {c : Char}
    (h : piece start cs = .char c rest) : weight (escape c) + weight rest ≤ weight cs := by
  unfold piece at h
  split at h
  · cases h
  · cases h
  · exact weight_of_escaped h
  · rename_i noQuote noBackslash
    split at h
    · cases h
    · rename_i printable
      cases h
      exact Nat.add_le_add_right (weight_escape_le_burden printable noQuote noBackslash) _

/-- A text that was read weighs no more between quotes than where it was read. -/
theorem weight_of_textFrom {start fuel : Nat} {acc cs rest : List Char} {s : String}
    (h : textFrom start fuel acc cs = .ok (s, rest)) :
    weight (escapeAll s.toList) + weight rest ≤ weight (escapeAll acc.reverse) + weight cs := by
  induction fuel generalizing acc cs with
  | zero => cases h
  | succ fuel ih =>
    rw [textFrom] at h
    split at h
    · rename_i more ends
      cases h
      rw [String.toList_ofList, eq_of_piece_done ends, weight_cons]
      exact Nat.add_le_add_left (Nat.le_add_left ..) _
    · rename_i c more goesOn
      have here := weight_of_piece_char goesOn
      have behind := ih h
      rw [List.reverse_cons, weight_escapeAll_append, weight_escapeAll_cons] at behind
      simp only [escapeAll, List.flatMap_nil, weight_nil] at behind here ⊢
      omega
    · cases h

theorem weight_of_text {cs rest : List Char} {s : String} (h : text cs = .ok (s, rest)) :
    weight (escapeAll s.toList) + weight rest ≤ weight cs := by
  have read := weight_of_textFrom h
  have empty : weight (escapeAll []) = 0 := rfl
  rwa [List.reverse_nil, empty, Nat.zero_add] at read

/-! ### Reading numbers and names -/

theorem weight_of_named {name : String} {v : Value} (h : (name, v) ∈ named) :
    v.weight ≤ weight name.toList := by
  simp only [named, List.mem_cons, Prod.mk.injEq, List.not_mem_nil, or_false] at h
  rcases h with ⟨rfl, rfl⟩ | ⟨rfl, rfl⟩ | ⟨rfl, rfl⟩ | ⟨rfl, rfl⟩ | ⟨rfl, rfl⟩ | ⟨rfl, rfl⟩ <;>
    simp [Value.weight, Scalar.weight, burden]

theorem weight_of_atom {cs rest : List Char} {v : Value} (h : atom cs = .ok (v, rest)) :
    v.weight + weight rest ≤ weight cs := by
  rcases atom_cases h with ⟨name, listed, front⟩ | ⟨⟨s, rfl, -, number⟩, behind⟩
  · rw [front, weight_append]
    exact Nat.add_le_add_right (weight_of_named listed) _
  · have light : (Value.scalar s).weight = 0 := by
      rcases number with ⟨n, rfl⟩ | ⟨x, rfl⟩ <;> rfl
    rw [light, Nat.zero_add]
    exact weight_le_of_suffix behind

/-! ### Reading containers -/

theorem weight_skipSpace_le (cs : List Char) : weight (skipSpace cs) ≤ weight cs :=
  weight_le_of_suffix (List.dropWhile_suffix _)

section Containers
variable {item : List Char → Read Value}

theorem weight_of_itemsFrom
    (each : ∀ cs v rest, item cs = .ok (v, rest) → v.weight + weight rest ≤ weight cs) {fuel : Nat}
    {acc vs : List Value} {cs rest : List Char} (h : itemsFrom item fuel acc cs = .ok (vs, rest)) :
    Value.weightOfItems vs + weight rest ≤ Value.weightOfItems acc + weight cs := by
  induction fuel generalizing acc cs with
  | zero => cases h
  | succ fuel ih =>
    obtain ⟨v, more, read, h⟩ := itemsFrom_cases h
    have here := each _ _ _ read
    have blanks := weight_skipSpace_le more
    rcases h with ⟨closed, rfl⟩ | ⟨next, comma, h⟩
    · rw [closed, weight_cons] at blanks
      rw [Value.weightOfItems_reverse, Value.weightOfItems]
      omega
    · have behind := ih h
      have passed := weight_skipSpace_le next
      rw [comma, weight_cons] at blanks
      rw [Value.weightOfItems] at behind
      omega

theorem weight_of_items
    (each : ∀ cs v rest, item cs = .ok (v, rest) → v.weight + weight rest ≤ weight cs)
    {vs : List Value} {cs rest : List Char} (h : items item cs = .ok (vs, rest)) :
    Value.weightOfItems vs + weight rest ≤ weight cs := by
  have blanks := weight_skipSpace_le cs
  unfold items at h
  split at h
  · rename_i closed
    cases h
    rw [closed, weight_cons] at blanks
    rw [Value.weightOfItems]
    omega
  · have read := weight_of_itemsFrom each h
    rw [Value.weightOfItems] at read
    omega

theorem weight_of_entriesFrom
    (each : ∀ cs v rest, item cs = .ok (v, rest) → v.weight + weight rest ≤ weight cs) {fuel : Nat}
    {acc es : List (Scalar × Value)} {cs rest : List Char}
    (h : entriesFrom item fuel acc cs = .ok (es, rest)) :
    Value.weightOfEntries es + weight rest ≤ Value.weightOfEntries acc + weight cs := by
  induction fuel generalizing acc cs with
  | zero => cases h
  | succ fuel ih =>
    obtain ⟨inside, key, behindKey, behindColon, rfl, named, colon⟩ := exists_key h
    rw [entriesFrom_named named colon] at h
    obtain ⟨v, more, read, h⟩ := entryFrom_cases h
    have inQuotes := weight_of_text named
    have blanks := weight_skipSpace_le behindKey
    have here := each _ _ _ read
    have passed := weight_skipSpace_le behindColon
    have after := weight_skipSpace_le more
    rw [colon, weight_cons] at blanks
    rw [weight_cons]
    have entry : Value.weightOfEntries ((.str key, v) :: acc) =
        weight (escapeAll key.toList) + v.weight + Value.weightOfEntries acc := by
      rw [Value.weightOfEntries]
      rfl
    rcases h with ⟨closed, rfl⟩ | ⟨next, comma, h⟩
    · have kept := Value.weightOfEntries_merge_le [] ((.str key, v) :: acc).reverse
      rw [Value.weightOfEntries_reverse, Value.weightOfEntries, Nat.zero_add, entry] at kept
      rw [closed, weight_cons] at after
      rw [Entries.ofList]
      omega
    · have behind := ih h
      have skipped := weight_skipSpace_le next
      rw [comma, weight_cons] at after
      rw [entry] at behind
      omega

theorem weight_of_entries
    (each : ∀ cs v rest, item cs = .ok (v, rest) → v.weight + weight rest ≤ weight cs)
    {es : List (Scalar × Value)} {cs rest : List Char} (h : entries item cs = .ok (es, rest)) :
    Value.weightOfEntries es + weight rest ≤ weight cs := by
  have blanks := weight_skipSpace_le cs
  unfold entries at h
  split at h
  · rename_i closed
    cases h
    rw [closed, weight_cons] at blanks
    rw [Value.weightOfEntries]
    omega
  · have read := weight_of_entriesFrom each h
    rw [Value.weightOfEntries] at read
    omega

end Containers

theorem weight_of_quoted {cs rest : List Char} {v : Value}
    (h : (text cs).map (fun (s, rest) => (Value.str s, rest)) = .ok (v, rest)) :
    v.weight + weight rest ≤ burden '"' + weight cs := by
  obtain ⟨⟨s, rest⟩, read, same⟩ := map_eq_ok.mp h
  cases same
  exact Nat.le_trans (weight_of_text read) (Nat.le_add_left ..)

/-- A value that was read weighs no more than the text it was read from. -/
theorem weight_of_value {depth : Nat} {cs rest : List Char} {v : Value}
    (h : value depth cs = .ok (v, rest)) : v.weight + weight rest ≤ weight cs := by
  induction depth generalizing cs rest v with
  | zero =>
    unfold value at h
    split at h
    · exact weight_of_quoted h
    · cases h
    · cases h
    · exact weight_of_atom h
  | succ depth ih =>
    unfold value at h
    split at h
    · exact weight_of_quoted h
    · obtain ⟨⟨vs, rest⟩, inside, same⟩ := map_eq_ok.mp h
      cases same
      exact Nat.le_trans (weight_of_items (fun _ _ _ => ih) inside) (Nat.le_add_left ..)
    · obtain ⟨⟨es, rest⟩, inside, same⟩ := map_eq_ok.mp h
      cases same
      exact Nat.le_trans (weight_of_entries (fun _ _ _ => ih) inside) (Nat.le_add_left ..)
    · exact weight_of_atom h

theorem weight_of_document {cs : List Char} {v : Value} (h : document cs = .ok v) :
    v.weight ≤ weight cs := by
  have blanks := weight_skipSpace_le cs
  unfold document at h
  split at h
  · cases h
  · obtain ⟨⟨w, rest⟩, inside, h⟩ := bind_eq_ok.mp h
    have read := weight_of_value inside
    dsimp only at h
    split at h
    · cases h
      omega
    · cases h

/-- A text lighter than the compact text of a value is not read as that value. -/
theorem parse_ne_of_lighter {v : Value} {whole part : String} (rendered : render compact v = .ok whole)
    (lighter : weight part.toList < weight whole.toList) : parse part ≠ .ok v := by
  intro read
  have written := Written.Within.write 0 v
  unfold render at rendered
  dsimp only at rendered
  split at rendered
  · cases rendered
    have least := weight_of_document (parse_eq_ok.mp read)
    rw [String.toList_ofList] at lighter
    exact absurd (Nat.le_trans written least) (Nat.not_le.mpr lighter)
  · cases rendered

end Runbook.Json
