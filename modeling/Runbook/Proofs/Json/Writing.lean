import Runbook.Literal

/-! Which values have a text.

Data text can be written for every value but those with bytes or moments in them, and those
with a whole number that is too long for a numeral. Substituted into text, bytes and moments
that stand alone have a text too. -/
namespace Runbook

/-- Whether data text can be written for a scalar, as a value or as a key. -/
def Scalar.Writable : Scalar → Prop
  | .int n => (numeral? n).isSome
  | .bytes _ | .moment _ => False
  | _ => True

/-- Whether data text can be written for a value. -/
inductive Value.Writable : Value → Prop
  | scalar {s : Scalar} (h : s.Writable) : Writable (.scalar s)
  | list {items : List Value} (h : ∀ v ∈ items, Writable v) : Writable (.list items)
  | map {entries : List (Scalar × Value)} (keys : ∀ e ∈ entries, e.1.Writable)
    (values : ∀ e ∈ entries, Writable e.2) : Writable (.map entries)

namespace Json

/-! ### The writer -/

@[simp] theorem Written.refused_ok (text : List Char) : (Written.ok text).refused = none := rfl

@[simp] theorem Written.refused_stop (f : Fault) : (Written.stop f).refused = some f := rfl

@[simp] theorem Written.refused_append (a b : Written) :
    (a ++ b).refused = none ↔ a.refused = none ∧ b.refused = none := by
  show (Written.append a b).refused = none ↔ _
  cases h : a.refused <;> simp [Written.append, h]

theorem writeInt_refused (n : Int) : (writeInt n).refused = none ↔ (numeral? n).isSome := by
  cases h : numeral? n <;> simp [writeInt, h]

theorem writeScalar_refused (s : Scalar) : (writeScalar s).refused = none ↔ s.Writable := by
  cases s <;> simp [writeScalar, Scalar.Writable, writeInt_refused]

theorem writeKey_refused (k : Scalar) : (writeKey k).refused = none ↔ k.Writable := by
  rw [← writeScalar_refused]
  unfold writeKey
  split
  · rfl
  · cases h : (writeScalar k).refused <;> simp [h]

mutual

theorem write_refused (style : Style) (level : Nat) :
    (v : Value) → ((write style level v).refused = none ↔ v.Writable)
  | .scalar s => by
    rw [write, writeScalar_refused]
    exact ⟨.scalar, fun | .scalar h => h⟩
  | .list [] => by
    simp only [write, Written.refused_ok, true_iff]
    exact .list nofun
  | .list (v :: rest) => by
    simp only [write, Written.refused_append, Written.refused_ok, true_and,
      write_refused style (level + 1) v, writeItems_refused style level rest]
    exact ⟨fun ⟨here, behind⟩ => .list (List.forall_mem_cons.mpr ⟨here, behind⟩),
      fun | .list h => List.forall_mem_cons.mp h⟩
  | .map [] => by
    simp only [write, Written.refused_ok, true_iff]
    exact .map nofun nofun
  | .map ((k, v) :: rest) => by
    simp only [write, Written.refused_append, Written.refused_ok, true_and, and_true,
      writeKey_refused, write_refused style (level + 1) v, writeEntries_refused style level rest]
    constructor
    · rintro ⟨⟨key, here⟩, behind⟩
      exact .map (List.forall_mem_cons.mpr ⟨key, fun e he => (behind e he).1⟩)
        (List.forall_mem_cons.mpr ⟨here, fun e he => (behind e he).2⟩)
    · rintro (_ | _ | ⟨keys, values⟩)
      obtain ⟨key, keys⟩ := List.forall_mem_cons.mp keys
      obtain ⟨here, values⟩ := List.forall_mem_cons.mp values
      exact ⟨⟨key, here⟩, fun e he => ⟨keys e he, values e he⟩⟩

theorem writeItems_refused (style : Style) (level : Nat) :
    (items : List Value) →
      ((writeItems style level items).refused = none ↔ ∀ v ∈ items, v.Writable)
  | [] => by simp [writeItems]
  | v :: rest => by
    simp only [writeItems, Written.refused_append, Written.refused_ok, true_and,
      write_refused style (level + 1) v, writeItems_refused style level rest,
      List.forall_mem_cons]

theorem writeEntries_refused (style : Style) (level : Nat) :
    (entries : List (Scalar × Value)) →
      ((writeEntries style level entries).refused = none ↔
        ∀ e ∈ entries, e.1.Writable ∧ e.2.Writable)
  | [] => by simp [writeEntries]
  | (k, v) :: rest => by
    have key := writeKey_refused k
    simp only [writeEntries, List.forall_mem_cons]
    cases refused : (writeKey k).refused with
    | none =>
      simp only [Written.refused_append, Written.refused_ok, true_and, and_true, key,
        write_refused style (level + 1) v, writeEntries_refused style level rest]
    | some f =>
      rw [refused] at key
      simp only [reduceCtorEq, false_iff] at key
      simp [key]

end

/-- Data text is written for the values that it can be written for, whatever the layout. -/
theorem render_isOk (style : Style) (v : Value) :
    (∃ text, render style v = .ok text) ↔ v.Writable := by
  rw [← write_refused style 0 v]
  unfold render
  cases h : (write style 0 v).refused <;> simp [h]

/-! ### What holds of everything that is written -/

/-- A property of the pieces of a layout that goes from pieces to what they make up. -/
structure Written.Composes (style : Style) (P : Written → Prop) : Prop where
  append {a b : Written} (ha : P a) (hb : P b) : P (a ++ b)
  scalar (s : Scalar) : P (writeScalar s)
  key (k : Scalar) : P (writeKey k)
  stop (f : Fault) (k : Scalar) (h : (writeKey k).refused = some f) : P (.stop f)
  empty (c d : Char) (h : [c, d] = ['[', ']'] ∨ [c, d] = ['{', '}']) : P (.ok [c, d])
  opening (level : Nat) (c : Char) (h : c = '[' ∨ c = '{') : P (.ok (c :: newline style level))
  closing (level : Nat) (c : Char) (h : c = ']' ∨ c = '}') :
    P (.ok (newline style level ++ [c]))
  colon : P (.ok style.colon.toList)
  comma (level : Nat) : P (.ok (style.comma.toList ++ newline style level))

namespace Written.Composes

variable {style : Style} {P : Written → Prop}

mutual

theorem write (h : Composes style P) (level : Nat) : (v : Value) → P (Json.write style level v)
  | .scalar s => by
    rw [Json.write]
    exact h.scalar s
  | .list [] => by
    rw [Json.write]
    exact h.empty _ _ (.inl rfl)
  | .map [] => by
    rw [Json.write]
    exact h.empty _ _ (.inr rfl)
  | .list (v :: rest) => by
    rw [Json.write]
    exact h.append (h.append (h.opening _ _ (.inl rfl)) (write h _ v)) (items h level rest)
  | .map ((k, v) :: rest) => by
    rw [Json.write]
    exact h.append (h.append (h.append (h.append (h.opening _ _ (.inr rfl)) (h.key k)) h.colon)
      (write h _ v)) (entries h level rest)

theorem items (h : Composes style P) (level : Nat) :
    (vs : List Value) → P (writeItems style level vs)
  | [] => by
    rw [writeItems]
    exact h.closing _ _ (.inl rfl)
  | v :: rest => by
    rw [writeItems]
    exact h.append (h.append (h.comma _) (write h _ v)) (items h level rest)

theorem entries (h : Composes style P) (level : Nat) :
    (es : List (Scalar × Value)) → P (writeEntries style level es)
  | [] => by
    rw [writeEntries]
    exact h.closing _ _ (.inr rfl)
  | (k, v) :: rest => by
    rw [writeEntries]
    split
    · rename_i f stopped
      exact h.stop f k stopped
    · exact h.append (h.append (h.append (h.append (h.comma _) (h.key k)) h.colon) (write h _ v))
        (entries h level rest)

end

end Written.Composes

/-- The writer stops for nothing but bytes, moments and numbers without a numeral. -/
def Written.Sound (w : Written) : Prop :=
  ∀ f, w.refused = some f → f = .wrongType ∨ f = .badValue lengthMessage

namespace Written.Sound

theorem ok (text : List Char) : Sound (.ok text) := nofun

theorem append {a b : Written} (ha : a.Sound) (hb : b.Sound) : (a ++ b).Sound := by
  show (Written.append a b).Sound
  unfold Written.append
  split
  · exact hb
  · exact ha

theorem writeScalar (s : Scalar) : (Json.writeScalar s).Sound := by
  cases s with
  | int n =>
    rw [Json.writeScalar, writeInt]
    split
    · exact ok _
    · rintro f ⟨⟩
      exact .inr rfl
  | bytes | moment =>
    rintro f ⟨⟩
    exact .inl rfl
  | _ => exact ok _

theorem writeKey (k : Scalar) : (Json.writeKey k).Sound := by
  unfold Json.writeKey
  split
  · exact ok _
  · dsimp only
    split
    · exact ok _
    · rename_i f stopped
      rintro f ⟨⟩
      exact writeScalar k f stopped

theorem composes (style : Style) : Composes style Sound where
  append := append
  scalar := writeScalar
  key := writeKey
  stop f k stopped := by
    rintro f ⟨⟩
    exact writeKey k f stopped
  empty _ _ _ := ok _
  opening _ _ _ := ok _
  closing _ _ _ := ok _
  colon := ok _
  comma _ := ok _

theorem write (style : Style) (level : Nat) (v : Value) : (Json.write style level v).Sound :=
  (composes style).write level v

end Written.Sound

theorem render_error {style : Style} {v : Value} {f : Fault} (h : render style v = .error f) :
    f = .wrongType ∨ f = .badValue lengthMessage := by
  unfold render at h
  dsimp only at h
  split at h
  · cases h
  · rename_i stopped
    cases h
    exact Written.Sound.write style 0 v f stopped

end Json

/-! ### Text in place of a value -/

/-- Whether a value has a text where it is substituted. -/
def Value.HasText : Value → Prop
  | .int n => (numeral? n).isSome
  | .scalar _ => True
  | v => v.Writable

theorem Literal.stringify_isOk (v : Value) : (∃ text, stringify v = .ok text) ↔ v.HasText := by
  cases v with
  | scalar s =>
    cases s with
    | int n => cases h : numeral? n <;> simp [stringify, Value.HasText, h]
    | float x => cases h : x.toInt? <;> simp [stringify, Value.HasText, h]
    | _ => simp [stringify, Value.HasText]
  | list items => exact Json.render_isOk ..
  | map entries => exact Json.render_isOk ..

theorem Literal.stringify_error {v : Value} {f : Fault} (h : stringify v = .error f) :
    f = .wrongType ∨ f = .badValue Json.lengthMessage := by
  unfold stringify at h
  split at h
  iterate 2 cases h
  · split at h
    · cases h
    · cases h
      exact .inr rfl
  · split at h <;> cases h
  iterate 2 cases h
  · exact Json.render_error h

theorem Value.Writable.hasText {v : Value} (h : v.Writable) : v.HasText := by
  cases h with
  | @scalar s h =>
    cases s with
    | int n => exact h
    | _ => trivial
  | list h => exact .list h
  | map keys values => exact .map keys values

end Runbook
