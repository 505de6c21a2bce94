import Runbook.Proofs.Json.Roundtrip

/-! What a writer leaves behind where it has to stop.

The text goes up to the part that cannot be written: brackets and braces are left open, and where
the next item or value would stand there is nothing. So the text never reads, neither as that value
nor as another one (`document_unfinished`). No line end is written but line feeds, whether the
writer stops or not. -/
namespace Runbook.Json

/-! ### Stopping -/

namespace Written

theorem append_assoc (a b c : Written) : a ++ b ++ c = a ++ (b ++ c) := by
  show append (append a b) c = append a (append b c)
  cases first : a.refused with
  | some f => simp only [append, first]
  | none => cases second : b.refused <;> simp [append, first, second]

/-- Nothing is written behind what stopped. -/
theorem append_of_refused {a : Written} (b : Written) (h : a.refused ≠ none) : a ++ b = a := by
  show append a b = a
  cases stopped : a.refused with
  | none => exact absurd stopped h
  | some f => simp only [append, stopped]

theorem text_ok_append (cs : List Char) (w : Written) : (ok cs ++ w).text = cs ++ w.text := rfl

theorem refused_ok_append (cs : List Char) (w : Written) : (ok cs ++ w).refused = w.refused := rfl

end Written

theorem text_writeScalar_of_refused {s : Scalar} (h : (writeScalar s).refused ≠ none) :
    (writeScalar s).text = [] := by
  cases s with
  | int n =>
    rw [writeScalar] at h ⊢
    cases written : numeral? n with
    | some t => exact absurd ((writeInt_refused n).mpr (by rw [written]; rfl)) h
    | none => rw [writeInt, written]; rfl
  | bytes | moment => rfl
  | _ => exact absurd rfl h

theorem text_writeKey_of_refused {k : Scalar} (h : (writeKey k).refused ≠ none) :
    (writeKey k).text = [] := by
  unfold writeKey at h ⊢
  split
  · exact absurd rfl h
  · dsimp only at h ⊢
    split
    · rename_i written
      simp [written] at h
    · rfl

section Containers
variable {style : Style} {depth level : Nat}

/-! ### The first character -/

/-- The text of a value begins with the value, as far as there is any. -/
theorem opens_write (style : Style) (level : Nat) (v : Value) :
    ∀ c ∈ (write style level v).text.head?, Opens c := by
  have first {c : Char} {cs : List Char} (opens : Opens c)
      (text : ∃ more, cs = c :: more) : ∀ d ∈ cs.head?, Opens d := by
    obtain ⟨more, rfl⟩ := text
    rintro d ⟨⟩
    exact opens
  cases v with
  | list items => exact first (by decide) (exists_write_list style level items)
  | map entries => exact first (by decide) (exists_write_map style level entries)
  | scalar s =>
    by_cases h : s.Writable
    · obtain ⟨c, more, text, opens⟩ := exists_write (.scalar h) style level
      exact first opens ⟨more, text⟩
    · rw [write, text_writeScalar_of_refused fun written => h ((writeScalar_refused s).mp written)]
      exact nofun

theorem opens_write_append (style : Style) (level : Nat) (v : Value) (w : Written) :
    ∀ c ∈ (write style level v ++ w).text.head?, Opens c := by
  by_cases h : v.Writable
  · obtain ⟨c, more, text, opens⟩ := exists_write h style level
    obtain ⟨_, text⟩ := Written.exists_append text w
    rw [text]
    rintro d ⟨⟩
    exact opens
  · rw [Written.append_of_refused w fun written => h ((write_refused style level v).mp written)]
    exact opens_write style level v

theorem skipSpace_of_opens {cs : List Char} (h : ∀ c ∈ cs.head?, Opens c) : skipSpace cs = cs := by
  cases cs with
  | nil => rfl
  | cons c cs => exact skipSpace_cons (h c rfl).1 cs

/-! ### Reading what was left behind -/

/-- A text that does not read as a value, however deep it may be. -/
def Unreadable (cs : List Char) : Prop := ∀ depth, ∃ f, value depth cs = .error f

theorem unreadable_nil : Unreadable [] := fun depth => ⟨.expected "Expecting value" 0, by
  cases depth <;> rfl⟩

/-- The items from one on. -/
def itemsWritten (style : Style) (level : Nat) (v : Value) (rest : List Value) : Written :=
  write style (level + 1) v ++ writeItems style level rest

theorem write_list (v : Value) (rest : List Value) : write style level (.list (v :: rest)) =
    .ok ('[' :: newline style (level + 1)) ++ itemsWritten style level v rest := by
  rw [write, Written.append_assoc]
  rfl

theorem writeItems_cons (v : Value) (rest : List Value) : writeItems style level (v :: rest) =
    .ok (style.comma.toList ++ newline style (level + 1)) ++ itemsWritten style level v rest := by
  rw [writeItems, Written.append_assoc]
  rfl

/-- The entries from one on. -/
def entriesWritten (style : Style) (level : Nat) (k : Scalar) (v : Value)
    (rest : List (Scalar × Value)) : Written :=
  writeKey k ++ (.ok style.colon.toList ++
    (write style (level + 1) v ++ writeEntries style level rest))

theorem write_map (k : Scalar) (v : Value) (rest : List (Scalar × Value)) :
    write style level (.map ((k, v) :: rest)) =
      .ok ('{' :: newline style (level + 1)) ++ entriesWritten style level k v rest := by
  rw [write, Written.append_assoc, Written.append_assoc, Written.append_assoc]
  rfl

/-- A further entry whose key cannot be written leaves nothing, not even its comma. -/
theorem writeEntries_cons (style : Style) (level : Nat) (k : Scalar) (v : Value)
    (rest : List (Scalar × Value)) :
    (writeKey k).refused ≠ none ∧ (writeEntries style level ((k, v) :: rest)).text = [] ∨
      writeEntries style level ((k, v) :: rest) =
        .ok (style.comma.toList ++ newline style (level + 1)) ++
          entriesWritten style level k v rest := by
  rw [writeEntries]
  cases stopped : (writeKey k).refused with
  | some f => exact .inl ⟨nofun, rfl⟩
  | none =>
    right
    show Written.ok _ ++ writeKey k ++ _ ++ _ ++ _ = _
    rw [Written.append_assoc, Written.append_assoc, Written.append_assoc]
    rfl

/-- The text of items begins with the first one, as far as there is any. -/
theorem skipSpace_itemsWritten (style : Style) (level : Nat) (v : Value) (rest : List Value) :
    skipSpace (itemsWritten style level v rest).text = (itemsWritten style level v rest).text ∧
      ∀ more, (itemsWritten style level v rest).text ≠ ']' :: more := by
  have opens : ∀ c ∈ (itemsWritten style level v rest).text.head?, Opens c :=
    opens_write_append style (level + 1) v _
  refine ⟨skipSpace_of_opens opens, fun more text => ?_⟩
  exact absurd rfl (opens ']' (by rw [text]; rfl)).2.1

/-- The text of entries begins with the key of the first one, if there is any. -/
theorem skipSpace_entriesWritten (style : Style) (level : Nat) (k : Scalar) (v : Value)
    (rest : List (Scalar × Value)) :
    skipSpace (entriesWritten style level k v rest).text =
        (entriesWritten style level k v rest).text ∧
      ∀ more, (entriesWritten style level k v rest).text ≠ '}' :: more := by
  by_cases key : (writeKey k).refused = none
  · rw [entriesWritten, writeKey_eq ((writeKey_refused k).mp key), Written.text_ok_append]
    exact ⟨skipSpace_cons rfl _, nofun⟩
  · rw [entriesWritten, Written.append_of_refused _ key, text_writeKey_of_refused key]
    exact ⟨rfl, nofun⟩

theorem itemsFrom_error {fuel : Nat} {acc : List Value} {cs : List Char}
    (h : ∃ f, value depth cs = .error f) : ∃ f, itemsFrom (value depth) fuel acc cs = .error f := by
  obtain ⟨f, h⟩ := h
  cases fuel with
  | zero => exact ⟨_, rfl⟩
  | succ fuel => exact ⟨f, itemsFrom_refused h⟩

/-- A list whose items do not read does not read. -/
theorem value_list_unread {v : Value} {rest : List Value} {f : Failure}
    (failed : itemsFrom (value depth) ((itemsWritten style level v rest).text.length + 1) []
      (itemsWritten style level v rest).text = .error f) :
    value (depth + 1) ('[' :: (newline style (level + 1) ++
      (itemsWritten style level v rest).text)) = .error f := by
  have solid := skipSpace_itemsWritten style level v rest
  have skipped := (skipSpace_append (isSpace_of_newline style (level + 1)) _).trans solid.1
  rw [value, items_of_ne skipped solid.2, failed]
  rfl

/-- A mapping whose entries do not read does not read. -/
theorem value_map_unread {k : Scalar} {v : Value} {rest : List (Scalar × Value)} {f : Failure}
    (failed : entriesFrom (value depth) ((entriesWritten style level k v rest).text.length + 1) []
      (entriesWritten style level k v rest).text = .error f) :
    value (depth + 1) ('{' :: (newline style (level + 1) ++
      (entriesWritten style level k v rest).text)) = .error f := by
  have solid := skipSpace_entriesWritten style level k v rest
  have skipped := (skipSpace_append (isSpace_of_newline style (level + 1)) _).trans solid.1
  rw [value, entries_of_ne skipped solid.2, failed]
  rfl

/-- An entry whose key or value cannot be written to its end leaves a text that does not read. -/
theorem entriesFrom_stopped (layout : style ∈ layouts) {k : Scalar} {v : Value}
    (rest : List (Scalar × Value))
    (unreadable : (write style (level + 1) v).refused ≠ none →
      Unreadable (write style (level + 1) v).text)
    (stopped : (writeKey k).refused = none → (write style (level + 1) v).refused ≠ none)
    (acc : List (Scalar × Value)) (fuel : Nat) :
    ∃ f, entriesFrom (value depth) fuel acc (entriesWritten style level k v rest).text = .error f := by
  cases fuel with
  | zero => exact ⟨_, rfl⟩
  | succ fuel =>
    by_cases key : (writeKey k).refused = none
    · have written := writeKey_eq ((writeKey_refused k).mp key)
      have text : (entriesWritten style level k v rest).text = quote (keyText k) ++
          (style.colon.toList ++ (write style (level + 1) v).text) := by
        rw [entriesWritten, written, Written.append_of_refused _ (stopped key)]
        rfl
      obtain ⟨f, failed⟩ := unreadable (stopped key) depth
      refine ⟨f, ?_⟩
      rw [text, entriesFrom_key layout _ (skipSpace_of_opens (opens_write style _ v)), entryFrom,
        failed]
      rfl
    · rw [entriesWritten, Written.append_of_refused _ key, text_writeKey_of_refused key]
      exact ⟨_, rfl⟩

mutual

/-- A value that cannot be written to its end leaves a text that does not read. -/
theorem unreadable_write (layout : style ∈ layouts) (level : Nat) :
    (v : Value) → (write style level v).refused ≠ none → Unreadable (write style level v).text
  | .scalar s, h => by
    rw [write] at h ⊢
    rw [text_writeScalar_of_refused h]
    exact unreadable_nil
  | .list [], h => absurd (by rw [write]; rfl) h
  | .map [], h => absurd (by rw [write]; rfl) h
  | .list (v :: rest), h => by
    rw [write_list] at h ⊢
    intro depth
    cases depth with
    | zero => exact ⟨.tooDeep, rfl⟩
    | succ depth =>
      obtain ⟨f, failed⟩ := itemsFrom_unfinished layout level depth rest v
        (unreadable_write layout (level + 1) v) h [] _
      exact ⟨f, value_list_unread failed⟩
  | .map ((k, v) :: rest), h => by
    rw [write_map] at h ⊢
    intro depth
    cases depth with
    | zero => exact ⟨.tooDeep, rfl⟩
    | succ depth =>
      obtain ⟨f, failed⟩ := entriesFrom_unfinished layout level depth rest k v
        (unreadable_write layout (level + 1) v) h [] _
      exact ⟨f, value_map_unread failed⟩

theorem itemsFrom_unfinished (layout : style ∈ layouts) (level depth : Nat) :
    (rest : List Value) → (v : Value) →
      ((write style (level + 1) v).refused ≠ none → Unreadable (write style (level + 1) v).text) →
      (itemsWritten style level v rest).refused ≠ none → ∀ (acc : List Value) (fuel : Nat),
        ∃ f, itemsFrom (value depth) fuel acc (itemsWritten style level v rest).text = .error f
  | rest, v, here, h, acc, fuel => by
    by_cases stopped : (write style (level + 1) v).refused = none
    rotate_left
    · rw [itemsWritten, Written.append_of_refused _ stopped]
      exact itemsFrom_error (here stopped depth)
    have writable := (write_refused style (level + 1) v).mp stopped
    cases rest with
    | nil =>
      exact absurd ((Written.refused_append ..).mpr ⟨stopped, rfl⟩) h
    | cons u rest =>
      have behind : (itemsWritten style level u rest).refused ≠ none := fun whole =>
        h ((Written.refused_append ..).mpr ⟨stopped, by rw [writeItems_cons]; exact whole⟩)
      have text : (itemsWritten style level v (u :: rest)).text =
          (write style (level + 1) v).text ++ (style.comma.toList ++ (newline style (level + 1) ++
            (itemsWritten style level u rest).text)) := by
        rw [itemsWritten, Written.text_append _ stopped, writeItems_cons, Written.text_ok_append,
          List.append_assoc]
      obtain ⟨_, comma, passed⟩ := exists_comma layout (level + 1)
        (skipSpace_itemsWritten style level u rest).1
      cases fuel with
      | zero => exact ⟨_, rfl⟩
      | succ fuel =>
        have read := rereads layout writable depth (level + 1) _ (endsNumber_comma layout
          (newline style (level + 1) ++ (itemsWritten style level u rest).text))
        rw [text]
        cases back : reread depth v with
        | error f => exact ⟨f, itemsFrom_refused (by rw [read, back]; rfl)⟩
        | ok w =>
          rw [itemsFrom_comma (by rw [read, back]; rfl) comma, passed]
          exact itemsFrom_unfinished layout level depth rest u
            (unreadable_write layout (level + 1) u) behind _ fuel

theorem entriesFrom_unfinished (layout : style ∈ layouts) (level depth : Nat) :
    (rest : List (Scalar × Value)) → (k : Scalar) → (v : Value) →
      ((write style (level + 1) v).refused ≠ none → Unreadable (write style (level + 1) v).text) →
      (entriesWritten style level k v rest).refused ≠ none →
      ∀ (acc : List (Scalar × Value)) (fuel : Nat),
        ∃ f, entriesFrom (value depth) fuel acc (entriesWritten style level k v rest).text =
          .error f
  | rest, k, v, here, h, acc, fuel => by
    by_cases whole : (writeKey k).refused = none ∧ (write style (level + 1) v).refused = none
    rotate_left
    · exact entriesFrom_stopped layout rest here (fun key value => whole ⟨key, value⟩) acc fuel
    obtain ⟨key, stopped⟩ := whole
    cases fuel with
    | zero => exact ⟨_, rfl⟩
    | succ fuel =>
    have written := writeKey_eq ((writeKey_refused k).mp key)
    have writable := (write_refused style (level + 1) v).mp stopped
    have text : (entriesWritten style level k v rest).text = quote (keyText k) ++
        (style.colon.toList ++ ((write style (level + 1) v).text ++
          (writeEntries style level rest).text)) := by
      rw [entriesWritten, written, Written.text_ok_append, Written.text_ok_append,
        Written.text_append _ stopped]
    have unwritten : (writeEntries style level rest).refused ≠ none := by
      intro whole
      refine h ?_
      rw [entriesWritten, written, Written.refused_ok_append, Written.refused_ok_append]
      exact (Written.refused_append ..).mpr ⟨stopped, whole⟩
    rw [text, entriesFrom_key layout _ (skipSpace_write style _ writable _)]
    cases rest with
    | nil => exact absurd rfl unwritten
    | cons e rest =>
      obtain ⟨l, u⟩ := e
      rcases writeEntries_cons style level l u rest with ⟨-, nothing⟩ | more
      · rw [nothing, entryFrom, rereads layout writable depth (level + 1) [] nofun]
        cases reread depth v with
        | error f => exact ⟨f, rfl⟩
        | ok w => exact ⟨_, rfl⟩
      · have behind : (entriesWritten style level l u rest).refused ≠ none := by
          rw [more] at unwritten
          exact unwritten
        obtain ⟨_, comma, passed⟩ := exists_comma layout (level + 1)
          (skipSpace_entriesWritten style level l u rest).1
        have read := rereads layout writable depth (level + 1) _ (endsNumber_comma layout
          (newline style (level + 1) ++ (entriesWritten style level l u rest).text))
        rw [more, Written.text_ok_append, List.append_assoc]
        cases back : reread depth v with
        | error f => exact ⟨f, entryFrom_refused (by rw [read, back]; rfl)⟩
        | ok w =>
          rw [entryFrom_comma (by rw [read, back]; rfl) comma, passed]
          exact entriesFrom_unfinished layout level depth rest l u
            (unreadable_write layout (level + 1) u) behind _ fuel

end

/-! ### Line ends -/

theorem hex_ne_return (width n : Nat) : ∀ d ∈ Text.hex width n, d ≠ '\r' := by
  rintro _ there rfl
  obtain ⟨d, small, same⟩ := exists_of_mem_hex there
  have read := hexValue?_hexDigit small
  rw [← same] at read
  cases read

theorem escape_ne_return (c : Char) : ∀ d ∈ escape c, d ≠ '\r' := by
  unfold escape
  split
  iterate 7 simp
  rename_i noReturn _ _ _
  split
  · simpa using hex_ne_return 4 c.toNat
  · exact List.forall_mem_singleton.mpr noReturn

theorem quote_ne_return (s : String) : ∀ d ∈ quote s, d ≠ '\r' := by
  refine List.forall_mem_cons.mpr ⟨by decide, List.forall_mem_append.mpr ⟨fun d there => ?_,
    List.forall_mem_singleton.mpr (by decide)⟩⟩
  obtain ⟨c, -, there⟩ := List.mem_flatMap.mp there
  exact escape_ne_return c d there

/-- No carriage return is written. -/
def Written.NoReturn (w : Written) : Prop := ∀ c ∈ w.text, c ≠ '\r'

namespace Written.NoReturn

theorem append {a b : Written} (ha : a.NoReturn) (hb : b.NoReturn) : (a ++ b).NoReturn := by
  show (Written.append a b).NoReturn
  unfold Written.append
  split
  · exact List.forall_mem_append.mpr ⟨ha, hb⟩
  · exact ha

theorem scalar (s : Scalar) : (writeScalar s).NoReturn := by
  by_cases h : s.Writable
  · by_cases text : ∃ t, s = .str t
    · obtain ⟨t, rfl⟩ := text
      exact quote_ne_return t
    · rintro c there rfl
      have plain := isPlain_of_writeScalar h (fun t same => text ⟨t, same⟩) '\r' there
      cases plain
  · unfold NoReturn
    rw [text_writeScalar_of_refused fun written => h ((writeScalar_refused s).mp written)]
    exact List.forall_mem_nil _

theorem key (k : Scalar) : (writeKey k).NoReturn := by
  by_cases h : k.Writable
  · rw [writeKey_eq h]
    exact quote_ne_return _
  · unfold NoReturn
    rw [text_writeKey_of_refused fun written => h ((writeKey_refused k).mp written)]
    exact List.forall_mem_nil _

theorem newline (style : Style) (level : Nat) : ∀ c ∈ newline style level, c ≠ '\r' := by
  unfold Json.newline
  split
  · exact List.forall_mem_nil _
  · refine List.forall_mem_cons.mpr ⟨by decide, fun c there => ?_⟩
    rw [(List.mem_replicate.mp there).2]
    decide

theorem marks_ne_return (layout : style ∈ layouts) :
    (∀ c ∈ style.colon.toList, c ≠ '\r') ∧ ∀ c ∈ style.comma.toList, c ≠ '\r' := by
  simp only [layouts, List.mem_cons, List.not_mem_nil, or_false] at layout
  rcases layout with rfl | rfl | rfl <;> simp [compact, spaced, pretty]

theorem composes (layout : style ∈ layouts) : Composes style NoReturn where
  append := append
  scalar := scalar
  key := key
  stop _ _ _ := List.forall_mem_nil _
  empty c d marks := by
    rcases marks with same | same <;> simp [NoReturn, ok, same]
  opening level c marks := by
    refine List.forall_mem_cons.mpr ⟨?_, newline style level⟩
    rcases marks with rfl | rfl <;> decide
  closing level c marks := by
    refine List.forall_mem_append.mpr ⟨newline style level, List.forall_mem_singleton.mpr ?_⟩
    rcases marks with rfl | rfl <;> decide
  colon := (marks_ne_return layout).1
  comma level := List.forall_mem_append.mpr ⟨(marks_ne_return layout).2, newline style level⟩

theorem write (layout : style ∈ layouts) (level : Nat) (v : Value) :
    (Json.write style level v).NoReturn := (composes layout).write level v

end Written.NoReturn

end Containers

/-- What a writer leaves behind where it has to stop is no data text. -/
theorem document_unfinished {style : Style} (layout : style ∈ layouts) {v : Value}
    (h : (write style 0 v).refused ≠ none) : ∃ f, document (write style 0 v).text = .error f := by
  have opens := opens_write style 0 v
  obtain ⟨f, failed⟩ := unreadable_write layout 0 v h depthLimit
  refine ⟨f, ?_⟩
  unfold document
  split
  · rename_i text
    exact absurd rfl (opens '\uFEFF' (by rw [text]; rfl)).2.2
  · rw [skipSpace_of_opens opens, failed]
    rfl

/-- What a writer leaves behind where it has to stop is no data text. -/
theorem parse_unfinished {style : Style} (layout : style ∈ layouts) {v : Value}
    (h : (write style 0 v).refused ≠ none) :
    ∃ f, parse (String.ofList (write style 0 v).text) = .error f := by
  obtain ⟨f, failed⟩ := document_unfinished layout h
  exact ⟨_, by rw [parse, String.toList_ofList, failed]⟩

end Runbook.Json
