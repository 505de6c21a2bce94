import Runbook.Proofs.Redaction

/-! Redacting what is redacted.

Redaction comes to an end by itself: the texts in a text that is opened are shorter than that text,
so no depth beyond the length of a text makes a difference. What is left of a value has no payload in
it, and each text that is opened in it is spelled as redaction spells it, so redacting it again
changes nothing (`redact_redact`). Nor can that fail: there are no more containers inside one another
than there were before (`fits_redact`).

A note tells a length, and the numeral of a length is short. A content would have to be of `vast`
length for its note to be a content that is too long itself. -/
namespace Runbook

namespace Json

/-- A mapping whose first value is no value is refused with that value. -/
theorem value_map_error {style : Style} (layout : style ∈ layouts) {depth : Nat} (key : String)
    {cs : List Char} (solid : skipSpace cs = cs) {f : Failure} (h : value depth cs = .error f) :
    value (depth + 1) ('{' :: (quote key ++ (style.colon.toList ++ cs))) = .error f := by
  have opened : skipSpace (quote key ++ (style.colon.toList ++ cs)) =
      quote key ++ (style.colon.toList ++ cs) := skipSpace_cons rfl _
  have first : entries (value depth) (quote key ++ (style.colon.toList ++ cs)) = .error f := by
    rw [entries_of_ne opened (by rintro rest ⟨⟩), entriesFrom_key layout key solid,
      entryFrom_refused h]
  rw [value, first]
  rfl

end Json

namespace Redaction

variable {v : Value} {s : String} {entries : List (Scalar × Value)}

/-! ### Notes -/

/-- A text that begins with anything but a brace looks like no file. -/
theorem isSuspect_of_front {c : Char} (front : s.toList.head? = some c)
    (solid : Text.isBlank c = false) (other : c ≠ '{') : isSuspect s = false := by
  obtain ⟨rest, cs⟩ := List.head?_eq_some_iff.mp front
  have opens : (some c == some '{') = false :=
    beq_eq_false_iff_ne.mpr fun same => other (Option.some.inj same)
  rw [isSuspect, cs, Text.trimStart, List.dropWhile_cons_of_neg (by rw [solid]; decide),
    List.head?_cons, opens, Bool.and_false, Bool.false_and]

/-- A note looks like no file. -/
theorem isSuspect_note (n : Nat) : isSuspect (note n) = false := by
  refine isSuspect_of_front (c := '[') ?_ (by decide) (by decide)
  rw [note, String.toList_append, String.toList_append]
  rfl

theorem keptText_of_unsuspicious (plain : isSuspect s = false) : keptText s = s :=
  keptText_of_closed fun _ opens => Bool.false_ne_true (plain.symm.trans opens.1)

/-- How many digits there is room for in a note that is no longer than what is kept. -/
def noteDigits : Nat := 979

/-- The length from which on a content has a note that is too long itself. -/
def vast : Nat := 10 ^ noteDigits

theorem lt_vast {n k : Nat} (small : n < 10 ^ k) (few : k ≤ noteDigits) : n < vast := by
  obtain ⟨more, digits⟩ := Nat.exists_eq_add_of_le few
  have one : 0 < 10 ^ more := Nat.pow_pos (Nat.succ_pos 9)
  rw [vast, digits, Nat.pow_add]
  exact Nat.lt_of_lt_of_le small (Nat.le_mul_of_pos_right _ one)

theorem length_note_le {n : Nat} (small : n < vast) : (note n).length ≤ limit := by
  have digits := Nat.repr_length n noteDigits (by decide) small
  have room : 14 + noteDigits + 7 = limit := rfl
  rw [length_note]
  omega

/-! ### A mapping, redacted -/

theorem redact_map (entries : List (Scalar × Value)) : redact (.map entries) =
    .map (content entries (entries.map fun e => (e.1, redact e.2))) :=
  congrArg (Value.map <| content entries ·) (entryValues_eq entries)

/-- Each value in a redacted mapping is a redacted one or a note. -/
theorem forall_mem_content {P : Value → Prop} (notes : ∀ n, P (.str (note n)))
    (each : ∀ e ∈ entries, P (redact e.2)) :
    ∀ e ∈ content entries (entries.map fun e => (e.1, redact e.2)), P e.2 := by
  have inside : ∀ e ∈ entries.map fun e => (e.1, redact e.2), P e.2 := List.forall_mem_map.mpr each
  by_cases payload : ∃ data, IsPayload entries data
  · obtain ⟨data, payload⟩ := payload
    rw [content_of_payload payload]
    exact fun e there => (Entries.forall_mem_insert (P := fun _ => True) trivial (notes _)
      (fun e there => ⟨trivial, inside e there⟩) e there).2
  · rwa [content_of_other (not_exists.mp payload)]

/-- Redaction makes a text of nothing but a text. -/
theorem redact_eq_str {t : String} : redact v = .str t ↔ ∃ s, v = .str s ∧ keptText s = t := by
  constructor
  · intro same
    cases v with
    | list | map => cases same
    | scalar s =>
      cases s with
      | str s => exact ⟨s, rfl, Scalar.str.inj (Value.scalar.inj same)⟩
      | _ => cases same
  · rintro ⟨s, rfl, rfl⟩
    rfl

/-- What is kept of a text that is opened is the data text of a mapping, and no plain word. -/
theorem keptText_eq_word {word : String} (plain : ∀ entries, Json.parse word ≠ .ok (.map entries)) :
    keptText s = word ↔ s = word := by
  by_cases opened : ∃ entries, Opens s entries
  · obtain ⟨entries, opens⟩ := opened
    refine iff_of_false (fun same => ?_) fun same => plain entries (same ▸ opens.2)
    have read := (render_of_opens opens).2
    rw [same, redact_map] at read
    exact plain _ read
  · rw [keptText_of_closed (not_exists.mp opened)]

/-- The data text of no mapping. -/
theorem parse_binary (entries : List (Scalar × Value)) :
    Json.parse "binary" ≠ .ok (.map entries) := by
  intro read
  cases read

/-- A mapping that is redacted is no payload, and its note is none either unless it is of a content
of vast length. -/
theorem noPayload_content (short : ∀ s, Value.TextIn s (.map entries) → s.length < vast) :
    ∀ data, ¬ IsPayload (content entries (entries.map fun e => (e.1, redact e.2))) data := by
  rintro data' ⟨contentType', found', long'⟩
  by_cases payload : ∃ data, IsPayload entries data
  · obtain ⟨data, payload⟩ := payload
    rw [content_of_payload payload,
      Entries.get?_insert_same (by rw [Scalar.str_beq, beq_self_eq_true])] at found'
    cases found'
    obtain ⟨k, there⟩ := Entries.exists_mem_of_get? payload.2.1
    have small := short data (.entry there (Value.textIn_str.mpr rfl))
    exact absurd long' (Nat.not_lt.mpr (length_note_le small))
  · have other := not_exists.mp payload
    have mapped (key : Scalar) : Entries.get? key (entries.map fun e => (e.1, redact e.2)) =
        (Entries.get? key entries).map redact := Entries.get?_map (f := id) (fun _ _ => rfl) ..
    rw [content_of_other other, mapped] at contentType' found'
    obtain ⟨w, contentType, kept⟩ := Option.map_eq_some_iff.mp contentType'
    obtain ⟨word, rfl, same⟩ := redact_eq_str.mp kept
    rw [keptText_eq_word parse_binary] at same
    subst same
    obtain ⟨u, found, kept⟩ := Option.map_eq_some_iff.mp found'
    obtain ⟨data, rfl, rfl⟩ := redact_eq_str.mp kept
    -- What is kept of a short text is the text, so the content was too long before.
    have long : limit < data.length := by
      refine Nat.lt_of_not_le fun small => ?_
      rw [keptText_of_short small] at long'
      exact absurd small (Nat.not_le.mpr long')
    exact other data ⟨contentType, found, long⟩

/-! ### A value, redacted twice -/

/-- Redacting again changes nothing. -/
theorem redact_redact (short : ∀ s, Value.TextIn s v → s.length < vast) :
    redact (redact v) = redact v := by
  induction v using Value.induction with
  | scalar s noText =>
    cases s with
    | str s => exact absurd rfl (noText s)
    | _ => rfl
  | text s ih =>
    show redact (.str (keptText s)) = .str (keptText s)
    refine redact_str_eq.mpr fun entries' opens' => ?_
    by_cases opened : ∃ entries, Opens s entries
    · obtain ⟨entries, opens⟩ := opened
      obtain ⟨written, read⟩ := render_of_opens opens
      have again := ih entries opens.2 fun t there =>
        (Json.length_of_parse opens.2 there).trans (short s (Value.textIn_str.mpr rfl))
      rw [Except.ok.inj (opens'.2.symm.trans read)]
      exact ⟨written, again⟩
    · have closed := not_exists.mp opened
      rw [keptText_of_closed closed] at opens'
      exact absurd opens' (closed entries')
  | list items ih =>
    show redact (.list (values keptText items)) = .list (values keptText items)
    rw [redact_list_eq, values_eq]
    exact List.forall_mem_map.mpr fun v there =>
      ih v there fun s inside => short s (.item there inside)
  | map entries ih =>
    rw [redact_map, redact_map_eq]
    refine ⟨noPayload_content short, forall_mem_content (P := fun w => redact w = w) (fun n => ?_)
      fun e there => ih e there fun s inside => short s (.entry there inside)⟩
    exact congrArg Value.str (keptText_of_unsuspicious (isSuspect_note n))

/-- What can be redacted can be redacted again. -/
theorem fits_redact {limit : Nat} (fit : fits limit v = true) : fits limit (redact v) = true := by
  induction v using Value.induction generalizing limit with
  | scalar s noText =>
    cases s with
    | str s => exact absurd rfl (noText s)
    | _ => exact fit
  | text s ih =>
    show fits limit (.str (keptText s)) = true
    by_cases opened : ∃ entries, Opens s entries
    · obtain ⟨entries, opens⟩ := opened
      cases limit with
      | zero =>
        unfold fits at fit
        rw [opens.1] at fit
        cases fit
      | succ limit =>
        have inside := ih entries opens.2 ((fits_str.mp fit opens.1).2 entries opens.2)
        have read := (render_of_opens opens).2
        refine fits_str.mpr fun _ => ⟨fun f failed => ?_, fun entries' read' => ?_⟩
        · cases read.symm.trans failed
        · rwa [← Except.ok.inj (read.symm.trans read')]
    · rwa [keptText_of_closed (not_exists.mp opened)]
  | list items ih =>
    show fits limit (.list (values keptText items)) = true
    cases limit with
    | zero => cases fit
    | succ limit =>
      rw [values_eq]
      refine List.all_eq_true.mpr (List.forall_mem_map.mpr fun v there => ih v there ?_)
      exact List.all_eq_true.mp fit v there
  | map entries ih =>
    rw [redact_map]
    cases limit with
    | zero => cases fit
    | succ limit =>
      have each := List.all_eq_true.mp fit
      refine List.all_eq_true.mpr (forall_mem_content (P := (fits limit · = true)) (fun n => ?_)
        fun e there => ?_)
      · exact fits_of_closed (isSuspect_note n) limit
      · exact ih e there (each e there)

/-- A value that is kept is kept as it is when it is redacted again, and no part of what is kept is a
payload. Redaction comes to an end: a text that is read has shorter texts in it only, and no depth
beyond the length of a text makes a difference. -/
theorem kept_again (v : Value) :
    (∀ s w t, Json.parse s = .ok w → Value.TextIn t w → t.length < s.length) ∧
      (∀ s n, s.length ≤ n → text n s = text s.length s) ∧
      (¬ v.Throughout (isSuspect · = true) (HasRoom depthLimit) ∧ kept v = .error .tooDeep ∨
        v.Throughout (isSuspect · = true) (HasRoom depthLimit) ∧ ∃ w, kept v = .ok w ∧
          ((∀ s, Value.TextIn s v → s.length < vast) → kept w = .ok w ∧
            w.Throughout (isSuspect · = true) fun _ => NoPayload)) := by
  refine ⟨fun s w t read there => Json.length_of_parse read there, fun s n enough => text_eq enough,
    ?_⟩
  rw [← fits_iff]
  by_cases fit : fits depthLimit v = true
  · refine .inr ⟨fit, redact v, if_pos fit, fun short => ?_⟩
    have same := redact_redact short
    refine ⟨?_, ((redact_eq _).mp same).mono (fun _ => id) fun _ _ both => both.1⟩
    rw [kept, if_pos (fits_redact fit), same]
  · exact .inl ⟨fit, if_neg fit⟩

/-- A list of a mapping with binary content. -/
def contentOf (data : String) : Value :=
  .list [.map [(.str "contentType", .str "binary"), (.str "data", .str data)]]

/-- A long content is kept as its note, and the note as it is. -/
theorem kept_again_noted : ∃ data : String, data.length = 1001 ∧
    kept (contentOf data) = .ok (contentOf "[Binary data: 1001 chars]") ∧
    kept (contentOf "[Binary data: 1001 chars]") = .ok (contentOf "[Binary data: 1001 chars]") := by
  obtain ⟨data, letters⟩ : ∃ data, data = String.ofList ('A' :: List.replicate 1000 'A') := ⟨_, rfl⟩
  have length : data.length = 1001 := by
    rw [letters, String.length_ofList, List.length_cons, List.length_replicate]
  have plain : isSuspect data = false := by
    refine isSuspect_of_front (c := 'A') ?_ (by decide) (by decide)
    rw [letters, String.toList_ofList]
    rfl
  have payload : IsPayload [(.str "contentType", .str "binary"), (.str "data", .str data)] data :=
    ⟨rfl, rfl, by rw [length]; decide⟩
  have noted : redact (contentOf data) = contentOf "[Binary data: 1001 chars]" := by
    show Value.list [redact (.map _)] = _
    rw [redact_map, content_of_payload payload, length]
    rfl
  have room : fits depthLimit (contentOf data) = true := by
    show (fits 492 (.str "binary") && (fits 492 (.str data) && true) && true) = true
    rw [fits_of_closed plain]
    rfl
  have short : ∀ s, Value.TextIn s (contentOf data) → s.length < vast := by
    rintro s ⟨_, _ | ⟨list, part⟩⟩
    cases List.mem_singleton.mp list
    obtain _ | _ | ⟨map, part⟩ := part
    rcases List.mem_pair.mp map with rfl | rfl
    · rw [Value.textIn_str.mp ⟨_, part⟩]
      exact lt_vast (k := 4) (by decide) (by decide)
    · rw [Value.textIn_str.mp ⟨_, part⟩, length]
      exact lt_vast (k := 4) (by decide) (by decide)
  refine ⟨data, length, ?_⟩
  obtain ⟨-, -, ⟨bad, -⟩ | ⟨-, w, kept_once, again⟩⟩ := kept_again (contentOf data)
  · exact absurd (fits_iff.mp room) bad
  · have kept_note : kept (contentOf data) = .ok (contentOf "[Binary data: 1001 chars]") := by
      rw [kept, if_pos room, noted]
    rw [Except.ok.inj (kept_once.symm.trans kept_note)] at again
    exact ⟨kept_note, (again short).1⟩

/-! ### A text that is no data text -/

/-- A text that goes on with opening brackets behind the name of a field. -/
def unclosedText (n : Nat) : List Char :=
  '\x7b' :: (Json.quote "binary" ++ (Json.spaced.colon.toList ++ List.replicate n '['))

section Unclosed
variable {n : Nat}

theorem length_unclosedText (n : Nat) : (unclosedText n).length = 11 + n := by
  have name : (Json.quote "binary").length = 8 := by decide
  have colon : Json.spaced.colon.length = 2 := rfl
  rw [unclosedText, List.length_cons, List.length_append, List.length_append, String.length_toList,
    List.length_replicate, name, colon]
  omega

/-- It is refused for its depth before anything tells that it is not closed. -/
theorem parse_unclosed (deep : Json.depthLimit ≤ n) :
    Json.parse (String.ofList (unclosedText n)) = .error .tooDeep := by
  obtain ⟨m, rfl⟩ := Nat.exists_eq_succ_of_ne_zero
    (Nat.ne_of_gt (Nat.lt_of_lt_of_le (by decide) deep))
  have inside : Json.value 984 (List.replicate (m + 1) '[') = .error .tooDeep :=
    Json.value_tooDeep (Nat.le_of_succ_le_succ deep)
  have refused : Json.value Json.depthLimit (unclosedText (m + 1)) = .error .tooDeep :=
    Json.value_map_error (by simp [Json.layouts]) "binary" (Json.skipSpace_cons rfl _) inside
  have solid : Json.skipSpace (unclosedText (m + 1)) = unclosedText (m + 1) :=
    Json.skipSpace_cons rfl _
  rw [Json.parse, String.toList_ofList, Json.document_of_ne (by rintro _ ⟨⟩), solid, refused]
  rfl

theorem isSuspect_unclosed (long : limit ≤ n) :
    isSuspect (String.ofList (unclosedText n)) = true := by
  have length : limit < (unclosedText n).length := by
    rw [length_unclosedText]
    omega
  rw [isSuspect, String.length_ofList, String.toList_ofList, Bool.and_eq_true, Bool.and_eq_true]
  refine ⟨⟨decide_eq_true length, rfl⟩, (Text.contains_iff _ _).mpr ?_⟩
  have name : Json.quote "binary" = "\"binary\"".toList := by decide
  refine ⟨['\x7b'], Json.spaced.colon.toList ++ List.replicate n '[', ?_⟩
  rw [unclosedText, name]
  rfl

/-- A long text like that is not kept, though it is no data text. -/
theorem kept_of_unclosed (long : limit ≤ n) :
    kept (.str (String.ofList (unclosedText n))) = .error .tooDeep := by
  have read := parse_unclosed (Nat.le_trans (by decide) long)
  have unfit : ¬ fits depthLimit (.str (String.ofList (unclosedText n))) = true := fun fit =>
    Bool.false_ne_true ((fits_str.mp fit (isSuspect_unclosed long)).1 _ read)
  exact if_neg unfit

end Unclosed

theorem kept_unclosed : kept (.str (String.ofList (unclosedText 20000))) = .error .tooDeep :=
  kept_of_unclosed (by decide)

end Redaction
end Runbook
