import Runbook.Http.Message
import Runbook.Proofs.Json.Nesting
import Runbook.Proofs.Text.Encoding
import Runbook.Proofs.Visit.Bytes

/-! Data text in its normal form.

A response that is not read as bytes becomes a text: data text in its compact form, any other text
as it is (`responseValue_normal`). The compact form has no blank outside of quotes (`Dense`), is read
as the value that it was written for, and is the text that the value leaves where it is substituted;
so it is its own normal form. Only what is nested too deeply has none (`responseValue_tooDeep`). -/
namespace Runbook.Json

/-! ### Outside of quotes -/

/-- Where a character of data text stands. -/
inductive Place
  | outside
  | quoted
  | escaped

/-- Where the next character stands. -/
def Place.behind : Place → Char → Place
  | .outside, c => if c = '"' then .quoted else .outside
  | .quoted, c => if c = '"' then .outside else if c = '\\' then .escaped else .quoted
  | .escaped, _ => .quoted

/-- No blank stands outside of quotes. -/
def Dense : Place → List Char → Prop
  | _, [] => True
  | p, c :: cs => (p = .outside → isSpace c = false) ∧ Dense (p.behind c) cs

theorem dense_append {p : Place} {a b : List Char} :
    Dense p (a ++ b) ↔ Dense p a ∧ Dense (a.foldl Place.behind p) b := by
  induction a generalizing p with
  | nil => simp only [List.nil_append, Dense, true_and, List.foldl_nil]
  | cons c a ih =>
    rw [List.cons_append, Dense, ih, Dense, and_assoc]
    rfl

/-- What leads from one place to another, with no blank outside of quotes. -/
def Leads (p : Place) (cs : List Char) (q : Place) : Prop :=
  Dense p cs ∧ cs.foldl Place.behind p = q

namespace Leads

variable {p q r : Place} {a b cs : List Char}

theorem append (ha : Leads p a q) (hb : Leads q b r) : Leads p (a ++ b) r := by
  obtain ⟨dense, rfl⟩ := ha
  exact ⟨dense_append.mpr ⟨dense, hb.1⟩, by rw [List.foldl_append, hb.2]⟩

theorem cons {c : Char} (solid : p = .outside → isSpace c = false) (h : Leads (p.behind c) cs q) :
    Leads p (c :: cs) q := ⟨⟨solid, h.1⟩, h.2⟩

theorem flatMap {f : Char → List Char} (h : ∀ c ∈ cs, Leads p (f c) p) : Leads p (cs.flatMap f) p := by
  induction cs with
  | nil => exact ⟨trivial, rfl⟩
  | cons c cs ih =>
    obtain ⟨here, later⟩ := List.forall_mem_cons.mp h
    exact here.append (ih later)

/-- What has neither quotes nor blanks stays outside. -/
theorem outside (h : ∀ c ∈ cs, c ≠ '"' ∧ isSpace c = false) : Leads .outside cs .outside := by
  induction cs with
  | nil => exact ⟨trivial, rfl⟩
  | cons c cs ih =>
    obtain ⟨⟨noQuote, solid⟩, later⟩ := List.forall_mem_cons.mp h
    refine cons (fun _ => solid) ?_
    rw [Place.behind, if_neg noQuote]
    exact ih later

theorem solid_of_all (h : (cs.all fun c => c != '"' && !isSpace c) = true) :
    ∀ c ∈ cs, c ≠ '"' ∧ isSpace c = false := fun c there => by
  have solid := List.all_eq_true.mp h c there
  rwa [Bool.and_eq_true, bne_iff_ne, Bool.not_eq_true'] at solid

/-- What has neither quotes nor backslashes stays inside. -/
theorem quoted (h : ∀ c ∈ cs, c ≠ '"' ∧ c ≠ '\\') : Leads .quoted cs .quoted := by
  induction cs with
  | nil => exact ⟨trivial, rfl⟩
  | cons c cs ih =>
    obtain ⟨⟨noQuote, noBackslash⟩, later⟩ := List.forall_mem_cons.mp h
    refine cons nofun ?_
    rw [Place.behind, if_neg noQuote, if_neg noBackslash]
    exact ih later

theorem escaped (c : Char) (h : Leads .quoted cs .quoted) : Leads .quoted ('\\' :: c :: cs) .quoted :=
  cons nofun (cons nofun h)

theorem escape (c : Char) : Leads .quoted (Json.escape c) .quoted := by
  unfold Json.escape
  split
  iterate 7 exact escaped _ (quoted nofun)
  split
  · have digit : ∀ n < 16, Text.hexDigit n ≠ '"' ∧ Text.hexDigit n ≠ '\\' := by decide
    refine escaped _ (quoted fun d there => ?_)
    obtain ⟨n, small, rfl⟩ := exists_of_mem_hex there
    exact digit n small
  · rename_i noQuote noBackslash _ _ _ _ _ _
    exact quoted (List.forall_mem_singleton.mpr ⟨noQuote, noBackslash⟩)

theorem quote (s : String) : Leads .outside (Json.quote s) .outside := by
  have inside : Leads .quoted (escapeAll s.toList) .quoted := flatMap fun c _ => escape c
  have closing : Leads .quoted ['"'] .outside := ⟨⟨nofun, trivial⟩, rfl⟩
  exact cons (fun _ => rfl) (inside.append closing)

theorem scalar {s : Scalar} (h : s.Writable) : Leads .outside (writeScalar s).text .outside := by
  have digit (c : Char) (h : isAsciiDigit c = true) : c ≠ '"' ∧ isSpace c = false := by
    constructor
    · rintro rfl
      cases h
    · cases blank : isSpace c with
      | false => rfl
      | true =>
        simp only [isSpace, Bool.or_eq_true, beq_iff_eq] at blank
        obtain ((rfl | rfl) | rfl) | rfl := blank <;> cases h
  have number := forall_mem_number digit (solid_of_all (by decide)) (s := s)
  cases s with
  | null => exact outside (solid_of_all (by decide))
  | bool b => cases b <;> exact outside (solid_of_all (by decide))
  | int n => exact outside (number ⟨h, .inl ⟨n, rfl⟩⟩)
  | float x => exact outside (number ⟨h, .inr ⟨x, rfl⟩⟩)
  | str s => exact quote s
  | bytes => cases h
  | moment => cases h

end Leads

/-- Nothing that the compact layout writes has a blank outside of quotes. -/
theorem composes_dense :
    Written.Composes compact fun w => w.refused = none → Leads .outside w.text .outside where
  append {a b} ha hb written := by
    obtain ⟨first, second⟩ := (Written.refused_append a b).mp written
    rw [Written.text_append b first]
    exact (ha first).append (hb second)
  scalar s written := .scalar ((writeScalar_refused s).mp written)
  key k written := by
    rw [writeKey_eq ((writeKey_refused k).mp written)]
    exact .quote _
  stop f k stopped := nofun
  empty c d h _ := by
    obtain ⟨⟨⟩⟩ | ⟨⟨⟩⟩ := h <;> exact .outside (Leads.solid_of_all (by decide))
  opening _ c h _ := by
    obtain rfl | rfl := h <;> exact .outside (List.forall_mem_singleton.mpr (by decide))
  closing _ c h _ := by
    obtain rfl | rfl := h <;> exact .outside (List.forall_mem_singleton.mpr (by decide))
  colon _ := .outside (Leads.solid_of_all (by decide))
  comma _ _ := .outside (List.forall_mem_singleton.mpr (by decide))

theorem dense_of_render {v : Value} {t : String} (rendered : render compact v = .ok t) :
    Dense .outside t.toList := by
  have written := (write_refused compact 0 v).mpr ((render_isOk compact v).mp ⟨t, rendered⟩)
  unfold render at rendered
  simp only [written, Except.ok.injEq] at rendered
  rw [← rendered, String.toList_ofList]
  exact (composes_dense.write 0 v written).1

end Runbook.Json

namespace Runbook.Http

open Json (compact layouts)

variable {s t : String} {v : Value}

/-! ### Normal forms -/

theorem normalizeText_of_parse (read : Json.parse s = .ok v) :
    ∃ t, Json.render compact v = .ok t ∧ normalizeText s = .ok t := by
  obtain ⟨t, rendered⟩ := (Json.render_isOk compact v).mpr (Json.writable_of_parse read)
  refine ⟨t, rendered, ?_⟩
  rw [normalizeText, read]
  simp only [rendered]

/-- A text that is no data text is its own normal form. -/
theorem normalizeText_of_parse_error {f : Fault} (unread : Json.parse s = .error f) :
    normalizeText s = if f.isBadValue then .ok s else .error f := by
  rw [normalizeText, unread]

theorem normalizeText_normal (h : normalizeText s = .ok t) : normalizeText t = .ok t := by
  cases read : Json.parse s with
  | ok v =>
    obtain ⟨u, rendered, normal⟩ := normalizeText_of_parse read
    cases normal.symm.trans h
    have again := Json.parse_render_of_parse (List.mem_cons_self ..) read rendered
    obtain ⟨u, rendered', normal⟩ := normalizeText_of_parse again
    cases rendered.symm.trans rendered'
    exact normal
  | error f =>
    rw [normalizeText_of_parse_error read] at h
    split at h
    · rename_i bad
      cases h
      rw [normalizeText_of_parse_error read, if_pos bad]
    · cases h

/-- What a list or a mapping leaves where it is substituted is its compact data text. -/
theorem stringify_container (container : ∀ s, v ≠ .scalar s) :
    Literal.stringify v = Json.render compact v := by
  cases v with
  | scalar s => exact absurd rfl (container s)
  | list | map => rfl

/-! ### Responses -/

variable {url responseType : String} {r : Response}

theorem responseValue_text (noBytes : ¬ IsBytes r responseType) :
    responseValue url r responseType = (normalizeText r.text).map .str := by
  have plain : (if responseType = "binary" then true
      else if responseType = "text" then false else Mime.isBinary (mimeType r)) = false := by
    rw [IsBytes, not_or, not_and] at noBytes
    rw [if_neg noBytes.1]
    split
    · rfl
    · rename_i other
      exact Bool.eq_false_iff.mpr (noBytes.2 other)
  unfold responseValue
  simp only [plain, Bool.false_eq_true, if_false]
  cases normalizeText r.text <;> rfl

/-- What is no data text is kept as it is. -/
theorem responseValue_of_parse_error (noBytes : ¬ IsBytes r responseType) {f : Fault}
    (unread : Json.parse r.text = .error f) :
    responseValue url r responseType = if f = .tooDeep then .error f else .ok (.str r.text) := by
  rw [responseValue_text noBytes, normalizeText_of_parse_error unread]
  obtain bad | rfl := Json.parse_error unread
  · have other : f ≠ .tooDeep := by
      rintro rfl
      cases bad
    rw [if_pos bad, if_neg other]
    rfl
  · rfl

/-- A text is read from its bytes, whatever its characters are. -/
theorem text_of_encode (sent : r.content = Text.encode t) : r.text = t := by
  rw [Response.text, sent, Text.decodeLossy_encode, String.ofList_toList]

/-- A response with a text, which is no file. -/
def textual (text : String) : Response :=
  { status := 200, headers := [("content-type", "application/json")], content := Text.encode text }

theorem not_isBytes_textual (text : String) : ¬ IsBytes (textual text) "auto" := by
  have mime : mimeType (textual text) = mimeType { textual "" with content := [] } := rfl
  have plain : Mime.isBinary (mimeType { textual "" with content := [] }) = false := by
    with_unfolding_all rfl
  rw [IsBytes, mime, plain]
  decide

/-- Data text that is nested too deeply has no value. -/
theorem responseValue_tooDeep (noBytes : ¬ IsBytes r responseType) {style : Json.Style}
    (layout : style ∈ layouts) (rendered : Json.render style v = .ok r.text)
    (deep : Json.depthLimit < v.nesting) : responseValue url r responseType = .error .tooDeep :=
  responseValue_of_parse_error noBytes (Json.parse_render_tooDeep layout rendered deep)

/-- A list in a list, and so on. -/
def brackets : Nat → Value
  | 0 => .list []
  | n + 1 => .list [brackets n]

theorem write_brackets (level n : Nat) :
    Json.write compact level (brackets n) =
      .ok (List.replicate (n + 1) '[' ++ List.replicate (n + 1) ']') := by
  induction n generalizing level with
  | zero => rw [brackets, Json.write]; rfl
  | succ n ih =>
    have closing : Json.writeItems compact level [] = .ok [']'] := by
      rw [Json.writeItems]
      rfl
    have opens : List.replicate (n + 2) '[' = '[' :: List.replicate (n + 1) '[' :=
      List.replicate_succ
    have closes : List.replicate (n + 2) ']' = List.replicate (n + 1) ']' ++ [']'] :=
      List.replicate_succ'
    rw [brackets, Json.write, ih, closing, opens, closes, List.cons_append, ← List.append_assoc]
    rfl

theorem nesting_brackets (n : Nat) : (brackets n).nesting = n + 1 := by
  induction n with
  | zero => rfl
  | succ n ih =>
    show max (brackets n).nesting 0 + 1 = _
    rw [ih, Nat.max_zero]

end Runbook.Http
