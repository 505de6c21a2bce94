import Runbook.Proofs.FileData
import Runbook.Proofs.Run.Passing
import Runbook.Proofs.Visit.Calls

/-! Files in requests.

A placeholder for a variable that holds a file is filled with the text of the file, and the node
takes the file out of it again: as the whole body, or as a field of a form. Either way what is sent
is the bytes that the file carries. -/
namespace Runbook

open Visit Template

variable {σ : Type} {c : Context σ} {s : Session σ} {scope : Scope} {f : FileData}
  {b : List UInt8} {v : String}

/-! ### Filled properties -/

/-- The node sees its own properties, filled from the variables. -/
def Context.Filled (c : Context σ) : Prop :=
  fillProperties c.scope c.node.properties = .ok c.properties

theorem Context.Filled.property (h : c.Filled) {name text : String} (cooked : isRaw name = false)
    (given : c.node.property? name = some text) :
    Template.resolve text c.scope = .ok (c.property name) := by
  obtain ⟨shown, resolved, there⟩ := fillProperties_get? h cooked given
  rw [resolved, Context.property_eq there]

/-- A placeholder for a variable with a file is filled with a text that holds the file. -/
theorem FileData.exists_filled (hv : IsName v) (bound : scope.get? v = some f.toValue) :
    ∃ text, Template.resolve (holeFor v) scope = .ok text ∧ f.Holds (.str text) := by
  obtain ⟨text, written⟩ := f.exists_text
  have filled := resolve_front hv (lookup_name hv bound) written
    (by decide : '{' ∉ ("" : String).toList)
  rw [String.append_empty, String.append_empty] at filled
  exact ⟨text, filled, .text written⟩

namespace Visit

open Act (Calls)

/-! ### Sending -/

/-- A visit that sends a request with a body. -/
structure Posts (c : Context σ) : Prop where
  filled : c.Filled
  url : (c.trimmed "url").isEmpty = false
  method : bodyMethods.contains (Text.uppered (c.propertyOr "method" "GET")) = true
  headers : ∃ headers, Http.parseHeaders (c.property "headers") = .ok headers
  client : c.providers.http.isSome = true

theorem Posts.requestOf (h : Posts c) (body : (c.property "body").isEmpty = false) :
    ∃ r, requestOf c = withBody c r (c.property "body") := by
  obtain ⟨headers, parsed⟩ := h.headers
  refine ⟨{ url := c.trimmed "url", method := Text.uppered (c.propertyOr "method" "GET"),
            headers }, ?_⟩
  unfold Visit.requestOf
  simp only [h.url, h.method, parsed, body, Bool.not_true, Bool.or_false, Bool.false_eq_true,
    if_false]
  rfl

/-- A request whose method has no body sends none, whatever the node has for it. -/
theorem requestOf_bodiless (url : (c.trimmed "url").isEmpty = false)
    (method : bodyMethods.contains (Text.uppered (c.propertyOr "method" "GET")) = false)
    (headers : ∃ headers, Http.parseHeaders (c.property "headers") = .ok headers) :
    ∃ r, requestOf c = .ok r ∧ r.content = none := by
  obtain ⟨headers, parsed⟩ := headers
  unfold requestOf
  simp only [url, method, parsed, Bool.not_false, Bool.or_true, Bool.false_eq_true, if_false,
    if_true]
  exact ⟨_, rfl, rfl⟩

theorem Posts.calls (h : Posts c) {r : Http.Request} (described : Visit.requestOf c = .ok r) :
    Calls c.providers (request c) s [.http r] := by
  obtain ⟨client, offered⟩ := Option.isSome_iff_exists.mp h.client
  unfold request Context.require
  simp only [offered, described, Act.ofExcept, pure_bind]
  refine ((Calls.one (.http offered r)).mapFault _).bind fun response s => ?_
  split
  · exact .fail _
  · exact (Calls.ofExcept _).bind fun value s => .pure _

/-- A request that cannot be made up is not sent. -/
theorem Posts.refuses (h : Posts c) {f : Fault} (refused : Visit.requestOf c = .error f) :
    Calls c.providers (request c) s [] ∧ request c s = (.error (.fault f), s) := by
  obtain ⟨client, offered⟩ := Option.isSome_iff_exists.mp h.client
  have failed : request c = Act.fail f := by
    unfold request Context.require
    simp only [offered, refused]
    rfl
  rw [failed]
  exact ⟨.fail f, rfl⟩

/-! ### A file for the body -/

theorem bodyFile_of_holds {text : String} (h : f.Holds (.str text)) (carries : f.Carries b)
    (some_bytes : b ≠ []) : bodyFile c text = .ok (f, b) := by
  refine bind_eq_ok.mpr ⟨some f, h.ofValue?, ?_⟩
  simp only [carries.binary, carries.data_isEmpty some_bytes, carries.bytes]
  rfl

/-- A body that is nothing but the placeholder for a file is sent as the bytes of the file. -/
theorem Posts.sends_bytes (h : Posts c) (type : c.propertyOr "contentType" "json" = "binary")
    (hv : IsName v) (body : c.node.property? "body" = some (holeFor v))
    (bound : c.scope.get? v = some f.toValue) (carries : f.Carries b) (some_bytes : b ≠ []) :
    ∃ r, Calls c.providers (request c) s [.http r] ∧ r.content = some b := by
  obtain ⟨text, resolved, holds⟩ := FileData.exists_filled hv bound
  cases resolved.symm.trans (h.filled.property rfl body)
  obtain ⟨r, described⟩ := h.requestOf holds.ne_empty
  have sent : ∃ r', withBody c r (c.property "body") = .ok r' ∧ r'.content = some b := by
    unfold withBody
    simp only [type]
    exact ⟨_, bind_eq_ok.mpr ⟨(f, b), bodyFile_of_holds holds carries some_bytes, rfl⟩, rfl⟩
  obtain ⟨r', sent, content⟩ := sent
  exact ⟨r', h.calls (described.trans sent), content⟩

/-! ### Files in forms -/

/-- What a field of a form is filled with. -/
structure Fills (scope : Scope) (e : Scalar × Value) (key value : String) : Prop where
  key : Template.resolve e.1.display scope = .ok key
  value : Template.resolve e.2.display scope = .ok value

/-- The name of a field, from a key that may give a file name behind it. -/
def fieldName (key : String) : String := String.ofList (Text.cutAt ':' key.toList).1

/-- A field that can be sent. -/
def Sendable (scope : Scope) (e : Scalar × Value) : Prop :=
  ∃ key value, Fills scope e key value ∧ ∀ form, ∃ form', addField form key value = .ok form'

/-- A field that is sent as a file under a name: its value holds one, or its key gives it a file
name. -/
def SendsFile (scope : Scope) (e : Scalar × Value) (name : String) : Prop :=
  ∃ key value, Fills scope e key value ∧ fieldName key = name ∧
    ((∃ f, FileData.ofValue? (.str value) = .ok (some f)) ∨
      (Text.cutAt ':' key.toList).2.isSome = true)

variable {form : Form} {name : String}

theorem uploadOf_carries (carries : f.Carries b) (some_bytes : b ≠ []) :
    uploadOf f = .ok ⟨f.basename, b, f.mimeType⟩ := by
  unfold uploadOf
  simp only [carries.binary, carries.data_isEmpty some_bytes, carries.bytes]
  rfl

/-- A value that holds a file is sent as that file, whatever stands behind the name in the key. -/
theorem addField_holds {text : String} (h : f.Holds (.str text)) (carries : f.Carries b)
    (some_bytes : b ≠ []) (form : Form) (key : String) :
    addField form key text = .ok { form with
      files := Entries.insert (fieldName key) ⟨f.basename, b, f.mimeType⟩ form.files } := by
  unfold addField
  simp only [h.ofValue?]
  refine bind_eq_ok.mpr ⟨some f, rfl, ?_⟩
  simp only [uploadOf_carries carries some_bytes]
  rfl

/-- A field that is not sent as a file of that name leaves the file of that name alone. -/
theorem addField_files {form' : Form} {e : Scalar × Value} {key value : String}
    (fills : Fills scope e key value) (other : ¬ SendsFile scope e name)
    (h : addField form key value = .ok form') :
    Entries.get? name form'.files = Entries.get? name form.files := by
  have apart (sent : (∃ f, FileData.ofValue? (.str value) = .ok (some f)) ∨
      (Text.cutAt ':' key.toList).2.isSome = true) : name ≠ fieldName key :=
    fun same => other ⟨key, value, fills, same.symm, sent⟩
  unfold addField at h
  obtain ⟨file, read, h⟩ := bind_eq_ok.mp h
  cases file with
  | some file =>
    obtain ⟨upload, -, added⟩ := bind_eq_ok.mp h
    cases added
    exact Entries.get?_insert_of_ne _ _ (apart (.inl ⟨file, read⟩))
  | none =>
    cases given : (Text.cutAt ':' key.toList).2 with
    | some filename =>
      simp only [given] at h
      cases h
      exact Entries.get?_insert_of_ne _ _ (apart (.inr (by rw [given]; rfl)))
    | none =>
      simp only [given] at h
      cases h
      rfl

theorem formOf_cons {e : Scalar × Value} {key value : String} (fills : Fills scope e key value)
    (form : Form) (rest : List (Scalar × Value)) :
    formOf scope form (e :: rest) =
      addField form key value >>= fun form => formOf scope form rest := by
  simp only [formOf, fills.key, fills.value]
  rfl

/-- Fields that can be sent are sent, and leave the file of another name alone. -/
theorem formOf_files (name : String) {fields : List (Scalar × Value)}
    (sendable : ∀ e ∈ fields, Sendable scope e) (form : Form) :
    ∃ form', formOf scope form fields = .ok form' ∧
      ((∀ e ∈ fields, ¬ SendsFile scope e name) →
        Entries.get? name form'.files = Entries.get? name form.files) := by
  induction fields generalizing form with
  | nil => exact ⟨form, rfl, fun _ => rfl⟩
  | cons e rest ih =>
    obtain ⟨⟨key, value, fills, adds⟩, behind⟩ := List.forall_mem_cons.mp sendable
    obtain ⟨added, here⟩ := adds form
    obtain ⟨form', there, keeps⟩ := ih behind added
    refine ⟨form', (formOf_cons fills form rest).trans (bind_eq_ok.mpr ⟨added, here, there⟩),
      fun others => ?_⟩
    obtain ⟨other, others⟩ := List.forall_mem_cons.mp others
    exact (keeps others).trans (addField_files fills other here)

theorem formOf_append (form : Form) (fields more : List (Scalar × Value)) :
    formOf scope form (fields ++ more) =
      formOf scope form fields >>= fun form => formOf scope form more := by
  induction fields generalizing form with
  | nil => rfl
  | cons e rest ih => simp only [List.cons_append, formOf, ih, bind_assoc]

/-- A field whose value is nothing but the placeholder for a file is sent as that file, unless a
later field is sent as a file under the same name. -/
theorem formOf_sends {before after : List (Scalar × Value)} {k : Scalar} {key : String}
    (hv : IsName v) (bound : scope.get? v = some f.toValue) (carries : f.Carries b)
    (some_bytes : b ≠ []) (filled : Template.resolve k.display scope = .ok key)
    (sendable : ∀ e ∈ before ++ after, Sendable scope e)
    (last : ∀ e ∈ after, ¬ SendsFile scope e (fieldName key)) :
    ∃ form, formOf scope {} (before ++ (k, .str (holeFor v)) :: after) = .ok form ∧
      Entries.get? (fieldName key) form.files = some ⟨f.basename, b, f.mimeType⟩ := by
  obtain ⟨text, resolved, holds⟩ := FileData.exists_filled hv bound
  obtain ⟨first, behind⟩ := List.forall_mem_append.mp sendable
  obtain ⟨form₁, sent, -⟩ := formOf_files (fieldName key) first {}
  have added := addField_holds holds carries some_bytes form₁ key
  have own : Fills scope (k, .str (holeFor v)) key text := ⟨filled, resolved⟩
  obtain ⟨form, rest, keeps⟩ := formOf_files (fieldName key) behind { form₁ with
    files := Entries.insert (fieldName key) ⟨f.basename, b, f.mimeType⟩ form₁.files }
  refine ⟨form, ?_, (keeps last).trans (Entries.get?_insert_self ..)⟩
  rw [formOf_append, sent]
  exact (formOf_cons own form₁ after).trans (bind_eq_ok.mpr ⟨_, added, rest⟩)

/-! ### A file in a form -/

/-- Data text does not open with a placeholder. -/
theorem placeholder?_of_parse {text : String} {value : Value} (h : Json.parse text = .ok value) :
    ∃ c cs, text.toList = c :: cs ∧ placeholder? (c :: cs) = none := by
  rw [Json.parse_eq_ok] at h
  cases opens : text.toList with
  | nil =>
    rw [opens] at h
    cases h
  | cons c cs =>
    refine ⟨c, cs, rfl, ?_⟩
    by_cases brace : c = '{'
    · subst brace
      refine placeholder?_braced ?_
      rintro rest rfl
      rw [opens] at h
      cases h
    · exact placeholder?_of_ne brace cs

/-- The fields of a body that is a mapping make up the form that is sent. -/
theorem Posts.requestOf_form (h : Posts c)
    (type : c.propertyOr "contentType" "json" = "form-data") {text : String}
    {entries : List (Scalar × Value)} (body : c.node.property? "body" = some text)
    (fields : Json.parse text = .ok (.map entries)) :
    ∃ r : Http.Request, Visit.requestOf c = (formOf c.scope {} entries).map fun form =>
      { r with
        data := some form.texts
        files := if form.files.isEmpty then none else some form.files } := by
  have described : bodyForm c = formOf c.scope {} entries := by
    unfold bodyForm
    simp only [body, Option.getD_some, fields]
  obtain ⟨_, _, opens, plain⟩ := placeholder?_of_parse fields
  obtain ⟨r, posted⟩ := h.requestOf (resolve_isEmpty opens plain (h.filled.property rfl body))
  refine ⟨{ r with headers := r.headers.filter fun e => !Http.isContentType e.1 }, ?_⟩
  rw [posted]
  unfold withBody
  simp only [type, described]
  cases formOf c.scope {} entries <;> rfl

/-- In a form the bytes of a file are sent under the name of its field, with the name and the media
type of the file. -/
theorem Posts.sends_form (h : Posts c) (type : c.propertyOr "contentType" "json" = "form-data")
    {text key : String} {before after : List (Scalar × Value)} {k : Scalar} (hv : IsName v)
    (body : c.node.property? "body" = some text)
    (fields : Json.parse text = .ok (.map (before ++ (k, .str (holeFor v)) :: after)))
    (bound : c.scope.get? v = some f.toValue) (carries : f.Carries b) (some_bytes : b ≠ [])
    (filled : Template.resolve k.display c.scope = .ok key)
    (sendable : ∀ e ∈ before ++ after, Sendable c.scope e)
    (last : ∀ e ∈ after, ¬ SendsFile c.scope e (fieldName key)) :
    ∃ r files, Calls c.providers (request c) s [.http r] ∧ r.files = some files ∧
      Entries.get? (fieldName key) files = some ⟨f.basename, b, f.mimeType⟩ := by
  obtain ⟨form, sent, there⟩ := formOf_sends hv bound carries some_bytes filled sendable last
  obtain ⟨r, described⟩ := h.requestOf_form type body fields
  have some_files : form.files.isEmpty = false := by
    cases files : form.files with
    | nil => rw [files] at there; cases there
    | cons _ _ => rfl
  rw [sent] at described
  refine ⟨_, form.files, h.calls described, ?_, there⟩
  simp only [some_files, Bool.false_eq_true, if_false]

end Visit
end Runbook
