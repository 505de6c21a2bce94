import Runbook.Proofs.Json.Reading
import Runbook.Proofs.Visit.Bytes

/-! Forms and their parts.

Each entry of a form is made into one part once its key and value are filled: a text under its
whole key, or a file under the name of its field. Texts and files are collected apart, and in either
collection the last of the parts that go to one slot is the one that is kept. Texts under different
keys never meet. Files do: `a:x.txt` and `a:y.txt` are different keys with one field name, and of the
two files only the second is sent. So nothing is lost just where no two parts go to one slot
(`PostsForm.sends_parts`). -/
namespace Runbook.Visit

open Act (Calls)
open Template

variable {σ : Type} {c : Context σ} {s : Session σ}

/-! ### Parts -/

/-- A part of a form. -/
inductive Part
  | text (key value : String)
  | file (name : String) (upload : Http.Upload)
deriving DecidableEq

/-- Where a form has room for one part. -/
inductive Slot
  | text (key : String)
  | file (name : String)
deriving DecidableEq

def Part.slot : Part → Slot
  | .text key _ => .text key
  | .file name _ => .file name

/-- A part that no later one takes the place of. -/
def Stays (part : Part) (parts : List Part) : Prop :=
  ∃ before after, parts = before ++ part :: after ∧ ∀ later ∈ after, later.slot ≠ part.slot

theorem not_stays_nil (part : Part) : ¬ Stays part [] := by
  rintro ⟨before, after, whole, -⟩
  exact List.append_ne_nil_of_right_ne_nil before (List.cons_ne_nil part after) whole.symm

theorem stays_cons {part first : Part} {rest : List Part} :
    Stays part (first :: rest) ↔
      Stays part rest ∨ (part = first ∧ ∀ later ∈ rest, later.slot ≠ part.slot) := by
  constructor
  · rintro ⟨before, after, whole, last⟩
    cases before with
    | nil =>
      obtain ⟨rfl, rfl⟩ := List.cons.inj whole
      exact .inr ⟨rfl, last⟩
    | cons _ before =>
      obtain ⟨-, rfl⟩ := List.cons.inj whole
      exact .inl ⟨before, after, rfl, last⟩
  · rintro (⟨before, after, rfl, last⟩ | ⟨rfl, last⟩)
    · exact ⟨first :: before, after, rfl, last⟩
    · exact ⟨[], rest, rfl, last⟩

theorem Stays.mem {part : Part} {parts : List Part} (h : Stays part parts) : part ∈ parts := by
  obtain ⟨before, after, rfl, -⟩ := h
  exact List.mem_append_right before (List.mem_cons_self ..)

/-- Where no two parts go to one slot all of them stay. -/
theorem stays_of_nodup {part : Part} {parts : List Part} (apart : (parts.map Part.slot).Nodup) :
    Stays part parts ↔ part ∈ parts := by
  refine ⟨Stays.mem, fun there => ?_⟩
  obtain ⟨before, after, rfl⟩ := List.append_of_mem there
  rw [List.map_append, List.map_cons] at apart
  have fresh := (List.nodup_cons.mp (List.nodup_append.mp apart).2.1).1
  exact ⟨before, after, rfl, fun later behind same =>
    fresh (same ▸ List.mem_map_of_mem behind)⟩

/-! ### Collecting -/

namespace Form

def add (form : Form) : Part → Form
  | .text key value => { form with texts := Entries.insert key value form.texts }
  | .file name upload => { form with files := Entries.insert name upload form.files }

def parts (form : Form) : List Part :=
  form.texts.map (fun e => .text e.1 e.2) ++ form.files.map fun e => .file e.1 e.2

/-- No slot has two parts. -/
structure Tidy (form : Form) : Prop where
  texts : (Entries.keys form.texts).Nodup
  files : (Entries.keys form.files).Nodup

theorem tidy_empty : Tidy {} := ⟨List.nodup_nil, List.nodup_nil⟩

variable {form : Form} {part : Part}

theorem mem_parts : part ∈ form.parts ↔ match part with
    | .text key value => (key, value) ∈ form.texts
    | .file name upload => (name, upload) ∈ form.files := by
  cases part <;> simp [parts]

theorem Tidy.add (tidy : form.Tidy) (part : Part) : (form.add part).Tidy := by
  cases part with
  | text => exact ⟨Entries.keys_nodup_insert tidy.texts, tidy.files⟩
  | file => exact ⟨tidy.texts, Entries.keys_nodup_insert tidy.files⟩

theorem Tidy.slots (tidy : form.Tidy) : (form.parts.map Part.slot).Nodup := by
  have slots : form.parts.map Part.slot =
      (Entries.keys form.texts).map Slot.text ++ (Entries.keys form.files).map Slot.file := by
    simp [parts, Entries.keys, Part.slot, Function.comp_def]
  rw [slots]
  refine List.nodup_append.mpr ⟨tidy.texts.map fun _ _ => Slot.text.inj,
    tidy.files.map fun _ _ => Slot.file.inj, fun a there b here same => ?_⟩
  obtain ⟨_, -, rfl⟩ := List.mem_map.mp there
  obtain ⟨_, -, rfl⟩ := List.mem_map.mp here
  cases same

/-- A new part takes the place of the one in its slot and leaves the others. -/
theorem Tidy.mem_add (tidy : form.Tidy) {new : Part} :
    part ∈ (form.add new).parts ↔ part = new ∨ (part ∈ form.parts ∧ part.slot ≠ new.slot) := by
  rw [mem_parts, mem_parts]
  cases new <;> cases part <;>
    simp [Form.add, Part.slot, Entries.mem_insert_iff tidy.texts,
      Entries.mem_insert_iff tidy.files]

/-- Of parts that are collected those are kept that no later one takes the place of. -/
theorem Tidy.mem_collected {new : List Part} (tidy : form.Tidy) :
    part ∈ (new.foldl Form.add form).parts ↔
      Stays part new ∨ (part ∈ form.parts ∧ ∀ later ∈ new, later.slot ≠ part.slot) := by
  -- From any tidy form, since what is collected first is there when the rest comes.
  induction new generalizing form with
  | nil => simp [not_stays_nil]
  | cons first rest ih =>
    rw [List.foldl_cons, ih (tidy.add first), tidy.mem_add, stays_cons, List.forall_mem_cons]
    constructor
    · rintro (stays | ⟨rfl | ⟨there, other⟩, last⟩)
      · exact .inl (.inl stays)
      · exact .inl (.inr ⟨rfl, last⟩)
      · exact .inr ⟨there, Ne.symm other, last⟩
    · rintro ((stays | ⟨rfl, last⟩) | ⟨there, other, last⟩)
      · exact .inl stays
      · exact .inr ⟨.inl rfl, last⟩
      · exact .inr ⟨.inr ⟨there, Ne.symm other⟩, last⟩

theorem Tidy.collected (tidy : form.Tidy) (new : List Part) :
    (new.foldl Form.add form).Tidy := by
  induction new generalizing form with
  | nil => exact tidy
  | cons first rest ih => exact ih (tidy.add first)

theorem mem_collected {new : List Part} :
    part ∈ (new.foldl Form.add {}).parts ↔ Stays part new :=
  tidy_empty.mem_collected.trans (or_iff_left fun there => List.not_mem_nil there.1)

/-- Collected from the start, they are all kept just where no two of them go to one slot. -/
theorem perm_collected (new : List Part) :
    ((new.foldl Form.add {}).parts.Perm new ↔ (new.map Part.slot).Nodup) := by
  have slots := (tidy_empty.collected new).slots
  refine ⟨fun perm => (perm.map Part.slot).nodup_iff.mp slots, fun apart => ?_⟩
  refine (List.perm_ext_iff_of_nodup slots.of_map apart.of_map).mpr fun part => ?_
  rw [mem_collected, stays_of_nodup apart]

end Form

/-! ### What an entry is sent as -/

/-- The bytes of a file: of a binary one what its data encodes in base 64, of any other its text. -/
inductive Contents (f : FileData) : List UInt8 → Prop
  | binary {b : List UInt8} (binary : f.contentType = .binary) (bytes : f.bytes = .ok b) :
    Contents f b
  | text (text : f.contentType = .text) : Contents f (Text.encode f.data)

/-- What an entry is sent as: the file that its value holds, or else a file of the name that its key
gives behind a colon, or else a text. -/
inductive SentAs (key value : String) : Part → Prop
  | held {f : FileData} {b : List UInt8} (holds : FileData.ofValue? (.str value) = .ok (some f))
    (contents : Contents f b) :
    SentAs key value (.file (fieldName key) ⟨f.basename, b, f.mimeType⟩)
  | named (name filename : String) (plain : FileData.ofValue? (.str value) = .ok none)
    (spelled : key.toList = name.toList ++ ':' :: filename.toList) (first : ':' ∉ name.toList) :
    SentAs key value
      (.file name ⟨filename, Text.encode value, Mime.ofExtension (endingOf filename)⟩)
  | text (plain : FileData.ofValue? (.str value) = .ok none) (bare : ':' ∉ key.toList) :
    SentAs key value (.text key value)

/-- A value that cannot be sent: its containers are nested too deeply to tell whether it holds a
file, or it holds one whose bytes cannot be had from its data. -/
inductive Unsendable (value : String) : Prop
  | deep (h : Json.parse value = .error .tooDeep)
  | spoiled {f : FileData} {e : Fault} (holds : FileData.ofValue? (.str value) = .ok (some f))
    (binary : f.contentType = .binary) (undecoded : f.bytes = .error e)

/-- A binary file without data has no bytes, so that there is no special case. -/
theorem uploadOf_binary {f : FileData} (binary : f.contentType = .binary) :
    uploadOf f = f.bytes.map fun b => ⟨f.basename, b, f.mimeType⟩ := by
  unfold uploadOf
  simp only [binary]
  cases nothing : f.data.isEmpty with
  | false => cases f.bytes <;> rfl
  | true =>
    have none : f.bytes = .ok [] := by
      rw [FileData.bytes, String.isEmpty_iff.mp nothing]
      rfl
    rw [none]
    rfl

theorem uploadOf_contents {f : FileData} {b : List UInt8} (h : Contents f b) :
    uploadOf f = .ok ⟨f.basename, b, f.mimeType⟩ := by
  cases h with
  | text text =>
    unfold uploadOf
    simp only [text]
    rfl
  | binary binary bytes =>
    rw [uploadOf_binary binary, bytes]
    rfl

theorem addField_sentAs {key value : String} {part : Part} (h : SentAs key value part)
    (form : Form) : addField form key value = .ok (form.add part) := by
  unfold addField
  cases h with
  | held holds contents =>
    simp only [holds, bind, Except.bind, uploadOf_contents contents]
    rfl
  | named _ _ plain spelled first =>
    simp only [plain, spelled, Text.cutAt_append first, bind, Except.bind, String.ofList_toList]
    rfl
  | text plain bare =>
    simp only [plain, Text.cutAt_eq_none.mpr ⟨rfl, bare⟩, bind, Except.bind]
    rfl

theorem addField_unsendable {value : String} (h : Unsendable value) (form : Form) (key : String) :
    ∃ f, addField form key value = .error f := by
  unfold addField
  cases h with
  | deep deep =>
    have unread : FileData.ofValue? (.str value) = .error .tooDeep := by
      simp only [FileData.ofValue?, deep]
      rfl
    exact ⟨.tooDeep, by simp only [unread]; rfl⟩
  | @spoiled f e holds binary undecoded =>
    have refused : uploadOf f = .error e := by
      rw [uploadOf_binary binary, undecoded]
      rfl
    exact ⟨e, by simp only [holds, bind, Except.bind, refused]⟩

/-- An entry is sent as something, or it cannot be sent. -/
theorem exists_sentAs (key : String) {value : String} (h : ¬ Unsendable value) :
    ∃ part, SentAs key value part := by
  cases read : FileData.ofValue? (.str value) with
  | error f =>
    refine absurd (Unsendable.deep ?_) h
    simp only [FileData.ofValue?] at read
    cases parsed : Json.parse value with
    | ok v => rw [parsed] at read; cases read
    | error g =>
      rw [parsed] at read
      rcases Json.parse_error parsed with bad | rfl
      · simp only [bad, if_true] at read
        cases read
      · rfl
  | ok held =>
    cases held with
    | some f =>
      cases type : f.contentType with
      | text => exact ⟨_, .held read (.text type)⟩
      | binary =>
        cases bytes : f.bytes with
        | ok b => exact ⟨_, .held read (.binary type bytes)⟩
        | error e => exact absurd (.spoiled read type bytes) h
    | none =>
      rcases cut : Text.cutAt ':' key.toList with ⟨name, _ | filename⟩
      · exact ⟨_, .text read (Text.cutAt_eq_none.mp cut).2⟩
      · obtain ⟨spelled, first⟩ := Text.cutAt_eq_some cut
        refine ⟨_, .named (String.ofList name) (String.ofList filename) read ?_ ?_⟩
        · rw [String.toList_ofList, String.toList_ofList, spelled]
        · rwa [String.toList_ofList]

/-- An entry is sent as one thing only. -/
theorem SentAs.unique {key value : String} {part other : Part} (h : SentAs key value part)
    (h' : SentAs key value other) : part = other := by
  have same := (addField_sentAs h {}).symm.trans (addField_sentAs h' {})
  cases part <;> cases other <;> cases same <;> rfl

theorem SentAs.sendable {key value : String} {part : Part} (h : SentAs key value part) :
    ¬ Unsendable value := fun unsendable => by
  obtain ⟨f, refused⟩ := addField_unsendable unsendable {} key
  cases (addField_sentAs h {}).symm.trans refused

/-! ### The form -/

variable {scope : Scope} {entries : List (Scalar × Value)} {filled : List (String × String)}

/-- Entries with their keys and values filled. -/
def AreFilled (scope : Scope) (entries : List (Scalar × Value))
    (filled : List (String × String)) : Prop :=
  List.Forall₂ (fun e p => Fills scope e p.1 p.2) entries filled

/-- The parts that filled entries are sent as, one for each. -/
def AreSentAs (filled : List (String × String)) (parts : List Part) : Prop :=
  List.Forall₂ (fun p part => SentAs p.1 p.2 part) filled parts

theorem exists_areSentAs (sendable : ∀ p ∈ filled, ¬ Unsendable p.2) :
    ∃ parts, AreSentAs filled parts := by
  induction filled with
  | nil => exact ⟨[], .nil⟩
  | cons p rest ih =>
    obtain ⟨here, behind⟩ := List.forall_mem_cons.mp sendable
    obtain ⟨part, sent⟩ := exists_sentAs p.1 here
    obtain ⟨parts, others⟩ := ih behind
    exact ⟨part :: parts, .cons sent others⟩

theorem AreSentAs.unique {parts others : List Part} (h : AreSentAs filled parts)
    (h' : AreSentAs filled others) : parts = others := by
  induction h generalizing others with
  | nil =>
    cases h'
    rfl
  | cons here _ ih =>
    cases h' with
    | cons here' behind' => rw [here.unique here', ih behind']

theorem AreSentAs.sendable {parts : List Part} (h : AreSentAs filled parts) :
    ∀ p ∈ filled, ¬ Unsendable p.2 := by
  induction h with
  | nil => exact nofun
  | cons here _ ih => exact List.forall_mem_cons.mpr ⟨here.sendable, ih⟩

theorem formOf_sentAs {parts : List Part} (fills : AreFilled scope entries filled)
    (sent : AreSentAs filled parts) (form : Form) :
    formOf scope form entries = .ok (parts.foldl Form.add form) := by
  induction fills generalizing parts form with
  | nil =>
    cases sent
    rfl
  | cons here _ ih =>
    cases sent with
    | cons first others =>
      rw [formOf_cons here, addField_sentAs first]
      exact ih others _

/-- One entry that cannot be sent keeps the whole form back. -/
theorem formOf_unsendable (fills : AreFilled scope entries filled)
    (lacking : ∃ p ∈ filled, Unsendable p.2) (form : Form) :
    ∃ f, formOf scope form entries = .error f := by
  induction fills generalizing form with
  | nil =>
    obtain ⟨_, there, -⟩ := lacking
    cases there
  | @cons _ p _ _ here _ ih =>
    rw [formOf_cons here]
    -- The first entry may be refused itself, and else the one that cannot be sent comes later.
    cases added : addField form p.1 p.2 with
    | error f => exact ⟨f, rfl⟩
    | ok form' =>
      obtain ⟨q, there, unsendable⟩ := lacking
      rcases List.mem_cons.mp there with rfl | behind
      · obtain ⟨f, refused⟩ := addField_unsendable unsendable form q.1
        cases added.symm.trans refused
      · exact ih ⟨q, behind, unsendable⟩ form'

/-! ### The request -/

/-- The parts that a request carries. -/
def carried (r : Http.Request) : List Part :=
  Form.parts ⟨r.data.getD [], r.files.getD []⟩

/-- A request with a form, every entry of which is filled. -/
structure PostsForm (c : Context σ) (filled : List (String × String)) : Prop where
  posts : Posts c
  type : c.propertyOr "contentType" "json" = "form-data"
  body : ∃ text entries, c.node.property? "body" = some text ∧
    Json.parse text = .ok (.map entries) ∧ AreFilled c.scope entries filled

theorem PostsForm.requestOf (h : PostsForm c filled) : ∃ entries, AreFilled c.scope entries filled ∧
    ∃ r : Http.Request, Visit.requestOf c = (formOf c.scope {} entries).map fun form =>
      { r with
        data := some form.texts
        files := if form.files.isEmpty then none else some form.files } := by
  obtain ⟨text, entries, body, fields, fills⟩ := h.body
  exact ⟨entries, fills, h.posts.requestOf_form h.type body fields⟩

/-- What is collected is carried whole. -/
theorem carried_form (r : Http.Request) (form : Form) :
    carried { r with
      data := some form.texts
      files := if form.files.isEmpty then none else some form.files } = form.parts := by
  obtain ⟨texts, files⟩ := form
  cases files <;> rfl

/-- Each entry is sent as one part, and the request carries those of the parts that no later one
takes the place of. So it carries all of them, and nothing else, just where no two of them go to one
slot. A form with an entry that cannot be sent is not sent at all. -/
theorem PostsForm.sends_parts (h : PostsForm c filled) (s : Session σ) :
    ((∀ p ∈ filled, ¬ Unsendable p.2) →
      ∃ parts r, AreSentAs filled parts ∧ Calls c.providers (request c) s [.http r] ∧
        (∀ part, part ∈ carried r ↔ Stays part parts) ∧
        ((carried r).Perm parts ↔ (parts.map Part.slot).Nodup)) ∧
    ((∃ p ∈ filled, Unsendable p.2) →
      Calls c.providers (request c) s [] ∧ ∃ f, request c s = (.error (.fault f), s)) := by
  obtain ⟨entries, fills, r, described⟩ := h.requestOf
  constructor
  · intro sendable
    obtain ⟨parts, sent⟩ := exists_areSentAs sendable
    rw [formOf_sentAs fills sent] at described
    refine ⟨parts, _, sent, h.posts.calls described, ?_, ?_⟩ <;> rw [carried_form]
    · exact fun part => Form.mem_collected
    · exact Form.perm_collected parts
  · intro lacking
    obtain ⟨f, refused⟩ := formOf_unsendable fills lacking {}
    rw [refused] at described
    obtain ⟨none, failed⟩ := h.posts.refuses (s := s) described
    exact ⟨none, f, failed⟩

/-! ### Three entries, and two for one field -/

/-- A node that posts a form. -/
def enclosing (body : String) : Context (List Called) :=
  working ⟨[("v", picture.toValue)]⟩
    [("url", "u"), ("method", "POST"), ("contentType", "form-data"), ("body", body)]

/-- A text, a text that is sent as a file, and a picture. -/
def assorted : String := "\x7b\"t\":\"1\",\"n:x.txt\":\"2\",\"f\":\"\x7b\x7bv\x7d\x7d\"\x7d"

theorem enclosing_assorted_posts : Posts (enclosing assorted) where
  filled := by with_unfolding_all rfl
  url := by with_unfolding_all rfl
  method := by with_unfolding_all rfl
  headers := ⟨[], by with_unfolding_all rfl⟩
  client := rfl

theorem assorted_filled {text : String}
    (resolved : Template.resolve (holeFor "v") (enclosing assorted).scope = .ok text) :
    PostsForm (enclosing assorted) [("t", "1"), ("n:x.txt", "2"), ("f", text)] where
  posts := enclosing_assorted_posts
  type := by with_unfolding_all rfl
  body := by
    refine ⟨assorted,
      [(.str "t", .str "1"), (.str "n:x.txt", .str "2"), (.str "f", .str (holeFor "v"))], rfl,
      by with_unfolding_all rfl, .cons ⟨?_, ?_⟩ (.cons ⟨?_, ?_⟩ (.cons ⟨?_, resolved⟩ .nil))⟩
    all_goals with_unfolding_all rfl

theorem assorted_sentAs {text : String} (holds : picture.Holds (.str text)) :
    AreSentAs [("t", "1"), ("n:x.txt", "2"), ("f", text)]
      [.text "t" "1", .file "n" ⟨"x.txt", [50], "text/plain"⟩,
        .file "f" ⟨"a.png", [1, 2, 3], "image/png"⟩] := by
  have carries : picture.Carries [1, 2, 3] := FileData.carries_ofName ..
  have one : FileData.ofValue? (.str "1") = .ok none := by with_unfolding_all rfl
  have two : FileData.ofValue? (.str "2") = .ok none := by with_unfolding_all rfl
  have second : SentAs "n:x.txt" "2" (.file "n" ⟨"x.txt", [50], "text/plain"⟩) := by
    with_unfolding_all exact .named "n" "x.txt" two rfl (by decide)
  have third : SentAs "f" text (.file "f" ⟨"a.png", [1, 2, 3], "image/png"⟩) := by
    with_unfolding_all exact .held holds.ofValue? (.binary carries.binary carries.bytes)
  exact .cons (.text one (by decide)) (.cons second (.cons third .nil))

theorem sends_parts_assorted :
    let c := enclosing assorted
    ∃ text, PostsForm c [("t", "1"), ("n:x.txt", "2"), ("f", text)] ∧
      ∃ r, Calls c.providers (request c) fresh [.http r] ∧
        (carried r).Perm [.text "t" "1", .file "n" ⟨"x.txt", [50], "text/plain"⟩,
          .file "f" ⟨"a.png", [1, 2, 3], "image/png"⟩] := by
  intro c
  have filled : ∃ text, Template.resolve (holeFor "v") c.scope = .ok text ∧
      picture.Holds (.str text) := FileData.exists_filled isName_v rfl
  obtain ⟨text, resolved, holds⟩ := filled
  have posts := assorted_filled resolved
  have sent := assorted_sentAs holds
  obtain ⟨parts, r, sent', calls, -, all⟩ := (posts.sends_parts fresh).1 sent.sendable
  cases sent.unique sent'
  exact ⟨text, posts, r, calls, all.mpr (by decide)⟩

/-- Two texts that are to be sent as files of one field. -/
def paired : String := "\x7b\"a:x.txt\":\"1\",\"a:y.txt\":\"2\"\x7d"

theorem enclosing_paired_posts : Posts (enclosing paired) where
  filled := by with_unfolding_all rfl
  url := by with_unfolding_all rfl
  method := by with_unfolding_all rfl
  headers := ⟨[], by with_unfolding_all rfl⟩
  client := rfl

/-- The second is sent, and the first is lost. -/
theorem sends_parts_drops :
    let c := enclosing paired
    PostsForm c [("a:x.txt", "1"), ("a:y.txt", "2")] ∧
      SentAs "a:x.txt" "1" (.file "a" ⟨"x.txt", [49], "text/plain"⟩) ∧
      ∃ r, Calls c.providers (request c) fresh [.http r] ∧
        carried r = [.file "a" ⟨"y.txt", [50], "text/plain"⟩] := by
  intro c
  have fills : AreFilled c.scope
      [(.str "a:x.txt", .str "1"), (.str "a:y.txt", .str "2")]
      [("a:x.txt", "1"), ("a:y.txt", "2")] :=
    .cons ⟨by with_unfolding_all rfl, by with_unfolding_all rfl⟩
      (.cons ⟨by with_unfolding_all rfl, by with_unfolding_all rfl⟩ .nil)
  have posts : PostsForm c [("a:x.txt", "1"), ("a:y.txt", "2")] :=
    ⟨enclosing_paired_posts, by with_unfolding_all rfl, paired, _, rfl,
      by with_unfolding_all rfl, fills⟩
  have one : FileData.ofValue? (.str "1") = .ok none := by with_unfolding_all rfl
  have two : FileData.ofValue? (.str "2") = .ok none := by with_unfolding_all rfl
  have first : SentAs "a:x.txt" "1" (.file "a" ⟨"x.txt", [49], "text/plain"⟩) := by
    with_unfolding_all exact .named "a" "x.txt" one rfl (by decide)
  have second : SentAs "a:y.txt" "2" (.file "a" ⟨"y.txt", [50], "text/plain"⟩) := by
    with_unfolding_all exact .named "a" "y.txt" two rfl (by decide)
  obtain ⟨entries, fills, r, described⟩ := posts.requestOf
  rw [formOf_sentAs fills (.cons first (.cons second .nil))] at described
  exact ⟨posts, first, _, posts.posts.calls described, carried_form r _⟩

end Runbook.Visit
