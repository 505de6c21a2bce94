import Runbook.Proofs.FileData
import Runbook.Proofs.Scope
import Runbook.Proofs.Visit.Calls
import Runbook.Proofs.Visit.Consent
import Runbook.Proofs.Visit.Prelude
import Runbook.Proofs.Visit.Request

/-! Bytes on their way through variables.

Bytes come into a variable from a file of the vault or from a response, and leave it again by four
ways: saved, as the body of a request, in a form, and attached to a prompt. `Delivers` says of the
file in the variable that whichever way is taken, the bytes arrive. -/

/-! ## Files that nodes pick and save

A node that picks a file with an ending for bytes binds a file that carries just the bytes that the
vault returned, and a node that saves such a file writes just its bytes, in whichever form the
variable holds it. -/
namespace Runbook

open Visit

variable {σ : Type} {c : Context σ} {s : Session σ} {path v : String} {b : List UInt8}

theorem Context.writes_of_named {name : String} (value : Value)
    (named : (c.trimmed name).isEmpty = false) :
    c.writes [(name, value)] = [(c.trimmed name, value)] := by
  simp only [writes, List.filterMap_cons, named, List.filterMap_nil]
  rfl

namespace Visit

open Act (Calls)

/-! ### Picking -/

/-- The file that bytes at a path make. -/
def fileOf (path : String) (b : List UInt8) : FileData :=
  .ofName (FileName.ofPath path) (Mime.ofExtension (FileName.ofPath path).extension) .binary
    (Base64.text b)

/-- The path that a node is given, or else that the user picks among the files there are. -/
def choosePath (c : Context σ) : Act σ String :=
  let given := c.trimmed "path"
  if given.isEmpty then
    pickedPath c
      { kind := .selectFile
        nodeId := c.node.id
        title := "Select file"
        payload := [("extensions", .strs (endings (c.property "extensions"))),
          ("default", .str (c.property "default"))] }
  else pure given

/-- A visit that picks a file of the vault for a variable. The path has an ending for bytes, and
the vault has these there. -/
structure Picks (c : Context σ) (s : Session σ) (v path : String) (b : List UInt8) : Prop where
  saves : c.trimmed "saveTo" = v
  named : v ≠ ""
  selects : c.propertyOr "mode" "select" ≠ "create"
  binary : Mime.isBinaryExtension (FileName.ofPath path).extension = true
  reads : ∃ vault s₁, c.providers.vault = some vault ∧ choosePath c s = (.ok path, s₁) ∧
    (vault.has path s₁.world).result = .returned true ∧
    (vault.readBytes path (Act.after (vault.has path) s₁).world).result = .returned b

theorem readFile_bytes {vault : VaultProvider σ}
    (binary : Mime.isBinaryExtension (FileName.ofPath path).extension = true)
    (read : (vault.readBytes path s.world).result = .returned b) :
    readFile vault path s = (.ok (fileOf path b), Act.after (vault.readBytes path) s) := by
  unfold readFile
  simp only [binary, if_true]
  exact Act.bind_eq_ok.mpr ⟨b, _, Act.call_eq_ok.mpr ⟨read, rfl⟩, rfl⟩

/-- What a node leaves that has picked a file for a variable. -/
def pickedOutcome (c : Context σ) (path : String) (f : FileData) : Outcome where
  output := .record [("path", .str path), ("mode", .str (c.propertyOr "mode" "select"))]
  writes := Entries.merge (c.writes [("savePathTo", .str path)]) (c.writes [("saveTo", f.toValue)])

/-- The part of a node that picks a file behind the choice of the path. -/
def keepPicked (c : Context σ) (path : String) : Act σ Outcome := do
  let vault ← c.vault
  if !(← Act.call (vault.has path)) then c.fail ("File not found: " ++ path)
  return pickedOutcome c path (← readFile vault path)

theorem pickFile_eq (keeps : (c.trimmed "saveTo").isEmpty = false)
    (selects : (c.propertyOr "mode" "select" == "create") = false) :
    pickFile c = choosePath c >>= keepPicked c := by
  unfold pickFile choosePath keepPicked pickedOutcome
  simp only [keeps, selects, Bool.not_false, Bool.not_true, Bool.false_and, Bool.false_eq_true,
    if_false, if_true, pure_bind]
  cases (c.trimmed "path").isEmpty <;> rfl

theorem Picks.pickFile (h : Picks c s v path b) :
    ∃ s', pickFile c s = (.ok (pickedOutcome c path (fileOf path b)), s') := by
  obtain ⟨rfl, named, selects, binary, vault, s₁, offered, chosen, there, read⟩ := h
  have found := Act.call_eq_ok.mpr ⟨there, rfl⟩
  have file := readFile_bytes binary read
  refine ⟨Act.after (vault.readBytes path) (Act.after (vault.has path) s₁), ?_⟩
  rw [pickFile_eq (by simpa using named) (by simpa using selects), Act.bind_apply, chosen]
  unfold keepPicked Context.vault Context.require
  simp only [offered, pure_bind]
  rw [Act.bind_apply, found]
  simp only [Bool.not_true, Bool.false_eq_true, if_false]
  rw [Act.bind_apply, file]
  rfl

theorem writes_pickedOutcome (c : Context σ) (path : String) (f : FileData) :
    (pickedOutcome c path f).writes =
      Entries.merge (c.writes [("savePathTo", .str path)]) (c.writes [("saveTo", f.toValue)]) := by
  simp only [pickedOutcome]

/-- Behind the visit the variable is bound to the file, also where the node gives it the path
first. -/
theorem get?_pickedOutcome (named : c.trimmed "saveTo" ≠ "") (f : FileData) :
    (c.scope.setAll (pickedOutcome c path f).writes).1.get? (c.trimmed "saveTo") =
      some f.toValue := by
  have kept : c.writes [("saveTo", f.toValue)] = [(c.trimmed "saveTo", f.toValue)] :=
    Context.writes_of_named _ (by simpa using named)
  have real : ∀ e ∈ (pickedOutcome c path f).writes, e.1 ≠ "" := by
    intro e there
    rw [writes_pickedOutcome] at there
    exact Context.mem_merge_writes there
  have distinct : (Entries.keys (c.writes [("savePathTo", .str path)])).Nodup :=
    Entries.keys_nodup_ofList _
  rw [Scope.setAll_of_named real, writes_pickedOutcome, kept, Entries.merge_single]
  generalize c.writes [("savePathTo", .str path)] = others at distinct
  have bound := Entries.get?_insert_self (c.trimmed "saveTo") f.toValue others
  exact Entries.get?_merge_of_mem (b := (c.trimmed "saveTo", f.toValue))
    (Entries.keys_nodup_insert distinct) (Entries.mem_of_get? bound)

/-! ### Saving -/

/-- A visit that saves the file that a variable holds, at a path. -/
structure Saves (c : Context σ) (f : FileData) (path : String) : Prop where
  source : (c.trimmed "source").isEmpty = false
  holds : ∃ held, c.scope.get? (c.trimmed "source") = some held ∧ f.Holds held
  target : c.trimmed "path" = path
  filled : path.isEmpty = false
  vault : c.providers.vault.isSome = true

/-- A file with bytes is saved as these bytes. -/
theorem Saves.calls {f : FileData} (h : Saves c f path) (carries : f.Carries b)
    (some_bytes : b ≠ []) :
    Calls c.providers (saveFile c) s [.writeBytes (withEnding path f) b] := by
  obtain ⟨source, ⟨held, bound, holds⟩, rfl, filled, vault⟩ := h
  obtain ⟨vault, offered⟩ := Option.isSome_iff_exists.mp vault
  unfold saveFile
  simp only [source, filled, bound, holds.ofValue?, carries.data_isEmpty some_bytes,
    carries.binary, carries.bytes, Act.ofExcept, Context.vault, Context.require, offered,
    Bool.false_eq_true, if_false, pure_bind]
  generalize withEnding (c.trimmed "path") f = target
  exact (Calls.one (.vault offered (.writeBytes target b))).bind fun _ _ => Calls.pure _

end Visit
end Runbook

namespace Runbook

open Visit Template

variable {σ : Type} {c : Context σ} {s : Session σ} {scope : Scope} {f : FileData} {b : List UInt8}

/-! ### Responses -/

namespace Http

/-- A response that is read as bytes: that is asked for, or nothing else is and its media type is
one of bytes. -/
def IsBytes (r : Response) (responseType : String) : Prop :=
  responseType = "binary" ∨ (responseType ≠ "text" ∧ Mime.isBinary (mimeType r) = true)

/-- The value of such a response is a file with its content. -/
theorem responseValue_bytes {url responseType : String} {r : Response}
    (bytes : IsBytes r responseType) (readable : ∃ u, Url.parse url = .ok u) :
    ∃ f : FileData, responseValue url r responseType = .ok f.toValue ∧ f.Carries r.content := by
  obtain ⟨u, parsed⟩ := readable
  have named : ∃ name, downloadName url (mimeType r) = .ok name := by
    unfold downloadName
    simp only [parsed, bind, Except.bind]
    split <;> exact ⟨_, rfl⟩
  obtain ⟨⟨basename, extension⟩, named⟩ := named
  have binary : (if responseType = "binary" then true
      else if responseType = "text" then false else Mime.isBinary (mimeType r)) = true := by
    rcases bytes with asked | ⟨other, mime⟩
    · exact if_pos asked
    · rw [if_neg other, mime]
      exact ite_self true
  have whole : ∃ name : String, responseValue url r responseType = .ok (FileData.toValue
      ⟨"", basename, name, extension, mimeType r, .binary, Base64.text r.content⟩) := by
    unfold responseValue
    simp only [binary, if_true]
    exact ⟨_, bind_eq_ok.mpr ⟨_, named, rfl⟩⟩
  obtain ⟨name, whole⟩ := whole
  exact ⟨_, whole, rfl, rfl⟩

end Http

namespace Visit

open Act (Calls)

/-! ### Attachments -/

/-- Among variables that can be read for files, those with bytes are attached. -/
theorem attachments_carries {names : List String}
    (readable : ∀ name ∈ names,
      ∃ file, FileData.ofValue? ((scope.get? name).getD .null) = .ok file) :
    ∃ attached, attachments scope names = .ok attached ∧
      ∀ {v f b}, v ∈ names → scope.get? v = some (FileData.toValue f) → f.Carries b → b ≠ [] →
        (⟨f.mimeType, f.data, f.basename⟩ : Attachment) ∈ attached := by
  induction names with
  | nil => exact ⟨[], rfl, nofun⟩
  | cons name names ih =>
    obtain ⟨⟨file, read⟩, behind⟩ := List.forall_mem_cons.mp readable
    obtain ⟨attached, others, there⟩ := ih behind
    refine ⟨_, bind_eq_ok.mpr ⟨file, read, bind_eq_ok.mpr ⟨attached, others, rfl⟩⟩, ?_⟩
    intro v f b listed bound carries some_bytes
    rcases List.mem_cons.mp listed with rfl | listed
    · rw [bound, Option.getD_some, FileData.ofValue?_toValue] at read
      cases read
      simp [carries.binary, carries.data_isEmpty some_bytes]
    · exact List.mem_append_right _ (there listed bound carries some_bytes)

/-- A visit that prompts a model, with variables that can be read for files. -/
structure Prompts (c : Context σ) : Prop where
  filled : Text.blank (c.property "prompt").toList = false
  model : c.providers.model.isSome = true
  readable : ∀ name ∈ Listing.items (c.property "attachments"),
    ∃ file, FileData.ofValue? ((c.scope.get? name).getD .null) = .ok file

theorem Prompts.attaches (h : Prompts c) {v : String}
    (listed : v ∈ Listing.items (c.property "attachments"))
    (bound : c.scope.get? v = some f.toValue) (carries : f.Carries b) (some_bytes : b ≠ []) :
    ∃ q, Calls c.providers (Visit.prompt c) s [.model q] ∧ ∃ a ∈ q.attachments,
      a.mimeType = f.mimeType ∧ a.name = f.basename ∧ Base64.decode a.data.toList = .ok b := by
  obtain ⟨model, offered⟩ := Option.isSome_iff_exists.mp h.model
  obtain ⟨attached, collected, there⟩ := attachments_carries h.readable
  have decoded : Base64.decode f.data.toList = .ok b := by rw [carries.data, Base64.decode_text]
  have calls : ∃ q, Calls c.providers (Visit.prompt c) s [.model q] ∧ q.attachments = attached := by
    unfold Visit.prompt Context.require
    simp only [h.filled, offered, collected, Act.ofExcept, Bool.false_eq_true, if_false, pure_bind]
    refine ⟨?request, ?calls, ?same⟩
    case calls => exact (Calls.one (.model offered _)).bind fun _ _ => Calls.pure _
    case same => rfl
  obtain ⟨q, calls, rfl⟩ := calls
  exact ⟨q, calls, _, there listed bound carries some_bytes, rfl, rfl, decoded⟩

/-! ### The ways out of a variable -/

/-- Wherever a variable holds the file, its bytes are what is saved, sent and attached. -/
structure Delivers (f : FileData) (b : List UInt8) : Prop where
  /-- The variable may hold the mapping or its text. -/
  saved {σ : Type} {c : Context σ} (s : Session σ) {path : String} (h : Saves c f path) :
    Calls c.providers (saveFile c) s [.writeBytes (withEnding path f) b]
  sent {σ : Type} {c : Context σ} (s : Session σ) (h : Posts c)
    (type : c.propertyOr "contentType" "json" = "binary") {v : String} (hv : IsName v)
    (body : c.node.property? "body" = some (holeFor v))
    (bound : c.scope.get? v = some f.toValue) :
    ∃ r, Calls c.providers (request c) s [.http r] ∧ r.content = some b
  /-- The field may stand among others, of which no later one takes its place. -/
  sentInForm {σ : Type} {c : Context σ} (s : Session σ) (h : Posts c)
    (type : c.propertyOr "contentType" "json" = "form-data") {v : String} (hv : IsName v)
    {text key : String} {before after : List (Scalar × Value)} {k : Scalar}
    (body : c.node.property? "body" = some text)
    (fields : Json.parse text = .ok (.map (before ++ (k, .str (holeFor v)) :: after)))
    (bound : c.scope.get? v = some f.toValue)
    (filled : Template.resolve k.display c.scope = .ok key)
    (sendable : ∀ e ∈ before ++ after, Sendable c.scope e)
    (last : ∀ e ∈ after, ¬ SendsFile c.scope e (fieldName key)) :
    ∃ r files, Calls c.providers (request c) s [.http r] ∧ r.files = some files ∧
      Entries.get? (fieldName key) files = some ⟨f.basename, b, f.mimeType⟩
  attached {σ : Type} {c : Context σ} (s : Session σ) (h : Prompts c) {v : String}
    (listed : v ∈ Listing.items (c.property "attachments"))
    (bound : c.scope.get? v = some f.toValue) :
    ∃ q, Calls c.providers (prompt c) s [.model q] ∧ ∃ a ∈ q.attachments,
      a.mimeType = f.mimeType ∧ a.name = f.basename ∧ Base64.decode a.data.toList = .ok b

theorem delivers_of_carries (carries : f.Carries b) (some_bytes : b ≠ []) : Delivers f b where
  saved _ _ h := h.calls carries some_bytes
  sent _ h type _ hv body bound := h.sends_bytes type hv body bound carries some_bytes
  sentInForm _ h type _ hv _ _ _ _ _ body fields bound filled sendable last :=
    h.sends_form type hv body fields bound carries some_bytes filled sendable last
  attached _ h _ listed bound := h.attaches listed bound carries some_bytes

/-- Bytes that a node picks from the vault for a variable, and bytes that a response brings, are
delivered from there, whatever they are. -/
theorem bytes_delivered (some_bytes : b ≠ []) :
    (∀ {σ : Type} {c : Context σ} {s : Session σ} {v path : String}, Picks c s v path b →
      ∃ out s', pickFile c s = (.ok out, s') ∧
        (c.scope.setAll out.writes).1.get? v = some (fileOf path b).toValue ∧
        Delivers (fileOf path b) b) ∧
    ∀ {url responseType : String} {r : Http.Response}, r.content = b →
      Http.IsBytes r responseType → (∃ u, Url.parse url = .ok u) →
      ∃ f : FileData, Http.responseValue url r responseType = .ok f.toValue ∧ Delivers f b := by
  constructor
  · rintro σ c s v path picks
    obtain ⟨s', picked⟩ := picks.pickFile
    have named := picks.named
    cases picks.saves
    exact ⟨_, s', picked, get?_pickedOutcome named _,
      delivers_of_carries (FileData.carries_ofName ..) some_bytes⟩
  · rintro url responseType r rfl bytes readable
    obtain ⟨f, value, carries⟩ := Http.responseValue_bytes bytes readable
    exact ⟨f, value, delivers_of_carries carries some_bytes⟩

/-! ### A picture -/

def picture : FileData := fileOf "a.png" [1, 2, 3]

/-- A node with its properties filled, and providers that return at once. The vault has the
picture. -/
def working (scope : Scope) (properties : List (String × String)) : Context (List Called) :=
  { node := { id := "n", kind := "node", properties }
    properties := (fillProperties scope properties).toOption.getD []
    scope
    providers :=
      { (drafting "" none).providers with
        vault := some
          { readText := fun path => noting (.readText path) ""
            readBytes := fun path => noting (.readBytes path) [1, 2, 3]
            writeText := fun path text => noting (.writeText path text) ()
            writeBytes := fun path bytes => noting (.writeBytes path bytes) ()
            has := fun path => noting (.has path) true
            listFiles := noting .listFiles []
            listFolders := noting .listFolders []
            times := fun path => noting (.times path) ⟨.nan, .nan⟩
            tags := fun path => noting (.tags path) [] }
        http := some fun r => noting (.http r) { status := 200 }
        model := some fun q => noting (.model q) {} } }

def picking : Context (List Called) := working .empty [("path", "a.png"), ("saveTo", "v")]

def saving : Context (List Called) :=
  working ⟨[("v", picture.toValue)]⟩ [("source", "v"), ("path", "b")]

/-- A request whose body is a placeholder for the picture. -/
def posting (name : String) (method : List (String × String)) : Context (List Called) :=
  working ⟨[(name, picture.toValue)]⟩
    ([("url", "u"), ("contentType", "binary"), ("body", holeFor name)] ++ method)

/-- A request with a form, of one field for the picture and others behind it. -/
def filing (others : String) : Context (List Called) :=
  working ⟨[("v", picture.toValue), ("w", (fileOf "c.png" [4]).toValue)]⟩
    [("url", "u"), ("method", "POST"), ("contentType", "form-data"),
      ("body", "\x7b\"f:x\":\"\x7b\x7bv\x7d\x7d\"" ++ others ++ "\x7d")]

def prompting : Context (List Called) :=
  working ⟨[("v", picture.toValue)]⟩ [("prompt", "p"), ("attachments", "v")]

theorem isName_v : IsName "v" := ⟨'v', [], rfl, rfl, nofun⟩

theorem picking_picks : Picks picking fresh "v" "a.png" [1, 2, 3] where
  saves := by with_unfolding_all rfl
  named := by decide
  selects := by decide
  binary := by decide
  reads := ⟨_, _, rfl, by with_unfolding_all rfl, rfl, rfl⟩

theorem saving_saves : Saves saving picture "b" where
  source := by with_unfolding_all rfl
  holds := ⟨_, by with_unfolding_all rfl, .mapping⟩
  target := by with_unfolding_all rfl
  filled := rfl
  vault := rfl

theorem posting_posts : Posts (posting "v" [("method", "POST")]) where
  filled := by with_unfolding_all rfl
  url := by with_unfolding_all rfl
  method := by with_unfolding_all rfl
  headers := ⟨[], by with_unfolding_all rfl⟩
  client := rfl

theorem filing_posts : Posts (filing "") where
  filled := by with_unfolding_all rfl
  url := by with_unfolding_all rfl
  method := by with_unfolding_all rfl
  headers := ⟨[], by with_unfolding_all rfl⟩
  client := rfl

theorem prompting_prompts : Prompts prompting where
  filled := by with_unfolding_all rfl
  model := rfl
  readable := by
    have one : Listing.items (prompting.property "attachments") = ["v"] := by
      with_unfolding_all rfl
    rw [one]
    exact List.forall_mem_singleton.mpr ⟨_, FileData.ofValue?_toValue picture⟩

/-- The picture is picked, and from there saved, sent, sent in a form and attached; as it would be
from a response. -/
theorem bytes_delivered_picture :
    ([1, 2, 3] : List UInt8) ≠ [] ∧ Picks picking fresh "v" "a.png" [1, 2, 3] ∧
      Http.IsBytes { status := 200, content := [1, 2, 3] } "binary" ∧
      (∃ out s', pickFile picking fresh = (.ok out, s') ∧
        (Scope.empty.setAll out.writes).1.get? "v" = some picture.toValue) ∧
      Calls saving.providers (saveFile saving) fresh
        [.writeBytes (withEnding "b" picture) [1, 2, 3]] ∧
      (∃ r, Calls (posting "v" [("method", "POST")]).providers
        (request (posting "v" [("method", "POST")])) fresh [.http r] ∧
        r.content = some [1, 2, 3]) ∧
      (∃ r files, Calls (filing "").providers (request (filing "")) fresh [.http r] ∧
        r.files = some files ∧
        Entries.get? "f" files = some ⟨"a.png", [1, 2, 3], "image/png"⟩) ∧
      (∃ q, Calls prompting.providers (prompt prompting) fresh [.model q] ∧
        ∃ a ∈ q.attachments, Base64.decode a.data.toList = .ok [1, 2, 3]) ∧
      ∃ f : FileData, Http.responseValue "u" { status := 200, content := [1, 2, 3] } "binary" =
        .ok f.toValue ∧ Delivers f [1, 2, 3] := by
  have some_bytes : ([1, 2, 3] : List UInt8) ≠ [] := nofun
  have asked : Http.IsBytes { status := 200, content := [1, 2, 3] } "binary" := .inl rfl
  obtain ⟨picked, received⟩ := bytes_delivered some_bytes
  obtain ⟨out, s', ran, bound, delivers⟩ := picked picking_picks
  have saved := delivers.saved fresh saving_saves
  have sent := delivers.sent fresh posting_posts (by with_unfolding_all rfl) isName_v rfl
    (by with_unfolding_all rfl)
  have fields : Json.parse (((filing "").node.property? "body").getD "") =
      .ok (.map ([] ++ (.str "f:x", .str (holeFor "v")) :: [])) := by with_unfolding_all rfl
  have key : Template.resolve (Scalar.str "f:x").display (filing "").scope = .ok "f:x" := by
    with_unfolding_all rfl
  have filed := delivers.sentInForm fresh filing_posts (by with_unfolding_all rfl) isName_v rfl
    fields (by with_unfolding_all rfl) key nofun nofun
  obtain ⟨q, calls, a, there, -, -, decoded⟩ := delivers.attached fresh prompting_prompts
    (v := "v") (by with_unfolding_all exact List.mem_cons_self ..) (by with_unfolding_all rfl)
  have readable : ∃ u, Url.parse "u" = .ok u := ⟨_, by with_unfolding_all rfl⟩
  have arrived := received rfl asked readable
  exact ⟨some_bytes, picking_picks, asked, ⟨out, s', ran, bound⟩, saved, sent, filed,
    ⟨q, calls, a, there, decoded⟩, arrived⟩

/-- The node that names the variable "a b" for its body. -/
theorem spaced_posts : Posts (posting "a b" [("method", "POST")]) where
  filled := by with_unfolding_all rfl
  url := by with_unfolding_all rfl
  method := by with_unfolding_all rfl
  headers := ⟨[], by with_unfolding_all rfl⟩
  client := rfl

/-- A placeholder for a variable with a blank in its name is none: the text stays, and holds no
file. -/
theorem spaced_refused : ∃ f, requestOf (posting "a b" [("method", "POST")]) = .error f := by
  have body : (posting "a b" [("method", "POST")]).property "body" = holeFor "a b" := by
    with_unfolding_all rfl
  have type : (posting "a b" [("method", "POST")]).propertyOr "contentType" "json" = "binary" := by
    with_unfolding_all rfl
  have nothing : FileData.ofValue? (.str (holeFor "a b")) = .ok none := by with_unfolding_all rfl
  obtain ⟨r, described⟩ := spaced_posts.requestOf (by rw [body]; decide)
  rw [described, body]
  unfold withBody
  simp only [type, bodyFile, nothing]
  exact ⟨_, rfl⟩

/-- A second field of the form, for another file under the same name. -/
def another : String := ",\"f:y\":\"\x7b\x7bw\x7d\x7d\""

theorem filing_another_posts : Posts (filing another) where
  filled := by with_unfolding_all rfl
  url := by with_unfolding_all rfl
  method := by with_unfolding_all rfl
  headers := ⟨[], by with_unfolding_all rfl⟩
  client := rfl

/-- The later of two files under one name takes the place of the earlier one. -/
theorem filing_another_replaces : ∃ r files,
    Calls (filing another).providers (request (filing another)) fresh [.http r] ∧
      r.files = some files ∧ Entries.get? "f" files = some ⟨"c.png", [4], "image/png"⟩ := by
  have bound : (filing another).scope.get? "v" = some picture.toValue := rfl
  have earlier : Sendable (filing another).scope (.str "f:x", .str (holeFor "v")) := by
    obtain ⟨text, resolved, holds⟩ := FileData.exists_filled isName_v bound
    exact ⟨"f:x", text, ⟨by with_unfolding_all rfl, resolved⟩, fun form =>
      ⟨_, addField_holds holds (FileData.carries_ofName _ _ [1, 2, 3]) nofun form "f:x"⟩⟩
  have fields : Json.parse (((filing another).node.property? "body").getD "") =
      .ok (.map ([(.str "f:x", .str (holeFor "v"))] ++ (.str "f:y", .str (holeFor "w")) :: [])) := by
    with_unfolding_all rfl
  have body : (filing another).node.property? "body" =
      some (((filing another).node.property? "body").getD "") := by with_unfolding_all rfl
  have key : Template.resolve (Scalar.str "f:y").display (filing another).scope = .ok "f:y" := by
    with_unfolding_all rfl
  have bound' : (filing another).scope.get? "w" = some (fileOf "c.png" [4]).toValue := rfl
  obtain ⟨r, files, calls, sent, found⟩ := filing_another_posts.sends_form
    (by with_unfolding_all rfl) ⟨'w', [], rfl, rfl, nofun⟩ body fields bound'
    (FileData.carries_ofName _ _ [4]) nofun key (List.forall_mem_singleton.mpr earlier) nofun
  exact ⟨r, files, calls, sent, found⟩

/-- A picture that a variable holds is not sent with a method that has no body, nor under the name
of a file behind it in the form, nor by way of a variable that no placeholder can name. -/
theorem bytes_undelivered :
    ((posting "v" []).Filled ∧ (posting "v" []).propertyOr "contentType" "json" = "binary" ∧
      (posting "v" []).scope.get? "v" = some picture.toValue ∧
      ∃ r, requestOf (posting "v" []) = .ok r ∧ r.content = none) ∧
    (Posts (filing another) ∧ (filing another).scope.get? "v" = some picture.toValue ∧
      ∃ r files, Calls (filing another).providers (request (filing another)) fresh [.http r] ∧
        r.files = some files ∧ Entries.get? "f" files = some ⟨"c.png", [4], "image/png"⟩) ∧
    Posts (posting "a b" [("method", "POST")]) ∧
      (posting "a b" [("method", "POST")]).scope.get? "a b" = some picture.toValue ∧
      ∃ f, requestOf (posting "a b" [("method", "POST")]) = .error f :=
  ⟨⟨by with_unfolding_all rfl, by with_unfolding_all rfl, rfl,
      requestOf_bodiless (by with_unfolding_all rfl) (by with_unfolding_all rfl)
        ⟨[], by with_unfolding_all rfl⟩⟩,
    ⟨filing_another_posts, rfl, filing_another_replaces⟩, spaced_posts, rfl, spaced_refused⟩

end Visit
end Runbook
