import Runbook.Proofs.Action
import Runbook.Proofs.Tags
import Runbook.Proofs.Visit.Note
import Runbook.Visit.NoteList

/-! Lists of notes.

A list looks into every note that its folder and its times let through. It comes to an end just
where the tags of each of them can be told: one note among them whose tags cannot be told leaves no
list at all (`tags_told`). -/
namespace Runbook

namespace Vault

variable {v : Vault} {path : String} {paths tags : List String}

/-- A listed file has a size. -/
theorem Sound.size_listed (sound : v.Sound) {folder : String} {recursive : Bool}
    (h : v.listFiles folder recursive = .ok paths) (there : path ∈ paths) :
    ∃ n, v.size path = .ok n := by
  obtain ⟨around, -, listed⟩ := sound.listFiles h
  obtain ⟨-, names, some_names, stands, -, -, rfl⟩ := (listed path).mp there
  obtain ⟨content, found⟩ := FileTree.isFile_iff.mp stands
  have place := sound.resolve_listed (by simp [some_names]) stands
  have read : v.readBytes (pathOf (around ++ names)) = .ok content :=
    readBytes_eq_ok.mpr ⟨_, place, found⟩
  exact ⟨content.length, by rw [size, read]; rfl⟩

theorem tags_eq_ok (note : Notes.isNote path = true) :
    v.tags path = .ok tags ↔ ∃ text, v.readText path = .ok text ∧ Tags.ofNote text = .ok tags := by
  have ends : path.endsWith ".md" = true := note
  unfold Vault.tags
  rw [if_pos ends]
  exact bind_eq_ok

end Vault

namespace Visit

open Tags

variable {σ : Type} {root : Location} {now : Number.Binary64} {s : Session Workstation}
  {f : Filter} {path : String}

/-- Whether a list looks into a note, by its folder and the time of its file. -/
structure Considers (f : Filter) (time : Number.Binary64) (path : String) : Prop where
  folder : f.folder.isEmpty = true ∨ Notes.inFolder path f.folder f.recursive = true
  created : tooEarly f.now time f.createdWithin = .ok false
  modified : tooEarly f.now time f.modifiedWithin = .ok false

/-- A time that lies no further back than an age. -/
def Recent (now time : Number.Binary64) (age : Option Nat) : Prop :=
  ∀ n ∈ age, time.compare? (now.sub (.ofInt n)) ≠ some .lt

/-- An age that can be taken from a time. -/
def Taken (age : Option Nat) : Prop := ∀ n ∈ age, Number.Binary64.exceeds n = false

/-- Ages that can be taken from a time. -/
structure Filter.Spans (f : Filter) : Prop where
  created : Taken f.createdWithin
  modified : Taken f.modifiedWithin

instance (now time : Number.Binary64) (age : Option Nat) : Decidable (Recent now time age) :=
  inferInstanceAs (Decidable (∀ n ∈ age, time.compare? (now.sub (.ofInt n)) ≠ some .lt))

theorem tooEarly_of_taken {age : Option Nat} (taken : Taken age) (now time : Number.Binary64) :
    tooEarly now time age = .ok (!decide (Recent now time age)) := by
  cases age with
  | none => rfl
  | some n =>
    have early : tooEarly now time (some n) =
        .ok (time.compare? (now.sub (.ofInt n)) == some .lt) := by
      rw [tooEarly, earliest, taken n rfl]
      rfl
    rw [early, Except.ok.injEq, Bool.eq_iff_iff]
    simp [Recent]

theorem tooEarly_fails {age : Option Nat} (huge : ¬ Taken age) (now time : Number.Binary64) :
    ∃ f, tooEarly now time age = .error f := by
  cases age with
  | none => exact absurd nofun huge
  | some n =>
    cases exceeds : Number.Binary64.exceeds n with
    | true => exact ⟨_, by rw [tooEarly, earliest, exceeds]; rfl⟩
    | false => exact absurd (by rintro _ ⟨⟩; exact exceeds) huge

theorem call_times {n : Nat} (there : (s.vaultAt root).size path = .ok n) :
    Act.call ((Workstation.vault root now).times path) s = (.ok ⟨now, now⟩, s) := by
  show Act.call (Workstation.inVault root _) s = _
  rw [Workstation.call_inVault, there]
  rfl

theorem call_tags : Act.call ((Workstation.vault root now).tags path) s =
    (((s.vaultAt root).tags path).mapError .fault, s) := Workstation.call_inVault root s _

/-- What is made of a note whose tags are known. -/
def described (f : Filter) (path : String) (times : FileTimes) (tags : List String) :
    Act σ (Option Entry) :=
  if !hasTags f tags then pure none
  else do
    let created ← Act.ofExcept (Context.milliseconds times.created)
    let modified ← Act.ofExcept (Context.milliseconds times.modified)
    return some ⟨path, (FileName.ofPath path).name, created, modified, tags⟩

theorem entry?_eq (vault : VaultProvider σ) (f : Filter) (path : String) :
    entry? vault f path =
      if !f.folder.isEmpty && !Notes.inFolder path f.folder f.recursive then pure none
      else Act.call (vault.times path) >>= fun times =>
        Act.ofExcept (tooEarly f.now times.created f.createdWithin) >>= fun early =>
          if early then pure none
          else Act.ofExcept (tooEarly f.now times.modified f.modifiedWithin) >>= fun early =>
            if early then pure none
            else Act.call (vault.tags path) >>= described f path times := by
  rfl

theorem described_ends {ms : Int} (finite : Context.milliseconds now = .ok ms)
    (tags : List String) : ∃ e, described f path ⟨now, now⟩ tags s = (.ok e, s) := by
  unfold described
  split
  · exact ⟨none, rfl⟩
  · rw [finite]
    exact ⟨_, rfl⟩

theorem entry?_considered {n : Nat} (there : (s.vaultAt root).size path = .ok n)
    (considers : Considers f now path) :
    entry? (Workstation.vault root now) f path s =
      (Act.call ((Workstation.vault root now).tags path) >>= described f path ⟨now, now⟩) s := by
  have inside : (!f.folder.isEmpty && !Notes.inFolder path f.folder f.recursive) = false := by
    rcases considers.folder with h | h <;> simp [h]
  rw [entry?_eq, inside, if_neg Bool.false_ne_true, Act.bind_apply, call_times there]
  simp only [considers.created, considers.modified, Act.ofExcept, pure_bind, Bool.false_eq_true,
    if_false]

/-- A note that the list does not look into is passed over, whatever it holds. -/
theorem entry?_passed {n : Nat} (there : (s.vaultAt root).size path = .ok n) (spans : f.Spans)
    (passes : ¬ Considers f now path) :
    entry? (Workstation.vault root now) f path s = (.ok none, s) := by
  obtain ⟨made, created⟩ : ∃ early, tooEarly f.now now f.createdWithin = .ok early :=
    ⟨_, tooEarly_of_taken spans.created f.now now⟩
  obtain ⟨changed, modified⟩ : ∃ early, tooEarly f.now now f.modifiedWithin = .ok early :=
    ⟨_, tooEarly_of_taken spans.modified f.now now⟩
  rw [entry?_eq]
  split
  · rfl
  · rename_i inside
    rw [Act.bind_apply, call_times there]
    simp only [created, modified, Act.ofExcept, pure_bind]
    cases made with
    | true => rfl
    | false =>
      cases changed with
      | true => rfl
      | false =>
        refine absurd ⟨?_, created, modified⟩ passes
        cases folder : f.folder.isEmpty with
        | true => exact .inl rfl
        | false => exact .inr (by simpa [folder] using inside)

/-- A note that does not keep a list from ending: the list does not look into it, or its tags can be
told. -/
def Told (v : Vault) (f : Filter) (time : Number.Binary64) (path : String) : Prop :=
  Considers f time path → ∃ tags, v.tags path = .ok tags

variable {paths : List String} {n : Nat} {ms : Int}

theorem entry?_told (size : (s.vaultAt root).size path = .ok n) (spans : f.Spans)
    (finite : Context.milliseconds now = .ok ms) (told : Told (s.vaultAt root) f now path) :
    ∃ e, entry? (Workstation.vault root now) f path s = (.ok e, s) := by
  by_cases considers : Considers f now path
  · obtain ⟨tags, known⟩ := told considers
    rw [entry?_considered size considers, Act.bind_apply, call_tags, known]
    exact described_ends finite tags
  · exact ⟨none, entry?_passed size spans considers⟩

theorem entry?_untold (size : (s.vaultAt root).size path = .ok n)
    (untold : ¬ Told (s.vaultAt root) f now path) :
    ∃ fault, entry? (Workstation.vault root now) f path s = (.error (.fault fault), s) := by
  obtain ⟨considers, none⟩ := Classical.not_imp.mp untold
  rw [entry?_considered size considers, Act.bind_apply, call_tags]
  cases known : (s.vaultAt root).tags path with
  | ok tags => exact absurd ⟨tags, known⟩ none
  | error fault => exact ⟨fault, rfl⟩

theorem entries_end (spans : f.Spans) (finite : Context.milliseconds now = .ok ms)
    (sizes : ∀ path ∈ paths, ∃ n, (s.vaultAt root).size path = .ok n)
    (told : ∀ path ∈ paths, Told (s.vaultAt root) f now path) :
    ∃ es, entries (Workstation.vault root now) f paths s = (.ok es, s) := by
  induction paths with
  | nil => exact ⟨[], rfl⟩
  | cons path rest ih =>
    obtain ⟨⟨n, size⟩, sizes⟩ := List.forall_mem_cons.mp sizes
    obtain ⟨here, told⟩ := List.forall_mem_cons.mp told
    obtain ⟨e, first⟩ := entry?_told size spans finite here
    obtain ⟨es, later⟩ := ih sizes told
    refine ⟨e.toList ++ es, ?_⟩
    rw [entries, Act.bind_apply, first]
    dsimp only
    rw [Act.bind_apply, later]
    rfl

/-- The first note that cannot be told is the end of the list. -/
theorem entries_fail (spans : f.Spans) (finite : Context.milliseconds now = .ok ms)
    (sizes : ∀ path ∈ paths, ∃ n, (s.vaultAt root).size path = .ok n)
    (untold : ¬ ∀ path ∈ paths, Told (s.vaultAt root) f now path) :
    ∃ fault, entries (Workstation.vault root now) f paths s = (.error (.fault fault), s) := by
  induction paths with
  | nil => exact absurd (List.forall_mem_nil _) untold
  | cons path rest ih =>
    obtain ⟨⟨n, size⟩, sizes⟩ := List.forall_mem_cons.mp sizes
    rw [entries, Act.bind_apply]
    by_cases here : Told (s.vaultAt root) f now path
    · obtain ⟨e, first⟩ := entry?_told size spans finite here
      obtain ⟨fault, later⟩ := ih sizes fun told =>
        untold (List.forall_mem_cons.mpr ⟨here, told⟩)
      refine ⟨fault, ?_⟩
      rw [first]
      dsimp only
      rw [Act.bind_apply, later]
    · obtain ⟨fault, first⟩ := entry?_untold size here
      exact ⟨fault, by rw [first]⟩

/-! ### Whole lists -/

/-- The filter that a node's properties make at a time. -/
def filterOf (c : Context σ) (now : Number.Binary64) : Except Fault Filter := do
  let createdWithin ← Notes.seconds (c.property "createdWithin")
  let modifiedWithin ← Notes.seconds (c.property "modifiedWithin")
  return {
    folder := c.trimmed "folder"
    recursive := c.flag "recursive"
    tags := Listing.tags (c.property "tags")
    everyTag := c.propertyOr "tagMatch" "any" == "all"
    now, createdWithin, modifiedWithin }

/-- What a list leaves of its entries. -/
def arranged (c : Context σ) (enough : Int) (found : List Entry) : Outcome :=
  let sorted := sortEntries (c.property "sortBy") (c.propertyOr "sortOrder" "desc" != "asc") found
  let notes := upTo enough sorted
  let count : Value := .int notes.length
  let total : Value := .int sorted.length
  { output := .record [("count", count), ("totalCount", total)]
    writes := c.writes [("saveTo", .record
        [("notes", .list (notes.map Entry.toValue)), ("count", count), ("totalCount", total),
          ("hasMore", .bool (decide (enough < (sorted.length : Int))))])] }

/-- A list takes the time, and makes of the notes of the vault what is arranged of them. -/
theorem listNotes_eq {c : Context σ} {vault : VaultProvider σ} {enough : Int} {s s₁ : Session σ}
    (offered : c.providers.vault = some vault) (saves : (c.trimmed "saveTo").isEmpty = false)
    (limited : Visit.limit c 50 = .ok enough)
    (time : Act.ask c.providers.clock.now s = (.ok now, s₁)) (filter : filterOf c now = .ok f) :
    listNotes c s = (noteFiles vault >>= fun paths => entries vault f paths >>= fun found =>
      pure (arranged c enough found)) s₁ := by
  obtain ⟨createdWithin, made, behind⟩ := bind_eq_ok.mp filter
  obtain ⟨modifiedWithin, changed, same⟩ := bind_eq_ok.mp behind
  cases same
  unfold listNotes Context.vault Context.require
  simp only [saves, offered, limited, made, changed, Act.ofExcept, Bool.false_eq_true, if_false,
    pure_bind]
  rw [Act.bind_apply, time]
  rfl

/-- A visit to a node that lists the notes of a vault below a place. Its properties can be read. -/
structure Surveys (c : Context Workstation) (root : Location) (now : Number.Binary64)
    (s : Session Workstation) (f : Filter) : Prop where
  clock : c.providers.clock = Workstation.clock
  offered : c.providers.vault = some (Workstation.vault root now)
  saves : (c.trimmed "saveTo").isEmpty = false
  limit : ∃ n, Visit.limit c 50 = .ok n
  filter : filterOf c s.world.now = .ok f
  spans : f.Spans
  finite : ∃ ms, Context.milliseconds now = .ok ms

theorem Surveys.listNotes_eq {c : Context Workstation} (surveys : Surveys c root now s f) :
    ∃ enough, listNotes c s = (noteFiles (Workstation.vault root now) >>= fun paths =>
      entries (Workstation.vault root now) f paths >>= fun found =>
        pure (arranged c enough found)) s := by
  obtain ⟨enough, limited⟩ := surveys.limit
  have time : Act.ask c.providers.clock.now s = (.ok s.world.now, s) := by
    rw [surveys.clock]
    rfl
  exact ⟨enough, Visit.listNotes_eq surveys.offered surveys.saves limited time surveys.filter⟩

theorem noteFiles_eq (listed : (s.vaultAt root).listFiles "" true = .ok paths) :
    noteFiles (Workstation.vault root now) s = (.ok (paths.filter Notes.isNote), s) := by
  have called : Act.call (Workstation.vault root now).listFiles s = (.ok paths, s) := by
    refine (Workstation.call_inVault root s (·.listFiles "" true)).trans ?_
    rw [listed]
    rfl
  unfold noteFiles
  rw [Act.bind_apply, called]
  rfl

/-- A list ends where every note is told, and fails where one is not; either way the session stays
as it was. -/
theorem Surveys.ends {c : Context Workstation} (surveys : Surveys c root now s f)
    (sound : (s.vaultAt root).Sound) (listed : (s.vaultAt root).listFiles "" true = .ok paths) :
    ((∀ path ∈ paths.filter Notes.isNote, Told (s.vaultAt root) f now path) ∧
        ∃ o, listNotes c s = (.ok o, s)) ∨
      (¬ ∀ path ∈ paths.filter Notes.isNote, Told (s.vaultAt root) f now path) ∧
        ∃ fault, listNotes c s = (.error (.fault fault), s) := by
  obtain ⟨ms, finite⟩ := surveys.finite
  obtain ⟨enough, eq⟩ := surveys.listNotes_eq
  have sizes : ∀ path ∈ paths.filter Notes.isNote, ∃ n, (s.vaultAt root).size path = .ok n :=
    fun path there => sound.size_listed listed (List.mem_filter.mp there).1
  rw [eq, Act.bind_apply, noteFiles_eq listed]
  dsimp only
  rw [Act.bind_apply]
  by_cases told : ∀ path ∈ paths.filter Notes.isNote, Told (s.vaultAt root) f now path
  · obtain ⟨es, found⟩ := entries_end surveys.spans finite sizes told
    exact .inl ⟨told, _, by rw [found]; rfl⟩
  · obtain ⟨fault, failed⟩ := entries_fail surveys.spans finite sizes told
    exact .inr ⟨told, fault, by rw [failed]⟩

/-- A note whose text can be read, with a header that tells its tags, if it has one. -/
def Legible (v : Vault) (path : String) : Prop :=
  ∃ text, v.readText path = .ok text ∧
    ∀ header body, Parts text.toList header body → ∀ h ∈ header, Tells h

theorem legible_iff {v : Vault} (note : Notes.isNote path = true) :
    Legible v path ↔ ∃ tags, v.tags path = .ok tags := by
  simp only [Vault.tags_eq_ok note]
  constructor
  · rintro ⟨text, read, tells⟩
    obtain ⟨header, body, rest, parts, unfenced⟩ := exists_parts text
    obtain ⟨tags, known⟩ := (exists_ofNote parts unfenced).mpr (tells header body parts)
    exact ⟨tags, text, read, known⟩
  · rintro ⟨tags, text, read, known⟩
    obtain ⟨header, body, rest, parts, unfenced⟩ := exists_parts text
    have tells := (exists_ofNote parts unfenced).mp ⟨tags, known⟩
    refine ⟨text, read, fun header' body' parts' => ?_⟩
    obtain ⟨rfl, -⟩ := parts.unique parts'
    exact tells

/-- Every note has a header or none, and a text without fences, in one way. Its tags are those that
its header lists and then those of that text, each once and each with a hash sign, and they can be
told just where the header is none, no YAML, or holds an entry that lists tags. That is no `true`, no
number other than zero, no date, and nothing with a whole number in it that is too long to be
written. A list of notes ends just where every note that it looks into can be read and its tags be
told; else it fails, and leaves the session as it was. -/
theorem tags_told (content : String) :
    (∃ header body text, Parts content.toList header body ∧ Unfenced body text) ∧
    (∀ {header body text}, Parts content.toList header body → Unfenced body text →
        (∀ tags, ofNote content = .ok tags ↔
          ∃ front, HeaderTags header front ∧ tags = (front ++ tagsOf text).eraseDups) ∧
        ((∃ tags, ofNote content = .ok tags) ↔ ∀ h ∈ header, Tells h)) ∧
    (∀ {tags}, ofNote content = .ok tags →
      tags.Nodup ∧ ∀ t ∈ tags, t.startsWith "#" = true) ∧
    (∀ raw, ¬ Listable raw ↔ Single raw ∨
      ∃ ms, Workflow.members? raw = some ms ∧ ∃ m ∈ ms, m.hasNumerals = false) ∧
    ∀ {c root now s f paths}, Surveys c root now s f → (s.vaultAt root).Sound →
      (s.vaultAt root).listFiles "" true = .ok paths →
        ((∃ o, listNotes c s = (.ok o, s)) ∨ ∃ fault, listNotes c s = (.error (.fault fault), s)) ∧
        ((∃ o, listNotes c s = (.ok o, s)) ↔
          ∀ path ∈ paths, Notes.isNote path = true → Considers f now path →
            Legible (s.vaultAt root) path) := by
  refine ⟨exists_parts content, fun parts unfenced => ⟨fun tags => ofNote_eq_ok parts unfenced,
    exists_ofNote parts unfenced⟩, fun known => told_tags known, fun _ => not_listable, ?_⟩
  intro c root now s f paths surveys sound listed
  have same : (∀ path ∈ paths, Notes.isNote path = true → Considers f now path →
      Legible (s.vaultAt root) path) ↔
        ∀ path ∈ paths.filter Notes.isNote, Told (s.vaultAt root) f now path := by
    simp only [List.mem_filter, and_imp]
    exact forall_congr' fun path => imp_congr_right fun _ => forall_congr' fun note =>
      imp_congr_right fun _ => legible_iff note
  rw [same]
  rcases surveys.ends sound listed with ⟨told, o, ends⟩ | ⟨untold, fault, fails⟩
  · exact ⟨.inl ⟨o, ends⟩, fun _ => told, fun _ => ⟨o, ends⟩⟩
  · refine ⟨.inr ⟨fault, fails⟩, fun ⟨o, ends⟩ => ?_, fun told => absurd told untold⟩
    cases ends.symm.trans fails

/-- A node that lists the notes of a vault, whatever their folder and age. -/
def shelving : Context Workstation :=
  { node := { id := "n", kind := "note-list" }
    properties := [("saveTo", "v")]
    scope := .empty
    providers := { clock := Workstation.clock, vault := some (Workstation.vault ["vault"] (.ofInt 0)) } }

def anyNote : Filter := ⟨"", false, [], false, .ofInt 0, none, none⟩

theorem surveys_shelving (text : String) :
    Surveys shelving ["vault"] (.ofInt 0) (desk text) anyNote where
  clock := rfl
  offered := rfl
  saves := by decide
  limit := ⟨50, by decide +kernel⟩
  filter := by with_unfolding_all rfl
  spans := ⟨nofun, nofun⟩
  finite := ⟨0, by decide +kernel⟩

theorem considers_anyNote (time : Number.Binary64) (path : String) : Considers anyNote time path :=
  ⟨.inl rfl, rfl, rfl⟩

theorem desk_listFiles (text : String) :
    ((desk text).vaultAt ["vault"]).listFiles "" true = .ok ["f.md"] := by
  with_unfolding_all rfl

theorem desk_readText (text : String) :
    ((desk text).vaultAt ["vault"]).readText "f.md" = .ok (Text.linefed text) :=
  Vault.Holds.readText (by with_unfolding_all rfl)

/-- The front of the one note is read as a header with a body behind it. -/
theorem parts_of_eq {content header body : List Char} (h : header? content = some (header, body)) :
    Parts content (some header) body := by
  rcases parts_of_header? content with ⟨_, _, found, parts⟩ | ⟨bare, -⟩
  · cases h.symm.trans found
    exact parts
  · cases h.symm.trans bare

theorem tags_told_shelving :
    let text := "---\ntags: [b, 1]\n---\n#a #1 ```#c```"
    (Parts text.toList (some "tags: [b, 1]".toList) "#a #1 ```#c```".toList ∧
      Unfenced "#a #1 ```#c```".toList "#a #1 ".toList ∧
      ofNote text = .ok ["#b", "#1", "#a"] ∧ ["#b", "#1", "#a"].Nodup ∧
      Tells "tags: [b, 1]".toList) ∧
    Surveys shelving ["vault"] (.ofInt 0) (desk text) anyNote ∧
      ((desk text).vaultAt ["vault"]).Sound ∧
      ((desk text).vaultAt ["vault"]).listFiles "" true = .ok ["f.md"] ∧
      ∃ o, listNotes shelving (desk text) = (.ok o, desk text) := by
  intro text
  obtain ⟨-, tells, distinct, -, lists⟩ := tags_told text
  have parts : Parts text.toList (some "tags: [b, 1]".toList) "#a #1 ```#c```".toList :=
    parts_of_eq (by decide +kernel)
  have left : withoutFences 14 "#a #1 ```#c```".toList = "#a #1 ".toList := by decide +kernel
  have unfenced : Unfenced "#a #1 ```#c```".toList "#a #1 ".toList := by
    rw [← left]
    exact unfenced_withoutFences (by decide)
  have known : ofNote text = .ok ["#b", "#1", "#a"] := by decide +kernel
  have told := (tells parts unfenced).2.mp ⟨_, known⟩ _ rfl
  refine ⟨⟨parts, unfenced, known, (distinct known).1, told⟩, surveys_shelving text,
    desk_sound text, desk_listFiles text, ?_⟩
  refine (lists (surveys_shelving text) (desk_sound text) (desk_listFiles text)).2.mpr ?_
  intro path there note _
  obtain rfl := List.mem_singleton.mp there
  have whole : Text.linefed text = text := by decide +kernel
  refine (legible_iff note).mpr ⟨_, (Vault.tags_eq_ok note).mpr ⟨text, ?_, known⟩⟩
  rw [desk_readText, whole]

/-- A number for tags, a date that the calendar does not have, and a list of notes with one of them
that is marked with `true`. -/
theorem tags_untold :
    ofNote "---\ntags: 5\n---\n#a" = .error .wrongType ∧
      ofNote "---\nd: 2020-13-45\n---\n#a" = .error (.badValue "month must be in 1..12") ∧
      ∃ fault, listNotes shelving (desk "---\ntags: true\n---\n#a") =
        (.error (.fault fault), desk "---\ntags: true\n---\n#a") := by
  refine ⟨by decide +kernel, by decide +kernel, ?_⟩
  obtain ⟨told, -⟩ | ⟨-, fails⟩ :=
    (surveys_shelving _).ends (desk_sound _) (desk_listFiles "---\ntags: true\n---\n#a")
  · obtain ⟨tags, known⟩ := told "f.md" (by decide +kernel) (considers_anyNote ..)
    obtain ⟨text, read, known⟩ := (Vault.tags_eq_ok (by decide +kernel)).mp known
    cases (desk_readText _).symm.trans read
    have untold : ofNote (Text.linefed "---\ntags: true\n---\n#a") = .error .wrongType := by
      decide +kernel
    cases untold.symm.trans known
  · exact fails

end Visit
end Runbook
