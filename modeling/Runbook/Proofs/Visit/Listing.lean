import Runbook.Proofs.Notes
import Runbook.Proofs.Visit.Consent
import Runbook.Proofs.Visit.NoteList

/-! Pages of notes.

A node that lists notes gives a page of those that pass its filter: each of them once, sorted by a
key in one direction or the other with ties in the order of the vault, and cut off at its limit
(`listNotes_pages`). What the node asks for is told from its properties by themselves: a folder
without the slashes at its end, tags with their hash signs, ages in seconds. There are ages that it
asks for in vain, since their unit is one to the eye and not to the table of units
(`listNotes_refused`). -/
namespace Runbook.Visit

variable {σ : Type}

/-! ### Order -/

/-- A list that was sorted without changing the order of ties. -/
structure StablySorted {α : Type} (le : α → α → Bool) (found sorted : List α) : Prop where
  perm : sorted.Perm found
  ordered : sorted.Pairwise fun a b => le a b = true
  ties : ∀ a, sorted.filter (fun b => le a b && le b a) = found.filter fun b => le a b && le b a

theorem stablySorted_mergeSort {α : Type} {le : α → α → Bool}
    (trans : ∀ a b c, le a b = true → le b c = true → le a c = true)
    (total : ∀ a b, (le a b || le b a) = true) (found : List α) :
    StablySorted le found (found.mergeSort le) where
  perm := List.mergeSort_perm found le
  ordered := List.pairwise_mergeSort trans total found
  ties := by
    intro a
    let tied := fun b => le a b && le b a
    have alike : (found.filter tied).Pairwise fun b c => le b c = true := by
      refine List.pairwise_of_forall_mem_list fun b there c there' => ?_
      have before := (Bool.and_eq_true_iff.mp (List.mem_filter.mp there).2).2
      have behind := (Bool.and_eq_true_iff.mp (List.mem_filter.mp there').2).1
      exact trans b a c before behind
    have kept : (found.filter tied).Sublist ((found.mergeSort le).filter tied) := by
      have still := (List.sublist_mergeSort trans total alike List.filter_sublist).filter tied
      simpa only [List.filter_filter, Bool.and_self] using still
    have many := ((List.mergeSort_perm found le).filter tied).length_eq
    exact (kept.eq_of_length many.symm).symm

/-- Whether an entry may stand in front of another one by a key; without a key any may. -/
def keyLe (sortBy : String) (a b : Entry) : Bool :=
  match sortBy with
  | "created" => decide (a.created ≤ b.created)
  | "modified" => decide (a.modified ≤ b.modified)
  | "name" => decide (Text.lowered a.name ≤ Text.lowered b.name)
  | _ => true

/-- The order of a list. -/
def goesBefore (sortBy : String) (descending : Bool) (a b : Entry) : Bool :=
  if descending then keyLe sortBy b a else keyLe sortBy a b

theorem keyLe_trans {sortBy : String} {a b c : Entry} (h : keyLe sortBy a b = true)
    (h' : keyLe sortBy b c = true) : keyLe sortBy a c = true := by
  unfold keyLe at *
  split at h
  · exact decide_eq_true ((of_decide_eq_true h).trans (of_decide_eq_true h'))
  · exact decide_eq_true ((of_decide_eq_true h).trans (of_decide_eq_true h'))
  · exact decide_eq_true (String.le_trans (of_decide_eq_true h) (of_decide_eq_true h'))
  · rfl

theorem keyLe_total (sortBy : String) (a b : Entry) :
    (keyLe sortBy a b || keyLe sortBy b a) = true := by
  unfold keyLe
  rw [Bool.or_eq_true]
  split
  · exact (Int.le_total ..).imp decide_eq_true decide_eq_true
  · exact (Int.le_total ..).imp decide_eq_true decide_eq_true
  · exact (String.le_total ..).imp decide_eq_true decide_eq_true
  · exact .inl rfl

theorem sortEntries_eq (sortBy : String) (descending : Bool) (found : List Entry) :
    sortEntries sortBy descending found = found.mergeSort (goesBefore sortBy descending) := by
  unfold sortEntries goesBefore keyLe
  split
  · rfl
  · rfl
  · rfl
  · simp only [ite_self]
    exact (List.mergeSort_of_pairwise (List.pairwise_of_forall fun _ _ => rfl)).symm

theorem stablySorted_sortEntries (sortBy : String) (descending : Bool) (found : List Entry) :
    StablySorted (goesBefore sortBy descending) found (sortEntries sortBy descending found) := by
  rw [sortEntries_eq]
  refine stablySorted_mergeSort (fun a b c => ?_) (fun a b => ?_) found
  · unfold goesBefore
    cases descending with
    | true => exact fun first second => keyLe_trans second first
    | false => exact keyLe_trans
  · unfold goesBefore
    cases descending with
    | true => exact keyLe_total sortBy b a
    | false => exact keyLe_total sortBy a b

/-! ### What meets a filter -/

/-- A note in the folder of a filter, if it has one. -/
def Inside (f : Filter) (path : String) : Prop :=
  f.folder = "" ∨ Notes.LiesIn f.folder path f.recursive

/-- The tags of a note are those that a filter asks for, or one of them is; any are where it asks
for none. -/
def Tagged (f : Filter) (tags : List String) : Prop :=
  f.tags = [] ∨ if f.everyTag then ∀ t ∈ f.tags, t ∈ tags else ∃ t ∈ f.tags, t ∈ tags

/-- A note that passes a filter. -/
structure Passes (f : Filter) (times : FileTimes) (tags : List String) (path : String) : Prop where
  folder : Inside f path
  created : Recent f.now times.created f.createdWithin
  modified : Recent f.now times.modified f.modifiedWithin
  tags : Tagged f tags

theorem inside_iff (f : Filter) (path : String) :
    (!f.folder.isEmpty && !Notes.inFolder path f.folder f.recursive) = false ↔ Inside f path := by
  unfold Inside
  rw [← Notes.inFolder_iff, ← String.isEmpty_iff]
  cases f.folder.isEmpty <;> cases Notes.inFolder path f.folder f.recursive <;> decide

theorem tagged_iff (f : Filter) (tags : List String) : hasTags f tags = true ↔ Tagged f tags := by
  unfold hasTags Tagged
  rw [Bool.or_eq_true, List.isEmpty_iff]
  refine or_congr_right ?_
  cases f.everyTag with
  | true => simp
  | false => simp

instance (f : Filter) (path : String) : Decidable (Inside f path) :=
  decidable_of_iff _ (inside_iff f path)

instance (f : Filter) (tags : List String) : Decidable (Tagged f tags) :=
  decidable_of_iff _ (tagged_iff f tags)

instance (f : Filter) (times : FileTimes) (tags : List String) (path : String) :
    Decidable (Passes f times tags path) :=
  decidable_of_iff (Inside f path ∧ Recent f.now times.created f.createdWithin ∧
      Recent f.now times.modified f.modifiedWithin ∧ Tagged f tags)
    ⟨fun ⟨folder, created, modified, tags⟩ => ⟨folder, created, modified, tags⟩,
      fun h => ⟨h.folder, h.created, h.modified, h.tags⟩⟩

/-- The ages that a note is held against can be taken from a time, and if the note passes the filter
its times can be told in milliseconds. -/
structure Measured (f : Filter) (times : FileTimes) (tags : List String) (path : String) :
    Prop where
  created : Inside f path → Taken f.createdWithin
  modified : Inside f path → Recent f.now times.created f.createdWithin → Taken f.modifiedWithin
  finite : Passes f times tags path → ∃ created modified,
    Context.milliseconds times.created = .ok created ∧
      Context.milliseconds times.modified = .ok modified

/-- An entry that says of a note what there is to say. -/
structure Describes (times : FileTimes) (tags : List String) (note : String) (e : Entry) :
    Prop where
  path : e.path = note
  name : e.name = (FileName.ofPath note).name
  created : Context.milliseconds times.created = .ok e.created
  modified : Context.milliseconds times.modified = .ok e.modified
  tags : e.tags = tags

/-! ### Entries -/

variable {vault : VaultProvider σ} {within : σ → Prop} {f : Filter} {path : String}
  {times : FileTimes} {tags : List String} {s : Session σ}

/-- What becomes of a note with such times and tags. -/
def verdict (f : Filter) (times : FileTimes) (tags : List String) (path : String) :
    Except Fault (Option Entry) :=
  if !f.folder.isEmpty && !Notes.inFolder path f.folder f.recursive then .ok none
  else do
    if ← tooEarly f.now times.created f.createdWithin then return none
    if ← tooEarly f.now times.modified f.modifiedWithin then return none
    if !hasTags f tags then return none
    let created ← Context.milliseconds times.created
    let modified ← Context.milliseconds times.modified
    return some ⟨path, (FileName.ofPath path).name, created, modified, tags⟩

theorem described_eq (f : Filter) (path : String) (times : FileTimes) (tags : List String)
    (s : Session σ) :
    described f path times tags s = ((do
      if !hasTags f tags then return none
      let created ← Context.milliseconds times.created
      let modified ← Context.milliseconds times.modified
      return some ⟨path, (FileName.ofPath path).name, created, modified, tags⟩ :
        Except Fault (Option Entry)).mapError .fault, s) := by
  unfold described
  cases hasTags f tags with
  | false => rfl
  | true =>
    cases Context.milliseconds times.created with
    | error fault => rfl
    | ok created => cases Context.milliseconds times.modified <;> rfl

theorem entry?_verdict (stat : (vault.times path).Returns within times)
    (tagged : (vault.tags path).Returns within tags) (inside : within s.world) :
    ∃ s', within s'.world ∧
      entry? vault f path s = ((verdict f times tags path).mapError .fault, s') := by
  obtain ⟨s₁, dated, inside₁⟩ := Act.call_returns stat inside
  obtain ⟨s₂, told, inside₂⟩ := Act.call_returns tagged inside₁
  rw [entry?_eq]
  unfold verdict
  split
  · exact ⟨s, inside, rfl⟩
  · rw [Act.bind_apply, dated]
    dsimp only
    cases tooEarly f.now times.created f.createdWithin with
    | error fault => exact ⟨s₁, inside₁, rfl⟩
    | ok made =>
      cases made with
      | true => exact ⟨s₁, inside₁, rfl⟩
      | false =>
        cases tooEarly f.now times.modified f.modifiedWithin with
        | error fault => exact ⟨s₁, inside₁, rfl⟩
        | ok changed =>
          cases changed with
          | true => exact ⟨s₁, inside₁, rfl⟩
          | false =>
            refine ⟨s₂, inside₂, ?_⟩
            show (Act.call (vault.tags path) >>= described f path times) s₁ = _
            rw [Act.bind_apply, told]
            exact described_eq f path times tags s₂

/-- The answer for a note that a filter lets through, and for one that it does not. -/
structure Answers (f : Filter) (times : FileTimes) (tags : List String) (path : String)
    (answer : Option Entry) : Prop where
  passed : Passes f times tags path → ∃ e, answer = some e ∧ Describes times tags path e
  left_out : ¬ Passes f times tags path → answer = none

theorem Answers.none (fails : ¬ Passes f times tags path) : Answers f times tags path none :=
  ⟨fun passes => absurd passes fails, fun _ => rfl⟩

/-- A note that passes has an entry, unless one of its times cannot be told in milliseconds. -/
theorem stamped_cases (passes : Passes f times tags path) (age : Taken f.createdWithin)
    (span : Taken f.modifiedWithin) :
    let stamped : Except Fault (Option Entry) := do
      let created ← Context.milliseconds times.created
      let modified ← Context.milliseconds times.modified
      return some ⟨path, (FileName.ofPath path).name, created, modified, tags⟩
    (Measured f times tags path ∧ ∃ answer, stamped = .ok answer ∧
        Answers f times tags path answer) ∨
      ¬ Measured f times tags path ∧ ∃ fault, stamped = .error fault := by
  intro stamped
  cases made : Context.milliseconds times.created with
  | error fault =>
    refine .inr ⟨fun h => ?_, fault, by simp only [stamped, made]; rfl⟩
    obtain ⟨_, _, finite, -⟩ := h.finite passes
    cases made.symm.trans finite
  | ok created =>
    cases changed : Context.milliseconds times.modified with
    | error fault =>
      refine .inr ⟨fun h => ?_, fault, by simp only [stamped, made, changed]; rfl⟩
      obtain ⟨_, _, -, finite⟩ := h.finite passes
      cases changed.symm.trans finite
    | ok modified =>
      refine .inl ⟨⟨fun _ => age, fun _ _ => span, fun _ => ⟨_, _, made, changed⟩⟩, _,
        by simp only [stamped, made, changed]; rfl, ?_⟩
      exact ⟨fun _ => ⟨_, rfl, rfl, rfl, made, changed, rfl⟩, fun fails => absurd passes fails⟩

theorem verdict_cases (f : Filter) (times : FileTimes) (tags : List String) (path : String) :
    (Measured f times tags path ∧ ∃ answer, verdict f times tags path = .ok answer ∧
        Answers f times tags path answer) ∨
      ¬ Measured f times tags path ∧ ∃ fault, verdict f times tags path = .error fault := by
  by_cases folder : Inside f path
  case neg =>
    have outside := (inside_iff f path).not.mpr folder
    refine .inl ⟨⟨fun h => absurd h folder, fun h => absurd h folder,
      fun h => absurd h.folder folder⟩, none, if_pos (by simpa using outside),
      .none fun h => folder h.folder⟩
  have inside := (inside_iff f path).mpr folder
  unfold verdict
  rw [inside, if_neg Bool.false_ne_true]
  by_cases age : Taken f.createdWithin
  case neg =>
    obtain ⟨fault, fails⟩ := tooEarly_fails age f.now times.created
    exact .inr ⟨fun h => age (h.created folder), fault, by rw [fails]; rfl⟩
  rw [tooEarly_of_taken age]
  by_cases created : Recent f.now times.created f.createdWithin
  case neg =>
    rw [decide_eq_false created]
    exact .inl ⟨⟨fun _ => age, fun _ h => absurd h created, fun h => absurd h.created created⟩,
      none, rfl, .none fun h => created h.created⟩
  rw [decide_eq_true created]
  by_cases span : Taken f.modifiedWithin
  case neg =>
    obtain ⟨fault, fails⟩ := tooEarly_fails span f.now times.modified
    exact .inr ⟨fun h => span (h.modified folder created), fault, by rw [fails]; rfl⟩
  rw [tooEarly_of_taken span]
  by_cases modified : Recent f.now times.modified f.modifiedWithin
  case neg =>
    rw [decide_eq_false modified]
    exact .inl ⟨⟨fun _ => age, fun _ _ => span, fun h => absurd h.modified modified⟩,
      none, rfl, .none fun h => modified h.modified⟩
  rw [decide_eq_true modified]
  by_cases tagged : Tagged f tags
  case neg =>
    have untagged := Bool.eq_false_iff.mpr ((tagged_iff f tags).not.mpr tagged)
    rw [untagged]
    exact .inl ⟨⟨fun _ => age, fun _ _ => span, fun h => absurd h.tags tagged⟩,
      none, rfl, .none fun h => tagged h.tags⟩
  rw [(tagged_iff f tags).mpr tagged]
  exact stamped_cases ⟨folder, created, modified, tagged⟩ age span

/-- The entries of the notes that pass a filter, in their order. -/
structure Tells (f : Filter) (times : String → FileTimes) (tags : String → List String)
    (paths : List String) (found : List Entry) : Prop where
  paths : found.map (·.path) = paths.filter fun path => Passes f (times path) (tags path) path
  describes : ∀ e ∈ found, Describes (times e.path) (tags e.path) e.path e

section Lists

variable {times : String → FileTimes} {tags : String → List String} {paths : List String}

theorem Tells.cons {answer : Option Entry} {found : List Entry}
    (first : Answers f (times path) (tags path) path answer)
    (rest : Tells f times tags paths found) :
    Tells f times tags (path :: paths) (answer.toList ++ found) := by
  by_cases passes : Passes f (times path) (tags path) path
  · obtain ⟨e, rfl, describes⟩ := first.passed passes
    cases describes.path
    refine ⟨?_, List.forall_mem_cons.mpr ⟨describes, rest.describes⟩⟩
    rw [List.filter_cons_of_pos (by simpa using passes), ← rest.paths]
    rfl
  · cases first.left_out passes
    refine ⟨?_, rest.describes⟩
    rw [List.filter_cons_of_neg (by simpa using passes)]
    exact rest.paths

/-- The notes are looked into one by one, and the first that cannot be measured is the end. -/
theorem entries_cases (stat : ∀ path ∈ paths, (vault.times path).Returns within (times path))
    (tagged : ∀ path ∈ paths, (vault.tags path).Returns within (tags path))
    (inside : within s.world) :
    ((∀ path ∈ paths, Measured f (times path) (tags path) path) ∧
        ∃ found s', entries vault f paths s = (.ok found, s') ∧ Tells f times tags paths found) ∨
      (¬ ∀ path ∈ paths, Measured f (times path) (tags path) path) ∧
        ∃ fault s', entries vault f paths s = (.error (.fault fault), s') := by
  induction paths generalizing s with
  | nil => exact .inl ⟨List.forall_mem_nil _, [], s, rfl, rfl, List.forall_mem_nil _⟩
  | cons path rest ih =>
    obtain ⟨dated, stat⟩ := List.forall_mem_cons.mp stat
    obtain ⟨told, tagged⟩ := List.forall_mem_cons.mp tagged
    obtain ⟨s₁, inside₁, first⟩ := entry?_verdict (f := f) dated told inside
    rw [List.forall_mem_cons, entries, Act.bind_apply, first]
    obtain ⟨measured, answer, known, answers⟩ | ⟨unmeasured, fault, fails⟩ :=
      verdict_cases f (times path) (tags path) path
    · rw [known]
      obtain ⟨all, found, s₂, came, tells⟩ | ⟨none, fault, s₂, came⟩ := ih stat tagged inside₁
      · refine .inl ⟨⟨measured, all⟩, answer.toList ++ found, s₂, ?_, tells.cons answers⟩
        show (entries vault f rest >>= fun more => pure (answer.toList ++ more)) s₁ = _
        rw [Act.bind_apply, came]
        rfl
      · refine .inr ⟨fun both => none both.2, fault, s₂, ?_⟩
        show (entries vault f rest >>= fun more => pure (answer.toList ++ more)) s₁ = _
        rw [Act.bind_apply, came]
    · rw [fails]
      exact .inr ⟨fun both => unmeasured both.1, fault, s₁, rfl⟩

end Lists

/-! ### Pages -/

/-- The filter that a node asks for. -/
structure Asks (c : Context σ) (now : Number.Binary64) (f : Filter) : Prop where
  folder : f.folder = c.trimmed "folder"
  recursive : f.recursive = c.flag "recursive"
  tags : ∀ t, t ∈ f.tags ↔ Notes.Asked (c.property "tags") t
  everyTag : f.everyTag = true ↔ c.property "tagMatch" = "all"
  now : f.now = now
  createdWithin : ∀ n, f.createdWithin = some n ↔ Notes.Lasts (c.property "createdWithin") n
  modifiedWithin : ∀ n, f.modifiedWithin = some n ↔ Notes.Lasts (c.property "modifiedWithin") n

/-- The first of the notes that pass, and whether there are more. -/
def page (c : Context σ) (enough passing : Nat) (sorted : List Entry) : Outcome :=
  let count := min enough passing
  { output := .record [("count", .int count), ("totalCount", .int passing)]
    writes := c.writes [("saveTo", .record
      [("notes", .list ((sorted.take enough).map Entry.toValue)), ("count", .int count),
        ("totalCount", .int passing), ("hasMore", .bool (decide (count < passing)))])] }

/-- A node that lists the notes of a vault, with the files of the vault, their times and their tags
in all worlds of a kind. -/
structure Lists (c : Context σ) (vault : VaultProvider σ) (within : σ → Prop)
    (paths : List String) (times : String → FileTimes) (tags : String → List String)
    (enough : Nat) : Prop where
  offered : c.providers.vault = some vault
  saves : (c.trimmed "saveTo").isEmpty = false
  limit : Visit.limit c 50 = .ok enough
  clock : ∀ world, within world → within (c.providers.clock.now world).2
  listed : vault.listFiles.Returns within paths
  stat : ∀ path ∈ paths, Notes.isNote path = true →
    (vault.times path).Returns within (times path)
  tagged : ∀ path ∈ paths, Notes.isNote path = true →
    (vault.tags path).Returns within (tags path)

theorem exists_filterOf {c : Context σ} (now : Number.Binary64)
    (created : Notes.Readable (c.property "createdWithin"))
    (modified : Notes.Readable (c.property "modifiedWithin")) :
    ∃ f, filterOf c now = .ok f ∧ Asks c now f := by
  obtain ⟨made, read, lasts⟩ := Notes.exists_seconds created
  obtain ⟨changed, read', lasts'⟩ := Notes.exists_seconds modified
  refine ⟨_, bind_eq_ok.mpr ⟨made, read, bind_eq_ok.mpr ⟨changed, read', rfl⟩⟩, ?_⟩
  refine ⟨rfl, rfl, Notes.mem_tags _, ?_, rfl, lasts, lasts'⟩
  show (c.propertyOr "tagMatch" "any" == "all") = true ↔ _
  unfold Context.property Context.propertyOr
  split <;> simp

theorem arranged_eq (c : Context σ) (enough : Nat) (found : List Entry) :
    arranged c enough found = page c enough found.length (sortEntries (c.property "sortBy")
      (c.propertyOr "sortOrder" "desc" != "asc") found) := by
  have length := (stablySorted_sortEntries (c.property "sortBy")
    (c.propertyOr "sortOrder" "desc" != "asc") found).perm.length_eq
  have first {α : Type} (items : List α) : upTo (enough : Int) items = items.take enough :=
    if_pos (Int.natCast_nonneg enough)
  have more : decide ((enough : Int) < (found.length : Int)) =
      decide (min enough found.length < found.length) := by
    rw [decide_eq_decide]
    omega
  unfold arranged page
  simp only [first, List.length_take, length, more]

variable {c : Context σ} {times : String → FileTimes} {tags : String → List String}
  {paths : List String} {enough : Nat}

theorem Lists.unreadable (lists : Lists c vault within paths times tags enough)
    (unreadable : ¬ (Notes.Readable (c.property "createdWithin") ∧
      Notes.Readable (c.property "modifiedWithin"))) :
    ∃ fault, listNotes c s = (.error (.fault fault), s) := by
  unfold listNotes Context.vault Context.require
  simp only [lists.saves, lists.offered, lists.limit, Act.ofExcept, Bool.false_eq_true, if_false,
    pure_bind]
  by_cases created : Notes.Readable (c.property "createdWithin")
  · obtain ⟨fault, fails⟩ := Notes.seconds_fails fun modified => unreadable ⟨created, modified⟩
    obtain ⟨made, read, -⟩ := Notes.exists_seconds created
    rw [read, fails]
    exact ⟨fault, rfl⟩
  · obtain ⟨fault, fails⟩ := Notes.seconds_fails created
    rw [fails]
    exact ⟨fault, rfl⟩

theorem Lists.listNotes_eq (lists : Lists c vault within paths times tags enough)
    (filter : filterOf c (c.providers.clock.now s.world).1 = .ok f) (inside : within s.world) :
    ∃ s₁, within s₁.world ∧ listNotes c s = (entries vault f (paths.filter Notes.isNote) >>=
      fun found => pure (arranged c enough found)) s₁ := by
  have time : Act.ask c.providers.clock.now s = (.ok (c.providers.clock.now s.world).1,
      { s with world := (c.providers.clock.now s.world).2 }) := rfl
  obtain ⟨s₁, came, inside₁⟩ := Act.call_returns
    (s := { s with world := (c.providers.clock.now s.world).2 }) lists.listed
    (lists.clock _ inside)
  refine ⟨s₁, inside₁, ?_⟩
  rw [Visit.listNotes_eq lists.offered lists.saves lists.limit time filter, noteFiles, bind_assoc,
    Act.bind_apply, came]
  rfl

/-- A node that lists the notes of a vault fails where it is given an age that cannot be read. Else
it fails just where a note cannot be held against the filter that the node asks for; where all can,
it gives the first of the notes that pass, sorted by a key with ties in the order of the vault, and
says how many pass and whether there are more. -/
theorem listNotes_pages (lists : Lists c vault within paths times tags enough)
    (inside : within s.world) :
    let notes := paths.filter Notes.isNote
    (¬ (Notes.Readable (c.property "createdWithin") ∧
        Notes.Readable (c.property "modifiedWithin")) →
      ∃ fault, listNotes c s = (.error (.fault fault), s)) ∧
    (Notes.Readable (c.property "createdWithin") → Notes.Readable (c.property "modifiedWithin") →
      ∃ f, Asks c (c.providers.clock.now s.world).1 f ∧
        let passing := notes.filter fun path => Passes f (times path) (tags path) path
        (((∀ path ∈ notes, Measured f (times path) (tags path) path) ∧
            ∃ found sorted s',
              listNotes c s = (.ok (page c enough passing.length sorted), s') ∧
              found.map (·.path) = passing ∧
              (∀ e ∈ found, Describes (times e.path) (tags e.path) e.path e) ∧
              StablySorted (goesBefore (c.property "sortBy")
                (c.propertyOr "sortOrder" "desc" != "asc")) found sorted) ∨
          (¬ ∀ path ∈ notes, Measured f (times path) (tags path) path) ∧
            ∃ fault s', listNotes c s = (.error (.fault fault), s'))) := by
  intro notes
  refine ⟨lists.unreadable, fun created modified => ?_⟩
  obtain ⟨f, filter, asks⟩ := exists_filterOf (c.providers.clock.now s.world).1 created modified
  obtain ⟨s₁, inside₁, listed⟩ := lists.listNotes_eq filter inside
  refine ⟨f, asks, ?_⟩
  intro passing
  have noted {path : String} (there : path ∈ notes) : path ∈ paths ∧ Notes.isNote path = true :=
    List.mem_filter.mp there
  rw [listed, Act.bind_apply]
  obtain ⟨measured, found, s₂, came, tells⟩ | ⟨unmeasured, fault, s₂, came⟩ :=
    entries_cases (f := f) (fun path there => lists.stat path (noted there).1 (noted there).2)
      (fun path there => lists.tagged path (noted there).1 (noted there).2) inside₁
  · have many := congrArg List.length tells.paths
    rw [List.length_map] at many
    refine .inl ⟨measured, found, _, s₂, ?_, tells.paths, tells.describes,
      stablySorted_sortEntries _ _ found⟩
    rw [came, ← many, ← arranged_eq]
    rfl
  · exact .inr ⟨unmeasured, fault, s₂, by rw [came]⟩

/-- A vault with two notes of one name, and another one that is in no folder. -/
def catalogue : VaultProvider (List Called) :=
  { shelf [("x/b.md", ""), ("x/B.md", ""), ("y.md", "")] with
    times := fun path => noting (.times path) ⟨.ofInt 8000, .ofInt 8500⟩ }

/-- A node that lists the first of the notes in a folder. -/
def cataloguing (created : String) : Context (List Called) :=
  { node := { id := "l", kind := "note-list" }
    properties := [("folder", "x/"), ("recursive", "true"), ("sortBy", "name"), ("limit", "1"),
      ("saveTo", "v"), ("createdWithin", created)]
    scope := .empty
    providers := { (drafting "" none).providers with
      clock := { (drafting "" none).providers.clock with now := fun world => (.ofInt 9000, world) }
      vault := some catalogue } }

theorem lists_cataloguing (created : String) :
    Lists (cataloguing created) catalogue (fun _ => True) ["x/b.md", "x/B.md", "y.md"]
      (fun _ => ⟨.ofInt 8000, .ofInt 8500⟩) (fun _ => []) 1 where
  offered := rfl
  saves := by
    have named : (cataloguing created).property "saveTo" = "v" := rfl
    rw [Context.trimmed, named]
    decide
  limit := by
    have named : (cataloguing created).property "limit" = "1" := rfl
    have named' : (cataloguing "").property "limit" = "1" := rfl
    have blamed (message : String) :
        (cataloguing created).fault message = (cataloguing "").fault message := rfl
    have same : Visit.limit (cataloguing created) 50 = Visit.limit (cataloguing "") 50 := by
      simp only [Visit.limit, Context.number, Context.trimmed, named, named', blamed]
    rw [same]
    decide +kernel
  clock := fun _ _ => trivial
  listed := fun _ _ => ⟨rfl, trivial⟩
  stat := fun _ _ _ _ _ => ⟨rfl, trivial⟩
  tagged := fun _ _ _ _ _ => ⟨rfl, trivial⟩

theorem listNotes_pages_first :
    let c := cataloguing "2h"
    (Lists c catalogue (fun _ => True) ["x/b.md", "x/B.md", "y.md"]
        (fun _ => ⟨.ofInt 8000, .ofInt 8500⟩) (fun _ => []) 1 ∧
      Notes.Readable (c.property "createdWithin") ∧
      Notes.Readable (c.property "modifiedWithin")) ∧
      ∃ found sorted s', listNotes c fresh = (.ok (page c 1 2 sorted), s') ∧
        found.map (·.path) = ["x/b.md", "x/B.md"] ∧
        StablySorted (goesBefore "name" true) found sorted := by
  intro c
  have lists := lists_cataloguing "2h"
  have created : Notes.Readable (c.property "createdWithin") :=
    Notes.readable_of_plain (by decide) (by decide)
  have modified : Notes.Readable (c.property "modifiedWithin") :=
    Notes.readable_of_plain (by decide) (by decide)
  refine ⟨⟨lists, created, modified⟩, ?_⟩
  obtain ⟨f, asks, told⟩ := (listNotes_pages (s := fresh) lists trivial).2 created modified
  have wanted : f = ⟨"x/", true, [], false, .ofInt 9000, some 7200, none⟩ := by
    have tags : f.tags = [] := by
      refine List.eq_nil_iff_forall_not_mem.mpr fun t there => ?_
      obtain ⟨entry, among, -⟩ := (asks.tags t).mp there
      have none : Listing.items (c.property "tags") = [] := by decide
      rw [none] at among
      cases among
    have everyTag : f.everyTag = false :=
      Bool.eq_false_iff.mpr (asks.everyTag.not.mpr (by decide))
    have lasts : Notes.Lasts "2h" 7200 := by
      refine ⟨['2'], ['h'], 3600, ?_, by decide⟩
      exact ⟨by decide, by decide, ⟨[], [], by decide, rfl, .inl rfl⟩,
        ⟨"h", by decide, by decide⟩⟩
    have created : f.createdWithin = some 7200 := (asks.createdWithin 7200).mpr lasts
    have modified : f.modifiedWithin = none := by
      refine Option.eq_none_iff_forall_ne_some.mpr fun n same => ?_
      obtain ⟨digits, name, unit, age, -⟩ := (asks.modifiedWithin n).mp same
      exact age.some_digits (age.digits_eq.symm.trans (by decide))
    have folder : f.folder = "x/" := asks.folder.trans (by decide)
    have recursive : f.recursive = true := asks.recursive.trans (by decide)
    cases f
    cases folder
    cases recursive
    cases tags
    cases everyTag
    cases asks.now
    cases created
    cases modified
    rfl
  subst wanted
  have first : (["x/b.md", "x/B.md", "y.md"].filter Notes.isNote).filter (fun path =>
      Passes ⟨"x/", true, [], false, .ofInt 9000, some 7200, none⟩ ⟨.ofInt 8000, .ofInt 8500⟩ []
        path) = ["x/b.md", "x/B.md"] := by decide +kernel
  rw [first] at told
  obtain ⟨-, found, sorted, s', listed, passing, -, ordered⟩ | ⟨unmeasured, -⟩ := told
  · exact ⟨found, sorted, s', listed, passing, ordered⟩
  · refine absurd (fun path _ => ⟨fun _ => ?_, fun _ _ => nofun, fun _ => ?_⟩) unmeasured
    · rintro _ ⟨⟩
      decide
    · exact ⟨8000000, 8500000, by decide +kernel, by decide +kernel⟩

/-- An age with a unit that is one only without case keeps a list from being made. -/
theorem listNotes_refused :
    let c := cataloguing "5 mın"
    Lists c catalogue (fun _ => True) ["x/b.md", "x/B.md", "y.md"]
        (fun _ => ⟨.ofInt 8000, .ofInt 8500⟩) (fun _ => []) 1 ∧
      ∃ fault, listNotes c fresh = (.error (.fault fault), fresh) := by
  intro c
  have lists := lists_cataloguing "5 mın"
  have age : Notes.Age "5 mın" ['5'] ['m', 'ı', 'n'] 60 :=
    ⟨by decide, by decide, ⟨[' '], [], by decide, by decide, .inl rfl⟩,
      ⟨"min", by decide, by decide⟩⟩
  refine ⟨lists, lists.unreadable fun readable => ?_⟩
  exact (readable.1 age).2.1 (by decide)

end Runbook.Visit
