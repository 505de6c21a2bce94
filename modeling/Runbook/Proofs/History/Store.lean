import Runbook.Proofs.History.Document
import Runbook.Proofs.History.Saving

/-! A history as a mapping from ids to records.

Where only records of runs are saved, with contents that data text can hold, each id has one file in
the folder, and the file reads as the redacted record. `Keeps` says so of a folder and a mapping. It
holds of an empty folder, and each operation is the one on the mapping (`Keeps.find`, `Keeps.load`,
`Keeps.list`, `Keeps.save`, `Keeps.delete`, `Keeps.clear`). -/
namespace Runbook.History

/-! ### Ids and records of runs -/

/-- An id as runs get it: 32 hexadecimal digits in small letters. -/
structure IsUuid (id : String) : Prop where
  length : id.toList.length = 32
  digits : ∀ c ∈ id.toList, '0' ≤ c ∧ c ≤ '9' ∨ 'a' ≤ c ∧ c ≤ 'f'

theorem IsUuid.isId {id : String} (uuid : IsUuid id) : IsId id := by
  have other {d : Char} (outside : ¬ ('0' ≤ d ∧ d ≤ '9' ∨ 'a' ≤ d ∧ d ≤ 'f')) :
      ∀ c ∈ id.toList, c ≠ d := by
    rintro c there rfl
    exact outside (uuid.digits c there)
  exact ⟨fun there => other (by decide) _ there rfl, fun c there =>
    ⟨other (by decide) c there, other (by decide) c there, other (by decide) c there⟩⟩

/-- A record of a run, with contents that data text can hold. -/
structure Savable (r : Record) : Prop where
  id : IsUuid r.id
  /-- A point in time has digits, letters, hyphens, colons, a dot and a plus sign. -/
  time : '/' ∉ r.startTime.toList
  legible : ∃ depth, Json.Legible depth (recordValue r)

/-! ### The content of a file -/

/-- What is written for a record. -/
def contentOf (r : Record) : List UInt8 :=
  Text.encode (String.ofList (written (Redaction.redact (recordValue r))).text)

/-- The record that a content describes. -/
def recordIn (content : List UInt8) : Except Fault Record := do
  let v ← Json.parse (← FileTree.textOf content)
  match recordOfValue? v with
  | some r => return r
  | none => throw .badRecord

variable {h : History} {r : Record}

theorem recordIn_eq {content : List UInt8} {text : String} {v : Value}
    (decodes : FileTree.textOf content = .ok text) (reads : Json.parse text = .ok v)
    (describes : recordOfValue? v = some r) : recordIn content = .ok r := by
  unfold recordIn
  simp only [decodes, reads, bind, Except.bind, describes]
  rfl

theorem legible_redacted (legible : ∃ depth, Json.Legible depth (recordValue r))
    (fits : Redaction.fits Redaction.depthLimit (recordValue r) = true) :
    Json.Legible Json.depthLimit (Redaction.redact (recordValue r)) := by
  obtain ⟨depth, legible⟩ := legible
  exact (Redaction.legible_value (Redaction.legible_of_fits legible fits)).mono (by decide)

/-- What is written for a record reads as that record, redacted. -/
theorem recordIn_contentOf (legible : ∃ depth, Json.Legible depth (recordValue r))
    (fits : Redaction.fits Redaction.depthLimit (recordValue r) = true) :
    (written (Redaction.redact (recordValue r))).refused = none ∧
      recordIn (contentOf r) = .ok r.redacted := by
  have legible := legible_redacted legible fits
  have whole := (Json.write_refused Json.pretty 0 _).mpr legible.writable
  have rendered : Json.render Json.pretty (Redaction.redact (recordValue r)) =
      .ok (String.ofList (written (Redaction.redact (recordValue r))).text) := by
    simp only [Json.render, whole, written]
  exact ⟨whole, recordIn_eq (textOf_written _)
    (Json.parse_of_legible pretty_mem_layouts legible rendered) (recordOfValue?_redact r)⟩

/-! ### A folder and a mapping -/

/-- What a history holds of a run: the name of its file, and the record that was saved. -/
structure Kept where
  name : String
  record : Record

/-- The file of a run as it stands in the folder. -/
def itemOf (x : String × Kept) : List String × FileTree.Item :=
  ([x.2.name], .file (contentOf x.2.record))

/-- What is known of an id and what is held of its run. -/
structure Sound (x : String × Kept) : Prop where
  id : IsUuid x.1
  own : x.2.record.id = x.1
  savable : Savable x.2.record
  fits : Redaction.fits Redaction.depthLimit (recordValue x.2.record) = true
  name : Path.IsName x.2.name
  ends : ending x.1 <:+ x.2.name.toList

/-- The folder has the files of a mapping from ids, and nothing else. -/
structure Keeps (h : History) (s : List (String × Kept)) : Prop where
  free : h.tree.Free h.folder
  stands : s ≠ [] → h.tree.isFolder h.folder = true
  inside : h.tree.below h.folder = s.map itemOf
  distinct : (Entries.keys s).Nodup
  sound : ∀ x ∈ s, Sound x

variable {s : List (String × Kept)} {id : String}

/-- A name tells the id: all ids are equally long. -/
theorem Sound.id_eq {x : String × Kept} (sound : Sound x) (uuid : IsUuid id)
    (ends : ending id <:+ x.2.name.toList) : x.1 = id := by
  have long (i : String) (uuid : IsUuid i) : (ending i).length = 38 := by
    simp [ending, uuid.length]
  have same : ending x.1 = ending id := by
    have within := List.suffix_of_suffix_length_le sound.ends ends
      (by rw [long _ sound.id, long _ uuid])
    exact within.eq_of_length (by rw [long _ sound.id, long _ uuid])
  have chars : x.1.toList = id.toList := List.append_cancel_right (List.cons.inj same).2
  exact String.toList_injective chars

/-- The entries that a change under a name takes are those that it takes under the id. -/
def Agree (s : List (String × Kept)) (name id : String) : Prop :=
  ∀ x ∈ s, x.2.name = name ↔ x.1 = id

theorem insert_itemOf {name : String} (agree : Agree s name id) (r : Record) :
    Entries.insert [name] (.file (contentOf r)) (s.map itemOf) =
      (Entries.insert id ⟨name, r⟩ s).map itemOf := by
  induction s with
  | nil => rfl
  | cons x rest ih =>
    obtain ⟨here, behind⟩ := List.forall_mem_cons.mp agree
    rw [List.map_cons, Entries.insert, Entries.insert]
    by_cases same : x.1 = id
    · have named : [x.2.name] = [name] := congrArg (· :: []) (here.mpr same)
      rw [if_pos (by simpa [itemOf] using here.mpr same), if_pos (beq_iff_eq.mpr same)]
      show ([x.2.name], _) :: _ = _
      rw [named]
      rfl
    · rw [if_neg (by simpa [itemOf] using mt here.mp same), if_neg (by simpa using same), ih behind]
      rfl

theorem erase_itemOf {name : String} (agree : Agree s name id) :
    Entries.erase [name] (s.map itemOf) = (Entries.erase id s).map itemOf := by
  induction s with
  | nil => rfl
  | cons x rest ih =>
    obtain ⟨here, behind⟩ := List.forall_mem_cons.mp agree
    rw [List.map_cons, Entries.erase, Entries.erase]
    by_cases same : x.1 = id
    · rw [if_pos (by simpa [itemOf] using here.mpr same), if_pos (beq_iff_eq.mpr same)]
    · rw [if_neg (by simpa [itemOf] using mt here.mp same), if_neg (by simpa using same), ih behind]
      rfl

namespace Keeps
variable (keeps : Keeps h s)
include keeps

theorem proper : h.Proper := by
  intro n there
  rw [keeps.inside] at there
  obtain ⟨e, there, same⟩ := List.mem_map.mp there
  obtain ⟨x, kept, rfl⟩ := List.mem_map.mp there
  have name : x.2.name = n := (List.cons.inj same).1
  exact name ▸ (keeps.sound x kept).name

/-! ### Names -/

theorem names_eq (pattern : String) : h.names pattern =
    (s.filter fun x => Glob.isMatch pattern x.2.name).map (·.2.name) := by
  unfold names
  rw [keeps.inside, List.filterMap_map]
  clear keeps
  induction s with
  | nil => rfl
  | cons x rest ih =>
    rw [List.filterMap_cons, List.filter_cons, ih]
    by_cases takes : Glob.isMatch pattern x.2.name = true <;> simp [itemOf, takes]

theorem names_isRecord : h.names isRecord = s.map (·.2.name) := by
  rw [keeps.names_eq, List.filter_eq_self.mpr]
  exact fun x there => isMatch_isRecord.mpr ((suffix_ending x.1).trans (keeps.sound x there).ends)

theorem names_id (uuid : IsUuid id) : h.names ("*_" ++ id ++ ".json") =
    ((Entries.get? id s).map (·.name)).toList := by
  have same : s.filter (fun x => Glob.isMatch ("*_" ++ id ++ ".json") x.2.name) =
      s.filter (·.1 == id) := by
    refine List.filter_congr fun x there => ?_
    rw [Bool.eq_iff_iff, isMatch_ending uuid.isId, beq_iff_eq]
    refine ⟨(keeps.sound x there).id_eq uuid, ?_⟩
    rintro rfl
    exact (keeps.sound x there).ends
  rw [keeps.names_eq, same, Entries.filter_key keeps.distinct]
  cases Entries.get? id s <;> rfl

/-- A search finds the file of the run, if there is one. -/
theorem find_eq (uuid : IsUuid id) : h.find id = .ok ((Entries.get? id s).map (·.name)) := by
  by_cases stands : h.tree.isFolder h.folder = true
  · rw [find_id uuid.isId stands, keeps.names_id uuid]
    cases Entries.get? id s with
    | none => exact congrArg Except.ok (first_eq_none.mpr rfl)
    | some k => exact congrArg Except.ok (first_eq_some.mpr ⟨List.mem_singleton_self _, by simp⟩)
  · have none : s = [] := Classical.byContradiction fun some => stands (keeps.stands some)
    rw [none, find, Bool.eq_false_iff.mpr stands]
    rfl

/-! ### Reading -/

theorem names_distinct : (Entries.keys (s.map itemOf)).Nodup := by
  have values : s.Nodup := keeps.distinct.of_map
  rw [Entries.keys, List.map_map]
  refine values.map_on fun x there y there' same => ?_
  have name : x.2.name = y.2.name := (List.cons.inj same).1
  have id : x.1 = y.1 := (keeps.sound x there).id_eq (keeps.sound y there').id
    (name ▸ (keeps.sound y there').ends)
  have found := Entries.get?_of_mem keeps.distinct there
  rw [id, Entries.get?_of_mem keeps.distinct there'] at found
  exact Prod.ext id (Option.some.inj found).symm

theorem item?_eq {x : String × Kept} (there : x ∈ s) :
    h.tree.item? (h.folder ++ [x.2.name]) = some (.file (contentOf x.2.record)) := by
  rw [← FileTree.get?_below h.tree h.folder (List.cons_ne_nil _ []), keeps.inside]
  exact Entries.get?_of_mem keeps.names_distinct (List.mem_map_of_mem there)

/-- Each file reads as its record, redacted. -/
theorem readRecord_eq {x : String × Kept} (there : x ∈ s) :
    h.readRecord x.2.name = .ok x.2.record.redacted := by
  have sound := keeps.sound x there
  have read := FileTree.read_eq_ok.mpr (keeps.item?_eq there)
  rw [readRecord, placeOf_name sound.name, read]
  exact (recordIn_contentOf sound.savable.legible sound.fits).2

/-- The record of a run is loaded redacted, if there is one. -/
theorem load_eq (uuid : IsUuid id) :
    h.load id = .ok ((Entries.get? id s).map (·.record.redacted)) := by
  rw [load, keeps.find_eq uuid]
  cases found : Entries.get? id s with
  | none => rfl
  | some k =>
    have read := keeps.readRecord_eq (Entries.mem_of_get? found)
    show (do return some (← h.readRecord k.name)) = _
    rw [read]
    rfl

/-! ### Listing -/

/-- The records of runs, those of one workflow file if there is a path, the newest first. -/
theorem list_eq (path : Option String) :
    ∃ rs, h.list path = .ok rs ∧
      rs.Perm ((s.map (·.2.record.redacted)).filter
        fun r => path.all fun p => r.workflowPath == some p) ∧
      rs.Pairwise fun a b => b.startTime ≤ a.startTime := by
  have read : (h.names isRecord).mapM h.readRecord = .ok (s.map (·.2.record.redacted)) := by
    rw [keeps.names_isRecord]
    exact mapM_map_eq_ok fun x there => keeps.readRecord_eq there
  have trans (a b c : Record) (ab : decide (b.startTime ≤ a.startTime) = true)
      (bc : decide (c.startTime ≤ b.startTime) = true) :
      decide (c.startTime ≤ a.startTime) = true :=
    decide_eq_true (String.le_trans (of_decide_eq_true bc) (of_decide_eq_true ab))
  have total (a b : Record) :
      (decide (b.startTime ≤ a.startTime) || decide (a.startTime ≤ b.startTime)) = true := by
    simp [String.le_total]
  have sorted (rs : List Record) :
      (rs.mergeSort fun a b => decide (b.startTime ≤ a.startTime)).Pairwise
        fun a b => b.startTime ≤ a.startTime :=
    (List.pairwise_mergeSort trans total rs).imp of_decide_eq_true
  rw [list, read]
  cases path with
  | none =>
    have all : (s.map (·.2.record.redacted)).filter (fun _ => true) = s.map (·.2.record.redacted) :=
      List.filter_eq_self.mpr fun _ _ => rfl
    exact ⟨_, rfl, (List.mergeSort_perm _ _).trans (.of_eq all.symm), sorted _⟩
  | some p => exact ⟨_, rfl, List.mergeSort_perm _ _, sorted _⟩

/-! ### Changing -/

/-- The name of the file of a run agrees with its id. -/
theorem agree {k : Kept} (found : Entries.get? id s = some k) : Agree s k.name id := by
  have kept := keeps.sound _ (Entries.mem_of_get? found)
  refine fun x there => ⟨fun name => ?_, ?_⟩
  · exact (keeps.sound x there).id_eq kept.id (name ▸ kept.ends)
  · rintro rfl
    rw [Entries.get?_of_mem keeps.distinct there, Option.some.injEq] at found
    rw [found]

/-- A name for a new run agrees with its id: no other file has it. -/
theorem agree_new {name : String} (uuid : IsUuid id) (ends : ending id <:+ name.toList)
    (new : Entries.get? id s = none) : Agree s name id := by
  refine fun x there => ⟨?_, ?_⟩
  · rintro rfl
    exact (keeps.sound x there).id_eq uuid ends
  · rintro rfl
    cases (Entries.get?_of_mem keeps.distinct there).symm.trans new

theorem wrote {name : String} (stands : h.tree.isFolder h.folder = true) (agree : Agree s name r.id)
    (sound : Sound (r.id, ⟨name, r⟩)) :
    Keeps (h.wrote name (contentOf r)) (Entries.insert r.id ⟨name, r⟩ s) where
  free := keeps.free.congr fun _ around =>
    FileTree.item?_insert_of_ne _ (FileTree.ne_of_around around name)
  stands _ := stands_wrote stands
  inside := by
    show (h.wrote name (contentOf r)).tree.below h.folder = _
    rw [below_wrote, keeps.inside, insert_itemOf agree]
  distinct := Entries.keys_nodup_insert keeps.distinct
  sound x there := by
    rcases Entries.mem_insert there with rfl | before
    · exact sound
    · exact keeps.sound x before

theorem remove {k : Kept} (found : Entries.get? id s = some k) :
    ∃ t, h.tree.remove (h.placeOf k.name) = .ok t ∧
      Keeps { h with tree := t } (Entries.erase id s) := by
  have there := Entries.mem_of_get? found
  have sound := keeps.sound _ there
  have stands := keeps.stands (List.ne_nil_of_mem there)
  refine ⟨⟨Entries.erase (h.folder ++ [k.name]) h.tree.items⟩, ?_, ?_, ?_, ?_, ?_, ?_⟩
  · rw [placeOf_name sound.name]
    exact FileTree.remove_file (keeps.item?_eq there)
  · exact keeps.free.congr fun _ around =>
      FileTree.item?_erase_of_ne (FileTree.ne_of_around around k.name)
  · intro _
    rw [FileTree.isFolder_iff] at stands ⊢
    rw [← stands]
    exact FileTree.item?_erase_of_ne (FileTree.ne_of_around List.prefix_rfl k.name)
  · show FileTree.below ⟨Entries.erase (h.folder ++ [k.name]) h.tree.items⟩ h.folder = _
    rw [FileTree.below_remove (List.cons_ne_nil _ []), keeps.inside,
      erase_itemOf (keeps.agree found)]
  · exact keeps.distinct.sublist (Entries.keys_erase_sublist id s)
  · exact fun x before => keeps.sound x (Entries.mem_of_mem_erase before)

/-- Removing a run tells whether there was one, and removes only that. -/
theorem delete_eq (uuid : IsUuid id) :
    ∃ h', h.delete id = .ok (Entries.has id s, h') ∧ Keeps h' (Entries.erase id s) := by
  rw [delete, keeps.find_eq uuid, Entries.has]
  cases found : Entries.get? id s with
  | none =>
    rw [Entries.erase_of_not_mem (Entries.get?_eq_none.mp found)]
    exact ⟨h, rfl, keeps⟩
  | some k =>
    obtain ⟨t, removes, keeps'⟩ := keeps.remove found
    refine ⟨_, ?_, keeps'⟩
    show (FileTree.failing k.name (h.tree.remove (h.placeOf k.name)) >>= _) = _
    rw [removes]
    rfl

end Keeps

/-- Removing the files one after the other comes to an end with none left. -/
theorem Keeps.removeAll (keeps : Keeps h s) :
    ∃ t, (s.map (·.2.name)).foldlM (fun t name =>
        FileTree.failing name (t.remove (h.placeOf name))) h.tree = .ok t ∧
      Keeps { h with tree := t } [] := by
  induction s generalizing h with
  | nil => exact ⟨h.tree, rfl, keeps⟩
  | cons x rest ih =>
    have found : Entries.get? x.1 (x :: rest) = some x.2 :=
      Entries.get?_of_mem keeps.distinct (List.mem_cons_self ..)
    have gone : Entries.erase x.1 (x :: rest) = rest := by
      rw [Entries.erase, if_pos (beq_self_eq_true _)]
    obtain ⟨t, removes, keeps'⟩ := keeps.remove found
    rw [gone] at keeps'
    obtain ⟨t', others, empty⟩ := ih keeps'
    refine ⟨t', ?_, empty⟩
    rw [List.map_cons, List.foldlM_cons, removes]
    exact others

theorem Keeps.clear_eq (keeps : Keeps h s) :
    ∃ h', h.clear = .ok (s.length, h') ∧ Keeps h' [] := by
  obtain ⟨t, removes, empty⟩ := keeps.removeAll
  refine ⟨_, ?_, empty⟩
  rw [clear, keeps.names_isRecord]
  simp only [removes, bind, Except.bind, List.length_map]
  rfl

/-! ### Saving -/

theorem Keeps.makeFolders (keeps : Keeps h s) :
    ∃ t, h.tree.makeFolders h.folder = .ok t ∧ t.isFolder h.folder = true ∧
      Keeps { h with tree := t } s := by
  have makes := FileTree.makeFolders_eq keeps.free
  have made := FileTree.makes_of_makeFolders makes
  exact ⟨_, makes, made.stands, made.free keeps.free, fun _ => made.stands,
    made.inside.trans keeps.inside, keeps.distinct, keeps.sound⟩

/-- The file of a run is written in its place, or as a new one. -/
theorem Keeps.write (keeps : Keeps h s) (stands : h.tree.isFolder h.folder = true)
    (savable : Savable r) (fits : Redaction.fits Redaction.depthLimit (recordValue r) = true) :
    ∃ name, name = ((Entries.get? r.id s).map (·.name)).getD (fileName r) ∧
      h.tree.write (h.placeOf name) (contentOf r) = .ok (h.wrote name (contentOf r)).tree ∧
      Keeps (h.wrote name (contentOf r)) (Entries.insert r.id ⟨name, r⟩ s) := by
  refine ⟨_, rfl, ?_⟩
  cases found : Entries.get? r.id s with
  | some k =>
    have there := Entries.mem_of_get? found
    have sound := keeps.sound _ there
    refine ⟨?_, keeps.wrote stands (keeps.agree found)
      ⟨savable.id, rfl, savable, fits, sound.name, sound.ends⟩⟩
    show h.tree.write (h.placeOf k.name) _ = _
    rw [placeOf_name sound.name]
    exact FileTree.write_over (keeps.item?_eq there)
  | none =>
    have name := isName_fileName savable.id.isId savable.time
    have ends : ending r.id <:+ (fileName r).toList := by
      rw [fileName_toList]
      exact List.suffix_append _ _
    have agree := keeps.agree_new savable.id ends found
    refine ⟨?_, keeps.wrote stands agree ⟨savable.id, rfl, savable, fits, name, ends⟩⟩
    show h.tree.write (h.placeOf (fileName r)) _ = _
    rw [placeOf_name name]
    refine FileTree.write_new keeps.free stands ?_
    rw [← FileTree.get?_below h.tree h.folder (List.cons_ne_nil _ []), keeps.inside,
      Entries.get?_eq_none]
    intro there
    obtain ⟨e, there, same⟩ := List.mem_map.mp there
    obtain ⟨x, kept, rfl⟩ := List.mem_map.mp there
    have id := (agree x kept).mp (List.cons.inj same).1
    cases (id ▸ Entries.get?_of_mem keeps.distinct kept).symm.trans found

/-- A record that can be redacted takes the place of the one of its run; the answer is the name of
its file. -/
theorem Keeps.save_eq (keeps : Keeps h s) (savable : Savable r)
    (fits : Redaction.fits Redaction.depthLimit (recordValue r) = true) :
    ∃ name h', h.save r = (.ok name, h') ∧ Keeps h' (Entries.insert r.id ⟨name, r⟩ s) := by
  obtain ⟨t, makes, stands, keeps'⟩ := keeps.makeFolders
  obtain ⟨name, own, writes, written⟩ := keeps'.write stands savable fits
  have sound := written.sound _ (Entries.mem_of_get? (Entries.get?_insert_self r.id ⟨name, r⟩ s))
  have answer : (Path.ofText name).name = name := by
    rw [Path.ofText_name sound.name]
    rfl
  have redacts : Redaction.kept (recordValue r) = .ok (Redaction.redact (recordValue r)) :=
    if_pos fits
  have whole := (recordIn_contentOf savable.legible fits).1
  refine ⟨name, _, ?_, written⟩
  unfold save
  rw [makes]
  simp only [keeps'.find_eq savable.id, redacts, ← own]
  rw [contentOf] at writes ⊢
  rw [writes]
  simp only [whole, answer]
  rfl

/-- A record that is nested too deeply is refused, and changes nothing. -/
theorem Keeps.save_tooDeep (keeps : Keeps h s) (savable : Savable r)
    (deep : Redaction.fits Redaction.depthLimit (recordValue r) = false) :
    ∃ h', h.save r = (.error .tooDeep, h') ∧ Keeps h' s := by
  obtain ⟨t, makes, -, keeps'⟩ := keeps.makeFolders
  have refuses : Redaction.kept (recordValue r) = .error .tooDeep :=
    if_neg (by rw [deep]; exact Bool.false_ne_true)
  refine ⟨_, ?_, keeps'⟩
  unfold save
  rw [makes]
  simp only [keeps'.find_eq savable.id, refuses]

/-- An empty folder keeps nothing, whether it stands already or not. -/
theorem keeps_empty (free : h.tree.Free h.folder) (empty : h.tree.below h.folder = []) :
    Keeps h [] :=
  ⟨free, fun some => absurd rfl some, empty, List.nodup_nil, List.forall_mem_nil _⟩

end Runbook.History
