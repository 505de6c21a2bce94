import Runbook.Proofs.History.Folder
import Runbook.Proofs.Json.Unfinished
import Runbook.Proofs.Text.Encoding

/-! What a save that fails leaves behind.

A save that fails before its file is opened changes nothing that the history shows. One that fails
while the text is written leaves an unfinished file under a name of the history, in place of the
record of that run or as a new one. Such a file does not read: from then on no list is given and
that run is not loaded, while the runs that have other files are loaded as before. -/
namespace Runbook.History
variable {h h' : History} {r : Record} {f : Fault} {n : String}

/-! ### Histories that show the same -/

/-- A folder with the same content. -/
structure Alike (h h' : History) : Prop where
  folder : h'.folder = h.folder
  stands : h.tree.isFolder h.folder = true
  stands' : h'.tree.isFolder h.folder = true
  inside : h'.tree.below h.folder = h.tree.below h.folder

theorem readRecord_congr (folder : h'.folder = h.folder) (name : Path.IsName n)
    {i : FileTree.Item} (found : h.tree.item? (h.folder ++ [n]) = some i)
    (found' : h'.tree.item? (h.folder ++ [n]) = some i) : h'.readRecord n = h.readRecord n := by
  have read : h'.tree.read (h'.placeOf n) = h.tree.read (h.placeOf n) := by
    rw [placeOf_name name, placeOf_name name, folder, FileTree.read, FileTree.read, FileTree.find,
      FileTree.find, found, found']
  rw [readRecord, readRecord, read]

theorem exists_item? (there : [n] ∈ Entries.keys (h.tree.below h.folder)) :
    ∃ i, h.tree.item? (h.folder ++ [n]) = some i := by
  rw [← FileTree.get?_below h.tree h.folder (List.cons_ne_nil n [])]
  cases found : Entries.get? [n] (h.tree.below h.folder) with
  | some i => exact ⟨i, rfl⟩
  | none => exact absurd there (Entries.get?_eq_none.mp found)

namespace Alike
variable (alike : Alike h h') (proper : h.Proper)
include alike

theorem names (pattern : String) : h'.names pattern = h.names pattern := by
  unfold History.names
  rw [alike.folder, alike.inside]

theorem find (id : String) : h'.find id = h.find id := by
  have stands' := alike.folder ▸ alike.stands'
  obtain refused | none | ⟨pattern, finds⟩ := find_by_pattern id
  · rw [refused h alike.stands, refused h' stands']
  · rw [none h alike.stands, none h' stands']
  · rw [finds h alike.stands, finds h' stands', alike.names]

include proper

theorem readRecord (there : [n] ∈ Entries.keys (h.tree.below h.folder)) :
    h'.readRecord n = h.readRecord n := by
  obtain ⟨i, found⟩ := exists_item? there
  refine readRecord_congr alike.folder (proper _ there) found ?_
  rw [← FileTree.get?_below h'.tree h.folder (List.cons_ne_nil n []), alike.inside,
    FileTree.get?_below h.tree h.folder (List.cons_ne_nil n []), found]

theorem list (path : Option String) : h'.list path = h.list path := by
  have same : (h'.names isRecord).mapM h'.readRecord = (h.names isRecord).mapM h.readRecord := by
    rw [alike.names]
    exact mapM_congr fun n there => alike.readRecord proper (mem_names.mp there).1
  rw [History.list, History.list, same]

theorem load (id : String) : h'.load id = h.load id := by
  rw [History.load, History.load, alike.find]
  cases found : h.find id with
  | error f => rfl
  | ok name =>
    cases name with
    | none => rfl
    | some n =>
      have read := alike.readRecord proper (mem_of_find alike.stands found)
      show (do return some (← h'.readRecord n)) = (do return some (← h.readRecord n))
      rw [read]

end Alike

theorem alike_of_makeFolders {t : FileTree} (stands : h.tree.isFolder h.folder = true)
    (makes : h.tree.makeFolders h.folder = .ok t) : Alike h { h with tree := t } :=
  have made := FileTree.makes_of_makeFolders makes
  ⟨rfl, stands, made.stands, made.inside⟩

/-! ### How a save fails -/

/-- The failures of writing a value as data text. -/
def IsUnwritable (f : Fault) : Prop := f = .wrongType ∨ f = .badValue Json.lengthMessage

/-- The place and the failure at which a save ends: before there is a folder, in front of an open
file, or behind one, with what was written so far in it. -/
inductive Fails (h : History) (r : Record) : Fault → History → Prop
  | unmade {f : Fault} (other : ¬ IsUnwritable f) : Fails h r f h
  | unopened {f : Fault} {t : FileTree} (makes : h.tree.makeFolders h.folder = .ok t)
    (other : ¬ IsUnwritable f) : Fails h r f { h with tree := t }
  | unfinished {f : Fault} {t t' : FileTree} {found : Option String} {v : Value}
    (makes : h.tree.makeFolders h.folder = .ok t)
    (finds : ({ h with tree := t } : History).find r.id = .ok found)
    (stops : (written v).refused = some f)
    (writes : t.write (h.placeOf (found.getD (fileName r)))
      (Text.encode (String.ofList (written v).text)) = .ok t') : Fails h r f { h with tree := t' }

theorem fails_of_save (failed : (h.save r).1 = .error f) : Fails h r f (h.save r).2 := by
  have file (fault : FileFault) (message : String) : ¬ IsUnwritable (.file fault message) := nofun
  unfold save at failed ⊢
  cases makes : h.tree.makeFolders h.folder with
  | error fault =>
    rw [makes] at failed
    cases failed
    exact .unmade (file _ _)
  | ok t =>
    simp only [makes] at failed ⊢
    have stands := (FileTree.makes_of_makeFolders makes).stands
    cases finds : ({ h with tree := t } : History).find r.id with
    | error fault =>
      rw [finds] at failed
      cases failed
      cases find_eq_error (h := { h with tree := t }) stands finds
      refine .unopened makes ?_
      rintro (same | same)
      · cases same
      · revert same
        decide
    | ok found =>
      simp only [finds] at failed ⊢
      cases keeps : Redaction.kept (recordValue r) with
      | error fault =>
        rw [keeps] at failed
        cases failed
        refine .unopened makes ?_
        unfold Redaction.kept at keeps
        split at keeps <;> cases keeps
        exact nofun
      | ok v =>
        simp only [keeps] at failed ⊢
        split at failed
        · cases failed
          exact .unopened makes (file _ _)
        · rename_i t' writes
          dsimp only at failed
          split at failed
          · cases failed
          · rename_i stops
            cases failed
            exact .unfinished makes finds stops writes

/-! ### Behind a save that stopped -/

section Unfinished
variable {t t' : FileTree} {v : Value}

theorem pretty_mem_layouts : Json.pretty ∈ Json.layouts := by simp [Json.layouts]

/-- What is written for a value is read as it stands, whether it is whole or not. -/
theorem textOf_written (v : Value) :
    FileTree.textOf (Text.encode (String.ofList (written v).text)) =
      .ok (String.ofList (written v).text) := by
  have noReturn : '\r' ∉ (written v).text := fun there =>
    Json.Written.NoReturn.write pretty_mem_layouts 0 v _ there rfl
  rw [FileTree.textOf, Text.decode?_encode]
  simp only [String.toList_ofList, Text.linefeeds_eq_self noReturn]

/-- A text that could not be written to its end is no record. -/
theorem readRecord_unfinished (name : Path.IsName n) (stops : (written v).refused ≠ none)
    (content : h.tree.item? (h.folder ++ [n]) =
      some (.file (Text.encode (String.ofList (written v).text)))) :
    ∃ g, h.readRecord n = .error g := by
  obtain ⟨g, failed⟩ := Json.parse_unfinished pretty_mem_layouts stops
  refine ⟨g, ?_⟩
  rw [readRecord, placeOf_name name, FileTree.read_eq_ok.mpr content]
  show (FileTree.textOf _ >>= _) = _
  rw [textOf_written]
  show (Json.parse _ >>= _) = _
  rw [show Json.parse (String.ofList (written v).text) = .error g from failed]
  rfl

/-- Where a file has no record in it and counts as one, there is no list. -/
theorem list_error {g : Fault} (listed : n ∈ h.names isRecord) (failed : h.readRecord n = .error g)
    (path : Option String) : ∃ g, h.list path = .error g := by
  obtain ⟨g, failed⟩ := exists_mapM_eq_error listed failed
  exact ⟨g, by rw [list, failed]; rfl⟩

theorem load_error {id : String} {g : Fault} (found : h.find id = .ok (some n))
    (failed : h.readRecord n = .error g) : h.load id = .error g := by
  rw [load, found]
  show (h.readRecord n >>= _) = _
  rw [failed]
  rfl

/-- Where one file was written, the runs that have other files are loaded as before. -/
theorem load_wrote {content : List UInt8} (stands : h.tree.isFolder h.folder = true)
    (proper : h.Proper) (id : String) :
    (h.wrote n content).find id = .ok (some n) ∨ (h.wrote n content).load id = h.load id := by
  have finds : (h.wrote n content).find id = h.find id ∨ _ := find_wrote stands id
  rcases finds with same | new
  rotate_left
  · exact .inl new
  rw [load, load, same]
  cases found : h.find id with
  | error f => exact .inr rfl
  | ok name =>
    cases name with
    | none => exact .inr rfl
    | some m =>
      by_cases other : m = n
      · exact .inl (by rw [other])
      · have there := mem_of_find stands found
        obtain ⟨i, item⟩ := exists_item? there
        have read : (h.wrote n content).readRecord m = h.readRecord m :=
          readRecord_congr rfl (proper _ there) item
            ((item?_wrote_of_ne other).trans item)
        right
        show (do return some (← (h.wrote n content).readRecord m)) =
          (do return some (← h.readRecord m))
        rw [read]

/-- Where the name is that of the run, the file is found by its id. -/
theorem find_wrote_id {content : List UInt8} (stands : h.tree.isFolder h.folder = true)
    (id : IsId r.id) {found : Option String} (finds : h.find r.id = .ok found)
    (name : n = found.getD (fileName r)) :
    (h.wrote n content).find r.id = .ok (some n) ∧ ending r.id <:+ n.toList := by
  have stands' : (h.wrote n content).tree.isFolder h.folder = true := stands_wrote stands
  rw [find_id id stands, Except.ok.injEq] at finds
  rw [find_id id stands', Except.ok.injEq]
  cases found with
  | some m =>
    subst name
    obtain ⟨there, least⟩ := first_eq_some.mp finds
    have takes := (mem_names.mp there).2
    refine ⟨first_eq_some.mpr ⟨mem_names_wrote.mpr (.inl there), fun k inside => ?_⟩,
      (isMatch_ending id).mp takes⟩
    rcases mem_names_wrote.mp inside with before | ⟨rfl, -⟩
    · exact least k before
    · exact String.le_refl _
  | none =>
    subst name
    have fits : ending r.id <:+ (fileName r).toList := by
      rw [fileName_toList]
      exact List.suffix_append _ _
    refine ⟨first_eq_some.mpr ⟨mem_names_wrote.mpr (.inr ⟨rfl, (isMatch_ending id).mpr fits⟩),
      fun k inside => ?_⟩, fits⟩
    rcases mem_names_wrote.mp inside with before | ⟨rfl, -⟩
    · rw [first_eq_none.mp finds] at before
      cases before
    · exact String.le_refl _

/-- Behind an unfinished file of a run no list is given, and that run is not loaded. -/
theorem shows_unfinished {content : List UInt8} (stands : h.tree.isFolder h.folder = true)
    (id : IsId r.id) {found : Option String} (finds : h.find r.id = .ok found)
    (name : Path.IsName n) (own : n = found.getD (fileName r)) {v : Value}
    (stops : (written v).refused ≠ none)
    (text : content = Text.encode (String.ofList (written v).text)) :
    (∀ path, ∃ g, (h.wrote n content).list path = .error g) ∧
      (∃ g, (h.wrote n content).load r.id = .error g) ∧
      (h.wrote n content).find r.id = .ok (some n) := by
  obtain ⟨found', ends⟩ : (h.wrote n content).find r.id = .ok (some n) ∧ _ :=
    find_wrote_id stands id finds own
  obtain ⟨g, unread⟩ := readRecord_unfinished (h := h.wrote n content) name stops
    (text ▸ item?_wrote_self)
  have listed : n ∈ (h.wrote n content).names isRecord := mem_names_wrote.mpr
    (.inr ⟨rfl, isMatch_isRecord.mpr ((suffix_ending r.id).trans ends)⟩)
  exact ⟨list_error listed unread, ⟨g, load_error found' unread⟩, found'⟩

end Unfinished

/-! ### What a failed save damages -/

/-- A save that fails shows in nothing, unless it fails because its record cannot be written as data
text. Then the file of its run is left unfinished: no list is given, the run is not loaded, and the
runs that have other files are loaded as before. -/
theorem save_fails (stands : h.tree.isFolder h.folder = true) (proper : h.Proper)
    (failed : (h.save r).1 = .error f) :
    (¬ IsUnwritable f → ∀ path id,
      (h.save r).2.list path = h.list path ∧ (h.save r).2.load id = h.load id) ∧
    (IsUnwritable f → IsId r.id → '/' ∉ r.startTime.toList →
      (∀ path, ∃ g, (h.save r).2.list path = .error g) ∧
      (∃ g, (h.save r).2.load r.id = .error g) ∧
      ∀ id, (h.save r).2.find id = (h.save r).2.find r.id ∨ (h.save r).2.load id = h.load id) := by
  have fails := fails_of_save failed
  generalize (h.save r).2 = h' at fails ⊢
  cases fails with
  | unmade other => exact ⟨fun _ _ _ => ⟨rfl, rfl⟩, fun unwritable => absurd unwritable other⟩
  | unopened makes other =>
    have alike := alike_of_makeFolders stands makes
    exact ⟨fun _ path id => ⟨alike.list proper path, alike.load proper id⟩,
      fun unwritable => absurd unwritable other⟩
  | @unfinished t t' found v makes finds stops writes =>
    refine ⟨fun other => absurd (Json.Written.Sound.write Json.pretty 0 v f stops) other,
      fun _ id time => ?_⟩
    have alike := alike_of_makeFolders stands makes
    have proper' : ({ h with tree := t } : History).Proper := fun n there => proper n (by
      rw [← alike.inside]
      exact there)
    obtain ⟨n, same⟩ : ∃ n, n = found.getD (fileName r) := ⟨_, rfl⟩
    have name : Path.IsName n := by
      cases found with
      | some m => exact same ▸ proper' m (mem_of_find alike.stands' finds)
      | none => exact same ▸ isName_fileName id time
    rw [← same, placeOf_name name] at writes
    obtain ⟨-, -, rfl⟩ := FileTree.write_eq_ok writes
    obtain ⟨unlisted, unloaded, found'⟩ := shows_unfinished (h := { h with tree := t })
      alike.stands' id finds name same (by rw [stops]; exact nofun) rfl
    refine ⟨unlisted, unloaded, fun other => ?_⟩
    rcases load_wrote (h := { h with tree := t }) (n := n) alike.stands' proper' other with
      here | before
    · exact .inl (here.trans found'.symm)
    · exact .inr (before.trans (alike.load proper other))

/-- A history with nothing in its folder. -/
def emptyFolder : History := ⟨["h"], ⟨[(["h"], .folder)]⟩⟩

/-- A record with bytes in a variable. -/
def bytesRecord : Record :=
  { id := "b2", startTime := "2024-01-02T00:00:00+00:00", bindings := [("v", .bytes [1])] }

theorem save_fails_bytes :
    (emptyFolder.save bytesRecord).1 = .error .wrongType ∧
      (∃ g, (emptyFolder.save bytesRecord).2.list none = .error g) ∧
      ∃ g, (emptyFolder.save bytesRecord).2.load "b2" = .error g := by
  have failed : (emptyFolder.save bytesRecord).1 = .error .wrongType := by with_unfolding_all rfl
  have id : IsId "b2" := ⟨by decide, by simp [Glob.IsPlain]⟩
  have proper : emptyFolder.Proper := fun n there => absurd there List.not_mem_nil
  have shown := (save_fails rfl proper failed).2 (.inl rfl) id (by decide)
  exact ⟨failed, shown.1 none, shown.2.1⟩

/-- A list that was given is no longer given behind a save that failed. -/
theorem list_lost : emptyFolder.list none = .ok [] ∧
    (emptyFolder.save bytesRecord).1 = .error .wrongType ∧
    ∃ g, (emptyFolder.save bytesRecord).2.list none = .error g := by
  have id : IsId bytesRecord.id := ⟨by decide, by simp [bytesRecord, Glob.IsPlain]⟩
  have left : (emptyFolder.save bytesRecord).2 = emptyFolder.wrote (fileName bytesRecord)
      (Text.encode (String.ofList (written (recordValue bytesRecord)).text)) := by
    with_unfolding_all rfl
  have finds : emptyFolder.find bytesRecord.id = .ok none := by with_unfolding_all rfl
  have stopped : (written (recordValue bytesRecord)).refused = some .wrongType := by
    with_unfolding_all rfl
  have stops : (written (recordValue bytesRecord)).refused ≠ none :=
    stopped ▸ Option.some_ne_none _
  have shown := shows_unfinished (h := emptyFolder) rfl id finds
    (isName_fileName id (by decide)) rfl stops rfl
  exact ⟨by with_unfolding_all rfl, by with_unfolding_all rfl, left ▸ shown.1 none⟩

end Runbook.History
