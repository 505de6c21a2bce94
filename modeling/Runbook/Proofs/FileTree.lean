import Mathlib.Data.List.Induction
import Runbook.FileTree
import Runbook.Proofs.Entries
import Runbook.Proofs.Path
import Runbook.Proofs.Results

/-! What a tree of files is behind its operations.

Writing puts an entry in its place or behind the others, removing takes one out, and making folders
adds folders around a place. What is inside a folder is a mapping of its own, from the names that
lead there, and each operation is the same operation on that mapping or none at all. -/
namespace Runbook.FileTree

variable {t t' : FileTree} {folder l : Location} {names : List String} {content : List UInt8}

/-! ### Inside a folder -/

theorem inside?_eq_some : inside? folder l = some names ↔ l = folder ++ names ∧ names ≠ [] := by
  unfold inside?
  split
  · rename_i within
    obtain ⟨front, longer⟩ := (Bool.and_eq_true ..).mp within
    obtain ⟨rest, rfl⟩ := List.isPrefixOf_iff_prefix.mp front
    have some_rest : rest ≠ [] := by
      rintro rfl
      simp at longer
    simp only [List.drop_left, Option.some.injEq, List.append_cancel_left_eq]
    exact ⟨fun same => ⟨same, same ▸ some_rest⟩, And.left⟩
  · rename_i outside
    refine ⟨nofun, ?_⟩
    rintro ⟨rfl, some_names⟩
    refine absurd ?_ outside
    simp [List.length_pos_iff.mpr some_names]

theorem inside?_append (some_names : names ≠ []) : inside? folder (folder ++ names) = some names :=
  inside?_eq_some.mpr ⟨rfl, some_names⟩

theorem apart_inside? (folder : Location) : Entries.Apart (inside? folder) := fun first second =>
  (inside?_eq_some.mp first).1.trans (inside?_eq_some.mp second).1.symm

theorem below_eq (t : FileTree) (folder : Location) :
    t.below folder = Entries.rekey (inside? folder) t.items := rfl

/-- What is inside a folder is found by the names that lead there. -/
theorem get?_below (t : FileTree) (folder : Location) (some_names : names ≠ []) :
    Entries.get? names (t.below folder) = t.item? (folder ++ names) := by
  have deeper : (folder ++ names).isEmpty = false := by simp [some_names]
  rw [item?, deeper, if_neg Bool.false_ne_true, below_eq]
  exact Entries.get?_rekey (apart_inside? folder) (inside?_append some_names) t.items

/-! ### Places -/

theorem item?_of_ne (h : l ≠ []) : t.item? l = Entries.get? l t.items := by
  rw [item?, List.isEmpty_eq_false_iff.mpr h, if_neg Bool.false_ne_true]

theorem isFile_iff : t.isFile l = true ↔ ∃ content, t.item? l = some (.file content) := by
  unfold isFile
  split
  · rename_i found
    exact ⟨fun _ => ⟨_, found⟩, fun _ => rfl⟩
  · rename_i other
    exact ⟨nofun, fun ⟨content, found⟩ => absurd found (other content)⟩

theorem isFolder_iff : t.isFolder l = true ↔ t.item? l = some .folder := beq_iff_eq

theorem read_eq_ok : t.read l = .ok content ↔ t.item? l = some (.file content) := by
  unfold read find
  cases t.item? l with
  | none => exact ⟨nofun, nofun⟩
  | some i =>
    cases i with
    | folder => exact ⟨nofun, nofun⟩
    | file c => exact ⟨by rintro ⟨⟩; rfl, by rintro ⟨⟩; rfl⟩

/-! ### Writing and removing -/

/-- A folder that stands, or can be made: no file is in its place or in the place of one around
it. -/
structure Free (t : FileTree) (folder : Location) : Prop where
  here : t.isFile folder = false
  around : t.isBlocked folder = false

theorem isBlocked_eq_false :
    t.isBlocked l = false ↔ ∀ n < l.length, t.isFile (l.take n) = false := by
  simp [isBlocked]

/-- Nothing stands in the way of a place in a free folder. -/
theorem Free.isBlocked_append (free : t.Free folder) (name : String) :
    t.isBlocked (folder ++ [name]) = false := by
  refine isBlocked_eq_false.mpr fun n inside => ?_
  rw [List.length_append, List.length_singleton, Nat.lt_add_one_iff] at inside
  rw [List.take_append_of_le_length inside]
  rcases Nat.lt_or_eq_of_le inside with inside | rfl
  · exact isBlocked_eq_false.mp free.around n inside
  · rw [List.take_length]
    exact free.here

/-- A write puts the content in its place, whatever was there. -/
theorem write_eq_ok (h : t.write l content = .ok t') :
    l ≠ [] ∧ t.item? l ≠ some .folder ∧ t' = ⟨Entries.insert l (.file content) t.items⟩ := by
  have below_top : l ≠ [] := by
    rintro rfl
    cases h
  unfold write find at h
  rw [item?_of_ne below_top] at h ⊢
  cases found : Entries.get? l t.items with
  | some i =>
    rw [found] at h
    cases i with
    | folder => cases h
    | file c =>
      cases h
      exact ⟨below_top, nofun, rfl⟩
  | none =>
    refine ⟨below_top, nofun, ?_⟩
    rw [Entries.insert_of_not_mem (Entries.get?_eq_none.mp found)]
    cases blocked : t.isBlocked l <;> simp only [found, blocked, Bool.false_eq_true, if_false,
      if_true] at h
    · split at h <;> cases h
      rfl
    · cases h

theorem write_over {old : List UInt8} (found : t.item? l = some (.file old)) :
    t.write l content = .ok ⟨Entries.insert l (.file content) t.items⟩ := by
  unfold write find
  rw [found]

/-- A new file is written where its folder stands. -/
theorem write_new {name : String} (free : t.Free folder) (stands : t.isFolder folder = true)
    (new : t.item? (folder ++ [name]) = none) :
    t.write (folder ++ [name]) content =
      .ok ⟨Entries.insert (folder ++ [name]) (.file content) t.items⟩ := by
  have fresh : folder ++ [name] ∉ Entries.keys t.items := by
    rw [item?_of_ne (by simp)] at new
    exact Entries.get?_eq_none.mp new
  unfold write find
  rw [new, free.isBlocked_append, List.dropLast_concat, Entries.insert_of_not_mem fresh]
  simp only [stands, Bool.false_eq_true, if_false, if_true]

theorem item?_insert_self (i : Item) (below_top : l ≠ []) :
    item? ⟨Entries.insert l i t.items⟩ l = some i := by
  rw [item?_of_ne below_top]
  exact Entries.get?_insert_self ..

theorem item?_insert_of_ne {other : Location} (i : Item) (apart : other ≠ l) :
    item? ⟨Entries.insert l i t.items⟩ other = t.item? other := by
  unfold item?
  split
  · rfl
  · exact Entries.get?_insert_of_ne _ _ apart

theorem item?_erase_of_ne {other : Location} (apart : other ≠ l) :
    item? ⟨Entries.erase l t.items⟩ other = t.item? other := by
  unfold item?
  split
  · rfl
  · exact Entries.get?_erase_of_ne _ apart

/-- A folder stays free where nothing changes at it or around it. -/
theorem Free.congr (free : t.Free folder) (same : ∀ l, l <+: folder → t'.item? l = t.item? l) :
    t'.Free folder := by
  have isFile (l : Location) (around : l <+: folder) : t'.isFile l = t.isFile l := by
    unfold FileTree.isFile
    rw [same l around]
  refine ⟨(isFile _ List.prefix_rfl).trans free.here, isBlocked_eq_false.mpr fun n inside => ?_⟩
  exact (isFile _ (List.take_prefix n folder)).trans (isBlocked_eq_false.mp free.around n inside)

theorem ne_of_around (around : l <+: folder) (name : String) : l ≠ folder ++ [name] := by
  rintro rfl
  have shorter := around.length_le
  rw [List.length_append, List.length_singleton] at shorter
  omega

theorem remove_file (found : t.item? l = some (.file content)) :
    t.remove l = .ok ⟨Entries.erase l t.items⟩ := by
  unfold remove find
  rw [found]
  rfl

theorem below_write {name : List String} (some_names : name ≠ []) (i : Item) :
    below ⟨Entries.insert (folder ++ name) i t.items⟩ folder =
      Entries.insert name i (t.below folder) :=
  Entries.rekey_insert (apart_inside? folder) (inside?_append some_names) i t.items

theorem below_remove {name : List String} (some_names : name ≠ []) :
    below ⟨Entries.erase (folder ++ name) t.items⟩ folder =
      Entries.erase name (t.below folder) :=
  Entries.rekey_erase (apart_inside? folder) (inside?_append some_names) t.items

/-! ### Making folders -/

theorem get?_folders (places : List Location) (l : Location) :
    Entries.get? l (places.map (·, Item.folder)) = if l ∈ places then some .folder else none := by
  induction places with
  | nil => rfl
  | cons place places ih =>
    rw [List.map_cons, Entries.get?, ih]
    by_cases same : place = l
    · simp [same]
    · simp [same, Ne.symm same]

theorem item?_append (t : FileTree) (places : List Location) (l : Location) :
    item? ⟨t.items ++ places.map (·, .folder)⟩ l =
      (t.item? l).or (if l ∈ places then some .folder else none) := by
  by_cases top : l = []
  · subst top
    rfl
  · rw [item?_of_ne top, item?_of_ne top, Entries.get?_append, get?_folders]

/-- The places at and around a place where nothing stands. -/
def missing (t : FileTree) (l : Location) : List Location :=
  ((List.range l.length).map fun n => l.take (n + 1)).filter fun around => (t.item? around).isNone

theorem mem_missing_self (below_top : l ≠ []) (none : t.item? l = none) : l ∈ t.missing l := by
  have some_length : 0 < l.length := List.length_pos_iff.mpr below_top
  have whole : l.take (l.length - 1 + 1) = l := by
    rw [Nat.sub_add_cancel some_length, List.take_length]
  have last : l.length - 1 ∈ List.range l.length :=
    List.mem_range.mpr (Nat.sub_one_lt_of_lt some_length)
  refine List.mem_filter.mpr ⟨List.mem_map.mpr ⟨_, last, whole⟩, ?_⟩
  rw [none]
  rfl

theorem prefix_of_mem_missing {place : Location} (h : place ∈ t.missing l) : place <+: l := by
  obtain ⟨n, -, rfl⟩ := List.mem_map.mp (List.mem_filter.mp h).1
  exact List.take_prefix (n + 1) l

theorem inside?_of_around (h : l <+: folder) : inside? folder l = none := by
  cases within : inside? folder l with
  | none => rfl
  | some names =>
    obtain ⟨rfl, some_names⟩ := inside?_eq_some.mp within
    have longer := h.length_le
    rw [List.length_append] at longer
    have := List.length_pos_iff.mpr some_names
    omega

theorem makeFolders_eq (free : t.Free folder) :
    t.makeFolders folder = .ok ⟨t.items ++ (t.missing folder).map (·, .folder)⟩ := by
  unfold makeFolders
  rw [free.here, free.around]
  rfl

theorem free_of_makeFolders (h : t.makeFolders folder = .ok t') : t.Free folder := by
  unfold makeFolders at h
  cases here : t.isFile folder <;> rw [here] at h
  · cases around : t.isBlocked folder <;> rw [around] at h
    · exact ⟨here, around⟩
    · cases h
  · cases h

/-- What making a folder comes to: it stands, with what was inside it before; what stood elsewhere
still stands, and what is new are folders. -/
structure Makes (t t' : FileTree) (folder : Location) : Prop where
  stands : t'.isFolder folder = true
  keeps : ∀ l, t'.item? l = t.item? l ∨ t.item? l = none ∧ t'.item? l = some .folder
  inside : t'.below folder = t.below folder

theorem makes_of_makeFolders (h : t.makeFolders folder = .ok t') : Makes t t' folder := by
  have free := free_of_makeFolders h
  rw [makeFolders_eq free, Except.ok.injEq] at h
  subst h
  refine ⟨?_, fun l => ?_, ?_⟩
  · rw [isFolder_iff, item?_append]
    cases found : t.item? folder with
    | some i =>
      cases i with
      | folder => rfl
      | file c => cases (isFile_iff.mpr ⟨c, found⟩).symm.trans free.here
    | none =>
      have below_top : folder ≠ [] := by
        rintro rfl
        cases found
      rw [if_pos (mem_missing_self below_top found)]
      rfl
  · rw [item?_append]
    cases t.item? l with
    | some i => exact .inl rfl
    | none =>
      rw [Option.none_or]
      split
      · exact .inr ⟨rfl, rfl⟩
      · exact .inl rfl
  · have outside :
        Entries.rekey (inside? folder) ((t.missing folder).map (·, Item.folder)) = [] := by
      refine List.filterMap_eq_nil_iff.mpr fun e there => ?_
      obtain ⟨place, made, rfl⟩ := List.mem_map.mp there
      rw [inside?_of_around (prefix_of_mem_missing made)]
      rfl
    rw [below_eq, Entries.rekey, List.filterMap_append]
    exact (congrArg _ outside).trans (List.append_nil _)

theorem Makes.isFile (h : Makes t t' folder) (l : Location) : t'.isFile l = t.isFile l := by
  unfold FileTree.isFile
  rcases h.keeps l with same | ⟨none, new⟩
  · rw [same]
  · rw [none, new]

theorem Makes.free (h : Makes t t' folder) (free : t.Free folder) : t'.Free folder :=
  ⟨(h.isFile folder).trans free.here,
    isBlocked_eq_false.mpr fun n inside =>
      (h.isFile _).trans (isBlocked_eq_false.mp free.around n inside)⟩

/-- What is inside the folder is found as before. -/
theorem Makes.item?_inside (h : Makes t t' folder) (some_names : names ≠ []) :
    t'.item? (folder ++ names) = t.item? (folder ++ names) := by
  rw [← get?_below t' folder some_names, h.inside, get?_below t folder some_names]

end Runbook.FileTree

/-! ## Trees as a system can hold them

In a sound tree each place stands once, under names that files can have. Making folders, writing and
removing keep a tree sound, and leave every other file as it was. In a rooted tree no file is in the
way of what stands there. -/
namespace Runbook.FileTree

open Runbook.Path

variable {t t' : FileTree} {l : Location}

/-- A tree as a system can hold it: each place is on a list once, under names of files. -/
structure Sound (t : FileTree) : Prop where
  names : ∀ l ∈ Entries.keys t.items, ∀ n ∈ l, IsFileName n
  distinct : (Entries.keys t.items).Nodup

theorem Sound.insert (sound : t.Sound) (names : ∀ n ∈ l, IsFileName n) (i : Item) :
    Sound ⟨Entries.insert l i t.items⟩ := by
  refine ⟨fun m there => ?_, Entries.keys_nodup_insert sound.distinct⟩
  rcases Entries.mem_keys_insert.mp there with rfl | before
  · exact names
  · exact sound.names m before

theorem Sound.erase (sound : t.Sound) (l : Location) : Sound ⟨Entries.erase l t.items⟩ := by
  have fewer := Entries.keys_erase_sublist l t.items
  exact ⟨fun m there => sound.names m (fewer.subset there), sound.distinct.sublist fewer⟩

theorem Sound.mem_items (sound : t.Sound) (below_top : l ≠ []) {i : Item} :
    (l, i) ∈ t.items ↔ t.item? l = some i := by
  rw [item?_of_ne below_top]
  exact ⟨Entries.get?_of_mem sound.distinct, Entries.mem_of_get?⟩

theorem nodup_missing (t : FileTree) (l : Location) : (t.missing l).Nodup := by
  refine List.Nodup.sublist List.filter_sublist (List.pairwise_map.mpr ?_)
  refine List.pairwise_lt_range.imp_of_mem fun {n m} hn hm before same => ?_
  have length := congrArg List.length same
  rw [List.length_take, List.length_take] at length
  rw [List.mem_range] at hn hm
  omega

theorem Sound.makeFolders (sound : t.Sound) (names : ∀ n ∈ l, IsFileName n)
    (h : t.makeFolders l = .ok t') : t'.Sound := by
  rw [makeFolders_eq (free_of_makeFolders h), Except.ok.injEq] at h
  subst h
  have keys : Entries.keys (t.items ++ (t.missing l).map (·, Item.folder)) =
      Entries.keys t.items ++ t.missing l := by
    simp [Entries.keys, Function.comp_def]
  refine ⟨fun m there => ?_, ?_⟩
  · rw [keys, List.mem_append] at there
    rcases there with before | new
    · exact sound.names m before
    · exact fun n hn => names n ((prefix_of_mem_missing new).subset hn)
  · rw [keys, List.nodup_append]
    refine ⟨sound.distinct, nodup_missing t l, fun m before m' new same => ?_⟩
    subst same
    have none : t.item? m = none := Option.isNone_iff_eq_none.mp (List.mem_filter.mp new).2
    have below_top : m ≠ [] := by
      rintro rfl
      cases none
    rw [item?_of_ne below_top] at none
    exact Entries.get?_eq_none.mp none before

/-- A file is placed where it is asked to be, with folders around it. -/
theorem Sound.place (sound : t.Sound) (names : ∀ n ∈ l, IsFileName n) {content : List UInt8}
    (h : t.place l content = .ok t') :
    t'.Sound ∧ t'.item? l = some (.file content) ∧
      ∀ m, m ≠ l → ∀ c, t'.item? m = some (.file c) ↔ t.item? m = some (.file c) := by
  obtain ⟨t₁, made, wrote⟩ := bind_eq_ok.mp h
  obtain ⟨below_top, -, rfl⟩ := write_eq_ok wrote
  have around := sound.makeFolders (fun n hn => names n ((List.dropLast_sublist l).subset hn)) made
  refine ⟨around.insert names _, item?_insert_self _ below_top, fun m apart c => ?_⟩
  rw [item?_insert_of_ne _ apart]
  rcases (makes_of_makeFolders made).keeps m with same | ⟨none, new⟩
  · rw [same]
  · rw [none, new]
    exact ⟨nofun, nofun⟩

/-- A file can be placed where no file stands for a folder around it, nor a folder for it. -/
theorem exists_place {content : List UInt8} :
    (∃ t', t.place l content = .ok t') ↔
      l ≠ [] ∧ t.Free l.dropLast ∧ t.item? l ≠ some .folder := by
  constructor
  · rintro ⟨t', h⟩
    obtain ⟨t₁, made, wrote⟩ := bind_eq_ok.mp h
    obtain ⟨below_top, other, -⟩ := write_eq_ok wrote
    refine ⟨below_top, free_of_makeFolders made, fun folder => other ?_⟩
    rcases (makes_of_makeFolders made).keeps l with same | ⟨none, -⟩
    · exact same.trans folder
    · cases none.symm.trans folder
  · rintro ⟨below_top, free, other⟩
    obtain ⟨t₁, made⟩ : ∃ t₁, t.makeFolders l.dropLast = .ok t₁ := ⟨_, makeFolders_eq free⟩
    have makes := makes_of_makeFolders made
    have last : l.dropLast ++ [l.getLast below_top] = l := List.dropLast_concat_getLast below_top
    have same : t₁.item? l = t.item? l := by
      have inside := makes.item?_inside (List.cons_ne_nil (l.getLast below_top) [])
      rwa [last] at inside
    cases found : t.item? l with
    | none =>
      have new : t₁.item? (l.dropLast ++ [l.getLast below_top]) = none := by
        rw [last, same, found]
      have wrote : t₁.write (l.dropLast ++ [l.getLast below_top]) content = .ok _ :=
        write_new (makes.free free) makes.stands new
      rw [last] at wrote
      exact ⟨_, bind_eq_ok.mpr ⟨t₁, made, wrote⟩⟩
    | some i =>
      cases i with
      | folder => exact absurd found other
      | file old => exact ⟨_, bind_eq_ok.mpr ⟨t₁, made, write_over (same.trans found)⟩⟩

theorem Sound.remove (sound : t.Sound) (h : t.remove l = .ok t') :
    t'.Sound ∧ (∃ content, t.item? l = some (.file content)) ∧ t'.item? l = none ∧
      ∀ m, m ≠ l → t'.item? m = t.item? m := by
  unfold FileTree.remove find at h
  cases found : t.item? l with
  | none =>
    rw [found] at h
    cases h
  | some i =>
    rw [found] at h
    cases i with
    | folder => cases h
    | file content =>
      cases h
      have below_top : l ≠ [] := by
        rintro rfl
        cases found
      refine ⟨sound.erase l, ⟨content, rfl⟩, ?_, fun m apart => item?_erase_of_ne apart⟩
      rw [item?_of_ne below_top]
      exact Entries.get?_erase_self l sound.distinct

theorem failing_eq_ok {α : Type} {path : String} {r : Except FileFault α} {a : α} :
    failing path r = .ok a ↔ r = .ok a := by
  cases r with
  | ok b =>
    show Except.ok b = Except.ok a ↔ Except.ok b = Except.ok a
    rw [Except.ok.injEq, Except.ok.injEq]
  | error f => constructor <;> intro same <;> cases same

/-- Whatever is on the list stands in a folder. -/
def Rooted (t : FileTree) : Prop := ∀ l ∈ Entries.keys t.items, t.isFolder l.dropLast = true

instance (t : FileTree) : Decidable t.Rooted :=
  inferInstanceAs (Decidable (∀ l ∈ Entries.keys t.items, _))

/-- Around what stands in a rooted tree there are only folders. -/
theorem Rooted.item?_take (rooted : t.Rooted) {i : Item} (there : t.item? l = some i) {n : Nat}
    (inside : n < l.length) : t.item? (l.take n) = some .folder := by
  induction l using List.reverseRecOn generalizing i with
  | nil => cases inside
  | append_singleton folder name ih =>
    rw [item?_of_ne (by simp)] at there
    have around := rooted _ (List.mem_map_of_mem (Entries.mem_of_get? there))
    rw [List.dropLast_concat, isFolder_iff] at around
    rw [List.length_append, List.length_singleton, Nat.lt_add_one_iff] at inside
    rw [List.take_append_of_le_length inside]
    rcases Nat.lt_or_eq_of_le inside with inside | rfl
    · exact ih around inside
    · rwa [List.take_length]

/-- What stands in a rooted tree can be written again. -/
theorem Rooted.free (rooted : t.Rooted) {i : Item} (there : t.item? l = some i)
    (below_top : l ≠ []) : t.Free l.dropLast := by
  have folder {n : Nat} (inside : n < l.length) : t.isFile (l.take n) = false := by
    rw [isFile, rooted.item?_take there inside]
  have shorter : l.length - 1 < l.length := Nat.sub_one_lt (by simpa using below_top)
  rw [List.dropLast_eq_take]
  refine ⟨folder shorter, isBlocked_eq_false.mpr fun n inside => ?_⟩
  rw [List.length_take, Nat.min_eq_left (Nat.sub_le ..)] at inside
  rw [List.take_take, Nat.min_eq_left (Nat.le_of_lt inside)]
  exact folder (by omega)

end Runbook.FileTree
