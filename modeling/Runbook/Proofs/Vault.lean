import Runbook.Proofs.FileTree
import Runbook.Proofs.Text.Encoding
import Runbook.Vault
import Runbook.Workstation

/-! The files of a vault.

A path stands for the place that its pieces come to behind the names of the root, and for no place
outside of the root. What is read, written, removed or listed is what stands at such a place, and
whatever is changed, the other files stay as they were (`Vault.files_by_place`). -/
namespace Runbook

open Runbook.Path

namespace Vault

variable {v v' : Vault} {root l : Location} {p q : String}

/-- A vault on a tree without links; what its root is called can be the name of a file. -/
structure Sound (v : Vault) : Prop where
  root : ∀ n ∈ v.root, IsFileName n
  tree : v.tree.Sound

/-- Two paths come to the same names behind the root. -/
def Alike (root : Location) (p q : String) : Prop :=
  ∃ names, Normalises (root ++ pieces p) names ∧ Normalises (root ++ pieces q) names

theorem resolve_null (root : Location) (h : '\x00' ∈ p.toList) :
    resolve root p = .error (.badValue "embedded null byte") :=
  if_pos (by simpa using h)

theorem resolve_eq (root : Location) (h : '\x00' ∉ p.toList) :
    resolve root p = if root <+: FileTree.lead root (namesOf p) then
      .ok (FileTree.lead root (namesOf p))
    else .error (.node ("Path escapes the vault: " ++ p) none) := by
  unfold resolve
  rw [if_neg (by simpa using h)]
  simp only [List.isPrefixOf_iff_prefix]

/-- A path stands for what its pieces come to behind the root, where that is not outside of it. -/
theorem resolve_eq_ok (names : ∀ n ∈ root, IsFileName n) :
    resolve root p = .ok l ↔ root <+: l ∧ Normalises (root ++ pieces p) l := by
  rw [normalises_iff names]
  by_cases null : '\x00' ∈ p.toList
  · rw [resolve_null root null]
    exact ⟨nofun, fun ⟨_, other, _⟩ => absurd null other⟩
  · rw [resolve_eq root null]
    split
    · rename_i inside
      rw [Except.ok.injEq]
      exact ⟨fun same => same ▸ ⟨inside, null, rfl⟩, fun ⟨_, _, same⟩ => same.symm⟩
    · rename_i outside
      refine ⟨nofun, ?_⟩
      rintro ⟨inside, -, rfl⟩
      exact absurd inside outside

theorem resolve_cases (root : Location) (p : String) :
    (∃ l, resolve root p = .ok l ∧ root <+: l) ∨
      resolve root p = .error (.node ("Path escapes the vault: " ++ p) none) ∨
      '\x00' ∈ p.toList ∧ resolve root p = .error (.badValue "embedded null byte") := by
  by_cases null : '\x00' ∈ p.toList
  · exact .inr (.inr ⟨null, resolve_null root null⟩)
  · rw [resolve_eq root null]
    split
    · rename_i inside
      exact .inl ⟨_, rfl, inside⟩
    · exact .inr (.inl rfl)

/-- A place inside the root has a path. -/
theorem resolve_pathOf (names : ∀ n ∈ root, IsFileName n) {below : List String}
    (some_names : below ≠ []) (proper : ∀ n ∈ below, IsFileName n) :
    resolve root (pathOf below) = .ok (root ++ below) := by
  have apart : pieces (pathOf below) = below :=
    pieces_intercalate some_names fun n hn => (proper n hn).noSlash
  refine (resolve_eq_ok names).mpr ⟨List.prefix_append .., ?_⟩
  rw [apart]
  exact ⟨.refl, List.forall_mem_append.mpr ⟨names, proper⟩⟩

theorem Alike.resolve (names : ∀ n ∈ root, IsFileName n) (alike : Alike root p q)
    (h : Vault.resolve root p = .ok l) : Vault.resolve root q = .ok l := by
  obtain ⟨inside, normal⟩ := (resolve_eq_ok names).mp h
  obtain ⟨ns, first, second⟩ := alike
  have same : l = ns := normal.led_eq.symm.trans first.led_eq
  exact (resolve_eq_ok names).mpr ⟨inside, same ▸ second⟩

theorem readBytes_eq_ok {content : List UInt8} :
    v.readBytes p = .ok content ↔
      ∃ l, resolve v.root p = .ok l ∧ v.tree.item? l = some (.file content) := by
  unfold readBytes
  rw [bind_eq_ok]
  simp only [FileTree.failing_eq_ok, FileTree.read_eq_ok]

theorem has_eq_true : v.has p = .ok true ↔ ∃ l, resolve v.root p = .ok l ∧ v.tree.isFile l = true := by
  unfold has
  rw [bind_eq_ok]
  simp [pure, Except.pure]

theorem Sound.names (sound : v.Sound) (h : resolve v.root p = .ok l) : ∀ n ∈ l, IsFileName n :=
  ((resolve_eq_ok sound.root).mp h).2.normal

theorem Sound.writeBytes (sound : v.Sound) {content : List UInt8}
    (h : v.writeBytes p content = .ok v') :
    v'.Sound ∧ v'.root = v.root ∧ ∃ l, resolve v.root p = .ok l ∧
      v'.tree.item? l = some (.file content) ∧
      ∀ m, m ≠ l → ∀ c, v'.tree.item? m = some (.file c) ↔ v.tree.item? m = some (.file c) := by
  obtain ⟨l, place, placed⟩ := bind_eq_ok.mp h
  obtain ⟨t, wrote, made⟩ := bind_eq_ok.mp placed
  cases made
  obtain ⟨tree, here, others⟩ :=
    sound.tree.place (sound.names place) (FileTree.failing_eq_ok.mp wrote)
  exact ⟨⟨sound.root, tree⟩, rfl, l, place, here, others⟩

theorem Sound.delete (sound : v.Sound) (h : v.delete p = .ok v') :
    v'.Sound ∧ v'.root = v.root ∧ ∃ l, resolve v.root p = .ok l ∧
      (∃ content, v.tree.item? l = some (.file content)) ∧ v'.tree.item? l = none ∧
      ∀ m, m ≠ l → v'.tree.item? m = v.tree.item? m := by
  obtain ⟨l, place, removed⟩ := bind_eq_ok.mp h
  obtain ⟨t, erased, made⟩ := bind_eq_ok.mp removed
  cases made
  obtain ⟨tree, there, here, others⟩ := sound.tree.remove (FileTree.failing_eq_ok.mp erased)
  exact ⟨⟨sound.root, tree⟩, rfl, l, place, there, here, others⟩

theorem exists_writeBytes {content : List UInt8} :
    (∃ v', v.writeBytes p content = .ok v') ↔ ∃ l, resolve v.root p = .ok l ∧ l ≠ [] ∧
      v.tree.Free l.dropLast ∧ v.tree.item? l ≠ some .folder := by
  constructor
  · rintro ⟨v', h⟩
    obtain ⟨l, place, placed⟩ := bind_eq_ok.mp h
    obtain ⟨t, wrote, -⟩ := bind_eq_ok.mp placed
    exact ⟨l, place, FileTree.exists_place.mp ⟨t, FileTree.failing_eq_ok.mp wrote⟩⟩
  · rintro ⟨l, place, fits⟩
    obtain ⟨t, wrote⟩ := FileTree.exists_place.mpr fits
    exact ⟨_, bind_eq_ok.mpr ⟨l, place, bind_eq_ok.mpr ⟨t, FileTree.failing_eq_ok.mpr wrote, rfl⟩⟩⟩

theorem mem_found {base : Location} {test : List String → FileTree.Item → Bool} :
    q ∈ v.found base test ↔ ∃ names i, names ≠ [] ∧ (base ++ names, i) ∈ v.tree.items ∧
      test names i = true ∧ ((base.drop v.root.length ++ names).any isHidden) = false ∧
      q = pathOf (base.drop v.root.length ++ names) := by
  unfold found
  rw [(List.mergeSort_perm ..).mem_iff, List.mem_map]
  constructor
  · rintro ⟨⟨names, i⟩, there, rfl⟩
    obtain ⟨there, passes⟩ := List.mem_filter.mp there
    obtain ⟨⟨l, j⟩, stands, inside⟩ := List.mem_filterMap.mp there
    obtain ⟨names, named, same⟩ := Option.map_eq_some_iff.mp inside
    cases same
    obtain ⟨rfl, some_names⟩ := FileTree.inside?_eq_some.mp named
    obtain ⟨passes, shown⟩ := (Bool.and_eq_true ..).mp passes
    exact ⟨names, i, some_names, stands, passes, by simpa using shown, rfl⟩
  · rintro ⟨names, i, some_names, stands, passes, shown, rfl⟩
    refine ⟨(names, i), List.mem_filter.mpr ⟨?_, by simp [passes, shown]⟩, rfl⟩
    refine List.mem_filterMap.mpr ⟨_, stands, ?_⟩
    show (FileTree.inside? base (base ++ names)).map (·, i) = some (names, i)
    rw [FileTree.inside?_append some_names]
    rfl

theorem folderAt_within (names : ∀ n ∈ v.root, IsFileName n) {folder : String} {base : Location}
    (h : v.folderAt folder = .ok base) : v.root <+: base := by
  unfold folderAt at h
  split at h
  · cases h
    exact List.prefix_rfl
  · exact ((resolve_eq_ok names).mp h).1

/-- The files of a folder are listed, at any depth or just its own, as far as no name on the way
from the root is hidden. -/
theorem Sound.listFiles (sound : v.Sound) {folder : String} {recursive : Bool}
    {paths : List String} (h : v.listFiles folder recursive = .ok paths) :
    ∃ around, v.folderAt folder = .ok (v.root ++ around) ∧ ∀ q, q ∈ paths ↔
      v.tree.isFolder (v.root ++ around) = true ∧ ∃ names, names ≠ [] ∧
        v.tree.isFile (v.root ++ (around ++ names)) = true ∧
        (recursive = true ∨ names.length = 1) ∧ (around ++ names).any isHidden = false ∧
        q = pathOf (around ++ names) := by
  obtain ⟨base, place, listed⟩ := bind_eq_ok.mp h
  obtain ⟨around, rfl⟩ := folderAt_within sound.root place
  refine ⟨around, place, fun q => ?_⟩
  cases listed
  cases v.tree.isFolder (v.root ++ around) with
  | false => simp
  | true =>
    rw [if_pos rfl, and_iff_right rfl, mem_found, List.drop_left]
    refine exists_congr fun names => ?_
    by_cases some_names : names = []
    · simp [some_names]
    have below_top : v.root ++ around ++ names ≠ [] := by simp [some_names]
    simp only [sound.tree.mem_items below_top, ← List.append_assoc, FileTree.isFile_iff]
    constructor
    · rintro ⟨i, some_names, stands, passes, shown, rfl⟩
      cases i with
      | folder => simp at passes
      | file content =>
        exact ⟨some_names, ⟨content, stands⟩, by simpa using passes, shown, rfl⟩
    · rintro ⟨some_names, ⟨content, stands⟩, passes, shown, rfl⟩
      exact ⟨_, some_names, stands, by simpa using passes, shown, rfl⟩

/-- A file is found again by the path that it is listed by. -/
theorem Sound.resolve_listed (sound : v.Sound) {below : List String} (some_names : below ≠ [])
    (stands : v.tree.isFile (v.root ++ below) = true) :
    resolve v.root (pathOf below) = .ok (v.root ++ below) := by
  obtain ⟨content, found⟩ := FileTree.isFile_iff.mp stands
  have there := (sound.tree.mem_items (by simp [some_names])).mpr found
  refine resolve_pathOf sound.root some_names fun n hn => ?_
  exact sound.tree.names _ (List.mem_map.mpr ⟨_, there, rfl⟩) n (List.mem_append_right _ hn)

/-- A path stands for the place that it comes to behind the root, or it is refused where that is
outside; two paths stand for one place where they come to the same names. Reading gives what stands
at the place, and writing puts it there for every path alike; no other file is changed. The files of
a folder are listed, each by a path that leads to it. -/
theorem files_by_place (sound : v.Sound) :
    (∀ p, (∃ l, resolve v.root p = .ok l ∧ v.root <+: l) ∨
      resolve v.root p = .error (.node ("Path escapes the vault: " ++ p) none) ∨
      '\x00' ∈ p.toList ∧ resolve v.root p = .error (.badValue "embedded null byte")) ∧
    (∀ p l, resolve v.root p = .ok l ↔ v.root <+: l ∧ Normalises (v.root ++ pieces p) l) ∧
    (∀ p q l m, resolve v.root p = .ok l → resolve v.root q = .ok m →
      (l = m ↔ Alike v.root p q)) ∧
    (∀ p content, v.readBytes p = .ok content ↔
      ∃ l, resolve v.root p = .ok l ∧ v.tree.item? l = some (.file content)) ∧
    (∀ p, v.has p = .ok true ↔ ∃ l, resolve v.root p = .ok l ∧ v.tree.isFile l = true) ∧
    (∀ p content, ((∃ v', v.writeBytes p content = .ok v') ↔ ∃ l, resolve v.root p = .ok l ∧
        l ≠ [] ∧ v.tree.Free l.dropLast ∧ v.tree.item? l ≠ some .folder) ∧
      ∀ v', v.writeBytes p content = .ok v' → v'.Sound ∧ v'.root = v.root ∧
        (∀ q, Alike v.root p q → v'.readBytes q = .ok content) ∧
        ∃ l, resolve v.root p = .ok l ∧
          ∀ m, m ≠ l → ∀ c, v'.tree.item? m = some (.file c) ↔ v.tree.item? m = some (.file c)) ∧
    (∀ p v', v.delete p = .ok v' →
      v'.Sound ∧ v'.root = v.root ∧ ∃ l, resolve v.root p = .ok l ∧
        (∃ content, v.tree.item? l = some (.file content)) ∧ v'.tree.item? l = none ∧
        ∀ m, m ≠ l → v'.tree.item? m = v.tree.item? m) ∧
    ∀ folder recursive paths, v.listFiles folder recursive = .ok paths →
      (∃ around, v.folderAt folder = .ok (v.root ++ around) ∧ ∀ q, q ∈ paths ↔
        v.tree.isFolder (v.root ++ around) = true ∧ ∃ names, names ≠ [] ∧
          v.tree.isFile (v.root ++ (around ++ names)) = true ∧
          (recursive = true ∨ names.length = 1) ∧ (around ++ names).any isHidden = false ∧
          q = pathOf (around ++ names)) ∧
      ∀ q ∈ paths, ∃ below, q = pathOf below ∧ v.tree.isFile (v.root ++ below) = true ∧
        resolve v.root q = .ok (v.root ++ below) := by
  refine ⟨resolve_cases v.root, fun p l => resolve_eq_ok sound.root, ?_,
    fun p content => readBytes_eq_ok, fun p => has_eq_true, ?_, fun p v' h => sound.delete h, ?_⟩
  · intro p q l m hl hm
    constructor
    · rintro rfl
      exact ⟨l, ((resolve_eq_ok sound.root).mp hl).2, ((resolve_eq_ok sound.root).mp hm).2⟩
    · exact fun alike => Except.ok.inj ((alike.resolve sound.root hl).symm.trans hm)
  · refine fun p content => ⟨exists_writeBytes, fun v' h => ?_⟩
    obtain ⟨sound', same, l, place, here, others⟩ := sound.writeBytes h
    refine ⟨sound', same, fun q alike => readBytes_eq_ok.mpr ⟨l, ?_, here⟩, l, place, others⟩
    rw [same]
    exact alike.resolve sound.root place
  · intro folder recursive paths h
    obtain ⟨around, place, listed⟩ := sound.listFiles h
    refine ⟨⟨around, place, listed⟩, fun q hq => ?_⟩
    obtain ⟨-, names, some_names, stands, -, -, rfl⟩ := (listed q).mp hq
    exact ⟨around ++ names, rfl, stands, sound.resolve_listed (by simp [some_names]) stands⟩

def notes : Vault :=
  { root := ["vault"], tree := ⟨[(["vault"], .folder), (["vault", "f.md"], .file [120])]⟩ }

theorem notes_sound : notes.Sound := by
  have vault : IsFileName "vault" := ⟨⟨by decide, by decide, by decide, by decide⟩, by decide⟩
  have note : IsFileName "f.md" := ⟨⟨by decide, by decide, by decide, by decide⟩, by decide⟩
  refine ⟨by simpa [notes] using vault, ?_, by decide⟩
  have names : ∀ n ∈ ["vault", "f.md"], IsFileName n := by simpa using And.intro vault note
  simpa [notes, Entries.keys] using And.intro vault names

theorem files_by_place_notes :
    notes.Sound ∧ resolve notes.root "a/../f.md" = .ok ["vault", "f.md"] ∧
      resolve notes.root "../vault2/f.md" =
        .error (.node "Path escapes the vault: ../vault2/f.md" none) ∧
      ∃ v', notes.writeBytes "//./f.md" [121] = .ok v' ∧
        v'.readBytes "a/../f.md" = .ok [121] := by
  obtain ⟨-, -, alike, -, -, writes, -, -⟩ := files_by_place notes_sound
  have first : resolve notes.root "//./f.md" = .ok ["vault", "f.md"] := rfl
  have second : resolve notes.root "a/../f.md" = .ok ["vault", "f.md"] := rfl
  have wrote : notes.writeBytes "//./f.md" [121] =
      .ok { notes with tree := ⟨[(["vault"], .folder), (["vault", "f.md"], .file [121])]⟩ } := rfl
  obtain ⟨-, -, reads, -⟩ := (writes _ _).2 _ wrote
  refine ⟨notes_sound, second, rfl, _, wrote, ?_⟩
  exact reads _ ((alike _ _ _ _ first second).mp rfl)

/-- A path with the null character is neither refused as leading outside nor does it lead anywhere,
also where the names that it comes to are free of it. -/
theorem resolve_null_character :
    notes.Sound ∧ FileTree.lead notes.root (namesOf "a\x00b/../f.md") = ["vault", "f.md"] ∧
      ¬ ((∃ l, resolve notes.root "a\x00b/../f.md" = .ok l) ∨
        ∃ message node, resolve notes.root "a\x00b/../f.md" = .error (.node message node)) := by
  have refused : resolve notes.root "a\x00b/../f.md" = .error (.badValue "embedded null byte") := rfl
  refine ⟨notes_sound, rfl, ?_⟩
  rw [refused]
  rintro (⟨l, there⟩ | ⟨message, node, failed⟩)
  · cases there
  · cases failed

end Vault
end Runbook

/-! ## Text in the files of a vault

A file keeps a text with its own line ends, and is read with a line feed for each of them. So text
comes back as it was written just where it holds no carriage return (`Sound.readText_self_iff`). On
a workstation, what a node asks of a vault is read off the tree of files as it is, and a change puts
another tree in its place. -/
namespace Runbook

namespace Text

/-- A text as it is read from a file. -/
def linefed (s : String) : String := String.ofList (linefeeds s.toList)

theorem linefed_eq_self_iff {s : String} : linefed s = s ↔ '\r' ∉ s.toList := by
  rw [← linefeeds_eq_self_iff, ← String.toList_inj, linefed, String.toList_ofList]

theorem not_mem_linefed (s : String) : '\r' ∉ (linefed s).toList := by
  rw [linefed, String.toList_ofList]
  exact not_mem_linefeeds s.toList

theorem linefed_append {s : String} (h : '\r' ∉ s.toList) (t : String) :
    linefed (s ++ t) = s ++ linefed t := by
  rw [← String.toList_inj]
  simp only [linefed, String.toList_append, String.toList_ofList]
  exact linefeeds_append h t.toList

end Text

namespace Vault

open Text

variable {v v' : Vault} {p q s text : String} {f : Fault}

/-- There is a file with this text, line ends and all. -/
def Holds (v : Vault) (p text : String) : Prop := v.readBytes p = .ok (encode text)

theorem textOf_eq_ok {content : List UInt8} :
    FileTree.textOf content = .ok s ↔ ∃ text, content = encode text ∧ s = linefed text := by
  simp only [← decode?_eq_some]
  unfold FileTree.textOf
  cases decode? content with
  | none => exact ⟨nofun, fun ⟨_, same, _⟩ => nomatch same⟩
  | some text =>
    rw [Except.ok.injEq]
    exact ⟨fun same => ⟨text, rfl, same.symm⟩, fun ⟨_, same, read⟩ => by cases same; exact read.symm⟩

theorem readText_eq_ok : v.readText p = .ok s ↔ ∃ text, v.Holds p text ∧ s = linefed text := by
  unfold readText
  rw [bind_eq_ok]
  simp only [textOf_eq_ok]
  constructor
  · rintro ⟨_, read, text, rfl, same⟩
    exact ⟨text, read, same⟩
  · rintro ⟨text, holds, same⟩
    exact ⟨_, holds, text, rfl, same⟩

theorem Holds.readText (holds : v.Holds p text) : v.readText p = .ok (linefed text) :=
  readText_eq_ok.mpr ⟨text, holds, rfl⟩

/-- A file holds one text. -/
theorem Holds.iff_eq (holds : v.Holds p text) : v.Holds p s ↔ text = s := by
  unfold Holds at holds ⊢
  rw [holds, Except.ok.injEq, ← decode?_eq_some, decode?_encode, Option.some.injEq]

/-- A file whose bytes are no text is not read as text. -/
theorem readText_badBytes {content : List UInt8} (read : v.readBytes p = .ok content)
    (other : ∀ text, content ≠ encode text) : v.readText p = .error .badBytes := by
  have undecoded : decode? content = none :=
    Option.eq_none_iff_forall_ne_some.mpr fun text there => other text (decode?_eq_some.mp there)
  unfold Vault.readText
  rw [read]
  show FileTree.textOf content = .error .badBytes
  rw [FileTree.textOf, undecoded]

theorem has_of_readBytes {content : List UInt8} (read : v.readBytes p = .ok content) :
    v.has p = .ok true := by
  obtain ⟨l, place, there⟩ := readBytes_eq_ok.mp read
  exact has_eq_true.mpr ⟨l, place, FileTree.isFile_iff.mpr ⟨_, there⟩⟩

theorem Sound.writeText (sound : v.Sound) (h : v.writeText p text = .ok v') :
    v'.Sound ∧ v'.root = v.root ∧ v'.Holds p text ∧ ∃ l, resolve v.root p = .ok l ∧
      ∀ m, m ≠ l → ∀ b, v'.tree.item? m = some (.file b) ↔ v.tree.item? m = some (.file b) := by
  obtain ⟨sound', same, l, place, here, others⟩ := sound.writeBytes h
  exact ⟨sound', same, readBytes_eq_ok.mpr ⟨l, same ▸ place, here⟩, l, place, others⟩

end Vault

/-! ### The vault of a workstation -/

namespace Session

variable (s : Session Workstation)

/-- The vault below a place. -/
def vaultAt (root : Location) : Vault := ⟨root, s.world.tree⟩

def withTree (tree : FileTree) : Session Workstation := { s with world := { s.world with tree } }

end Session

namespace Workstation

variable {α : Type} (root : Location) (s : Session Workstation)

theorem call_inVault (read : Vault → Except Fault α) :
    Act.call (inVault root read) s = ((read (s.vaultAt root)).mapError .fault, s) := by
  unfold Act.call inVault Session.vaultAt
  cases read ⟨root, s.world.tree⟩ <;> simp [mapError_ok, mapError_error]

theorem call_changeVault {change : Vault → Except Fault Vault} {v : Vault}
    (h : change (s.vaultAt root) = .ok v) :
    Act.call (changeVault root change) s = (.ok (), s.withTree v.tree) := by
  unfold Session.vaultAt at h
  unfold Act.call changeVault Session.withTree
  simp [h]

end Workstation

end Runbook
