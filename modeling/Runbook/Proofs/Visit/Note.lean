import Runbook.Proofs.Vault
import Runbook.Proofs.Visit.Consent

/-! Notes that are there already.

A note is stored only once that is confirmed. A node that is to create a note leaves the one alone
that is there. A node that is to append reads the note as text and writes it again with the new
content behind it: so the old part changes just where it holds carriage returns
(`writing_keeps_text`). -/
namespace Runbook

open Text

/-! ### Storing a note -/

namespace Visit

variable {c : Context Workstation} {root : Location} {now : Number.Binary64}
  {s : Session Workstation} {path content text : String} {v : Vault}

theorem putNote_create (there : (s.vaultAt root).has path = .ok true) :
    putNote (Workstation.vault root now) .create path content s = (.ok false, s) := by
  unfold putNote Workstation.vault
  dsimp only
  rw [Act.bind_apply, Workstation.call_inVault, there]
  rfl

/-- A note whose text cannot be read is not appended to. -/
theorem putNote_unreadable {f : Fault} (there : (s.vaultAt root).has path = .ok true)
    (unread : (s.vaultAt root).readText path = .error f) :
    putNote (Workstation.vault root now) .append path content s = (.error (.fault f), s) := by
  unfold putNote Workstation.vault
  dsimp only
  rw [Act.bind_apply, Workstation.call_inVault, there]
  dsimp only [mapError_ok]
  rw [Act.bind_apply, Workstation.call_inVault, unread]
  rfl

theorem putNote_append (there : (s.vaultAt root).has path = .ok true)
    (read : (s.vaultAt root).readText path = .ok text)
    (wrote : (s.vaultAt root).writeText path (text ++ "\n" ++ content) = .ok v) :
    putNote (Workstation.vault root now) .append path content s = (.ok true, s.withTree v.tree) := by
  unfold putNote Workstation.vault
  dsimp only
  rw [Act.bind_apply, Workstation.call_inVault, there]
  dsimp only [mapError_ok]
  rw [Act.bind_apply, Workstation.call_inVault, read]
  dsimp only [mapError_ok]
  rw [Act.bind_apply, Workstation.call_changeVault root s wrote]
  rfl

/-- What a node leaves that has stored a note, or has left one alone. -/
def noted (c : Context Workstation) (written : Bool) : Outcome where
  output := .record [("path", .str c.notePath), ("mode", .str c.noteMode),
    ("written", .bool written)]

theorem store_eq (offered : c.providers.vault = some (Workstation.vault root now))
    (mode : WriteMode) :
    store c mode = putNote (Workstation.vault root now) mode c.notePath c.noteContent >>=
      fun written => pure (noted c written) := by
  unfold store Context.vault Context.require
  simp only [offered, pure_bind]
  rfl

/-- A visit to a node that writes in a mode. It is confirmed, and there is a file with these bytes
where the note is to be. -/
structure Meets (c : Context Workstation) (root : Location) (s : Session Workstation)
    (mode : WriteMode) (s₁ : Session Workstation) (content : List UInt8) : Prop where
  offered : ∃ now, c.providers.vault = some (Workstation.vault root now)
  given : (c.trimmed "path").isEmpty = false
  mode : WriteMode.ofWord? c.noteMode = some mode
  confirmed : confirmWrite c c.notePath c.noteContent c.noteMode s = (.ok (), s₁)
  there : (s₁.vaultAt root).readBytes c.notePath = .ok content

namespace Meets

variable {s₁ : Session Workstation} {mode : WriteMode} {bytes : List UInt8}

theorem writeNote_eq (meets : Meets c root s mode s₁ bytes) :
    ∃ now, writeNote c s = (putNote (Workstation.vault root now) mode c.notePath c.noteContent >>=
      fun written => pure (noted c written)) s₁ := by
  obtain ⟨now, offered⟩ := meets.offered
  refine ⟨now, ?_⟩
  rw [writeNote_of_mode meets.given meets.mode, Act.bind_apply, meets.confirmed, store_eq offered]

theorem has (meets : Meets c root s mode s₁ bytes) :
    (s₁.vaultAt root).has c.notePath = .ok true := Vault.has_of_readBytes meets.there

theorem create (meets : Meets c root s .create s₁ bytes) :
    writeNote c s = (.ok (noted c false), s₁) := by
  obtain ⟨now, written⟩ := meets.writeNote_eq
  rw [written, Act.bind_apply, putNote_create meets.has]
  rfl

theorem unreadable (meets : Meets c root s .append s₁ bytes)
    (other : ∀ text, bytes ≠ encode text) :
    writeNote c s = (.error (.fault .badBytes), s₁) := by
  obtain ⟨now, written⟩ := meets.writeNote_eq
  rw [written, Act.bind_apply,
    putNote_unreadable meets.has (Vault.readText_badBytes meets.there other)]

/-- What a node appends to is written again. -/
theorem append (meets : Meets c root s .append s₁ (encode text))
    (rooted : s₁.world.tree.Rooted) :
    ∃ v, (s₁.vaultAt root).writeText c.notePath (linefed text ++ "\n" ++ c.noteContent) = .ok v ∧
      writeNote c s = (.ok (noted c true), s₁.withTree v.tree) := by
  obtain ⟨l, place, there⟩ := Vault.readBytes_eq_ok.mp meets.there
  have below_top : l ≠ [] := by
    rintro rfl
    cases there
  obtain ⟨v, wrote⟩ := Vault.exists_writeBytes.mpr
    ⟨l, place, below_top, rooted.free there below_top, by rw [there]; nofun⟩
  refine ⟨v, wrote, ?_⟩
  obtain ⟨now, written⟩ := meets.writeNote_eq
  rw [written, Act.bind_apply, putNote_append meets.has (Vault.Holds.readText meets.there) wrote]
  rfl

end Meets

/-- What is written to a vault as text is kept with its own line ends, and read with line feeds: it
comes back as it was just where it holds no carriage return. A note that a node meets in a session
stays as it is where the node is to create it, and where the node is to append to it and its bytes are
no text. Where they are, the node puts in its place the text as it is read, a newline and the new
content, so that the old part stays as it was just where it holds no carriage return. -/
theorem writing_keeps_text (root : Location) (s : Session Workstation) :
    (∀ {path text : String} {v : Vault}, (s.vaultAt root).Sound →
      (s.vaultAt root).writeText path text = .ok v →
        v.Holds path text ∧ v.readText path = .ok (linefed text) ∧
          (v.readText path = .ok text ↔ '\r' ∉ text.toList)) ∧
    ∀ {c : Context Workstation} {before : Session Workstation},
      (∀ {bytes}, Meets c root before .create s bytes →
        writeNote c before = (.ok (noted c false), s)) ∧
      (∀ {bytes}, Meets c root before .append s bytes → (∀ text, bytes ≠ encode text) →
        writeNote c before = (.error (.fault .badBytes), s)) ∧
      ∀ {text}, Meets c root before .append s (encode text) →
        (s.vaultAt root).Sound → s.world.tree.Rooted →
        ∃ v : Vault, writeNote c before = (.ok (noted c true), s.withTree v.tree) ∧
          v.root = root ∧ v.Sound ∧
          v.Holds c.notePath (linefed text ++ "\n" ++ c.noteContent) ∧
          (v.Holds c.notePath (text ++ "\n" ++ c.noteContent) ↔ '\r' ∉ text.toList) ∧
          v.readText c.notePath = .ok (linefed text ++ "\n" ++ linefed c.noteContent) ∧
          ∃ l, Vault.resolve root c.notePath = .ok l ∧ ∀ m, m ≠ l → ∀ b,
            v.tree.item? m = some (.file b) ↔ s.world.tree.item? m = some (.file b) := by
  refine ⟨fun sound wrote => ?_, fun {c before} => ⟨Meets.create, Meets.unreadable,
    fun {text} meets sound rooted => ?_⟩⟩
  · obtain ⟨-, -, holds, -⟩ := sound.writeText wrote
    refine ⟨holds, holds.readText, ?_⟩
    rw [holds.readText, Except.ok.injEq, linefed_eq_self_iff]
  · obtain ⟨v, wrote, written⟩ := meets.append rooted
    obtain ⟨sound', same, holds, others⟩ := sound.writeText wrote
    refine ⟨v, written, same, sound', holds, ?_, ?_, others⟩
    · rw [holds.iff_eq, String.append_left_inj, String.append_left_inj, linefed_eq_self_iff]
    · rw [holds.readText, String.append_assoc, linefed_append (not_mem_linefed text),
        linefed_append (by decide), String.append_assoc]

/-- A session on a workstation with one note. -/
def desk (text : String) : Session Workstation :=
  { world :=
      { tree := ⟨[(["vault"], .folder), (["vault", "f.md"], .file (encode text))]⟩ }
    recorder := { record := { id := "", startTime := "" } } }

/-- A node that writes to that note without asking. -/
def jotting (mode : String) : Context Workstation :=
  { node := { id := "n", kind := "note" }
    properties := [("path", "f"), ("content", "y"), ("mode", mode), ("confirm", "false")]
    scope := .empty
    providers := { clock := Workstation.clock, vault := some (Workstation.vault ["vault"] .nan) } }

theorem desk_sound (text : String) : ((desk text).vaultAt ["vault"]).Sound := by
  have vault : Path.IsFileName "vault" := ⟨⟨by decide, by decide, by decide, by decide⟩, by decide⟩
  have note : Path.IsFileName "f.md" := ⟨⟨by decide, by decide, by decide, by decide⟩, by decide⟩
  have distinct : [["vault"], ["vault", "f.md"]].Nodup := by decide
  refine ⟨by simpa [Session.vaultAt] using vault, ?_, distinct⟩
  simpa [desk, Session.vaultAt, Entries.keys] using And.intro vault note

theorem desk_rooted (text : String) : (desk text).world.tree.Rooted := by
  rintro l (_ | ⟨_, _ | ⟨_, there⟩⟩)
  · rfl
  · rfl
  · cases there

theorem meets_jotting {word : String} {mode : WriteMode}
    (known : (word, mode) ∈ [("append", WriteMode.append), ("create", .create)]) (text : String) :
    Meets (jotting word) ["vault"] (desk text) mode (desk text) (encode text) := by
  simp only [List.mem_cons, Prod.mk.injEq, List.not_mem_nil, or_false] at known
  obtain ⟨rfl, rfl⟩ | ⟨rfl, rfl⟩ := known
  all_goals
    refine ⟨⟨_, rfl⟩, by with_unfolding_all rfl, by decide, ?_, by with_unfolding_all rfl⟩
    rw [confirmWrite_eq, if_neg (by decide)]
    rfl

theorem jotting_note :
    (jotting "append").notePath = "f.md" ∧ (jotting "append").noteContent = "y" := by
  decide +kernel

theorem writing_keeps_text_jotted :
    (∃ v : Vault, ((desk "é\n").vaultAt ["vault"]).Sound ∧
      ((desk "é\n").vaultAt ["vault"]).writeText "g.md" "a\nb" = .ok v ∧
      v.readText "g.md" = .ok "a\nb") ∧
    (Meets (jotting "create") ["vault"] (desk "é\n") .create (desk "é\n") (encode "é\n") ∧
      (writeNote (jotting "create") (desk "é\n")).2 = desk "é\n") ∧
    (Meets (jotting "append") ["vault"] (desk "é\n") .append (desk "é\n") (encode "é\n") ∧
      ((desk "é\n").vaultAt ["vault"]).Sound ∧ (desk "é\n").world.tree.Rooted ∧
      ((writeNote (jotting "append") (desk "é\n")).2.vaultAt ["vault"]).Holds "f.md" "é\n\ny") := by
  obtain ⟨texts, notes⟩ := writing_keeps_text ["vault"] (desk "é\n")
  refine ⟨?_, ?_, ?_⟩
  · have wrote : ((desk "é\n").vaultAt ["vault"]).writeText "g.md" "a\nb" = .ok
        ⟨["vault"], ⟨(desk "é\n").world.tree.items ++ [(["vault", "g.md"], .file (encode "a\nb"))]⟩⟩ := by
      with_unfolding_all rfl
    obtain ⟨-, -, comes⟩ := texts (desk_sound _) wrote
    exact ⟨_, desk_sound _, wrote, comes.mpr (by decide)⟩
  · have meets := @meets_jotting "create" .create (by decide) "é\n"
    exact ⟨meets, by rw [notes.1 meets]⟩
  · have meets := @meets_jotting "append" .append (by decide) "é\n"
    obtain ⟨v, written, same, -, -, kept, -⟩ := notes.2.2 meets (desk_sound _) (desk_rooted _)
    refine ⟨meets, desk_sound _, desk_rooted _, ?_⟩
    have holds := kept.mpr (by decide)
    rw [jotting_note.1, jotting_note.2] at holds
    rw [written, ← same]
    exact holds

/-- A text with a carriage return is not what comes back, and a node that appends takes the carriage
returns out of the old part. -/
theorem writing_drops_returns :
    (∃ v' : Vault, Vault.notes.writeText "g.md" "a\r\nb" = .ok v' ∧
      v'.readText "g.md" = .ok "a\nb") ∧
    (writeNote (jotting "append") (desk "a\r\nb")).1 = .ok (noted (jotting "append") true) ∧
      ((desk "a\r\nb").vaultAt ["vault"]).Holds "f.md" "a\r\nb" ∧
      ((writeNote (jotting "append") (desk "a\r\nb")).2.vaultAt ["vault"]).Holds "f.md"
        "a\nb\ny" := by
  refine ⟨?_, ?_⟩
  · have wrote : Vault.notes.writeText "g.md" "a\r\nb" = .ok { Vault.notes with
        tree := ⟨Vault.notes.tree.items ++ [(["vault", "g.md"], .file (encode "a\r\nb"))]⟩ } := by
      with_unfolding_all rfl
    obtain ⟨-, -, holds, -⟩ := Vault.notes_sound.writeText wrote
    have changed : linefed "a\r\nb" = "a\nb" := by decide
    exact ⟨_, wrote, changed ▸ holds.readText⟩
  · have meets := @meets_jotting "append" .append (by decide) "a\r\nb"
    obtain ⟨v', wrote, written⟩ := meets.append (desk_rooted _)
    obtain ⟨-, same, holds, -⟩ := (desk_sound _).writeText wrote
    have changed : linefed "a\r\nb" ++ "\n" ++ "y" = "a\nb\ny" := by decide
    rw [jotting_note.1, jotting_note.2, changed] at holds
    have root : v'.root = ["vault"] := same
    refine ⟨by rw [written], by with_unfolding_all rfl, ?_⟩
    rw [written, ← root]
    exact holds

end Visit
end Runbook
