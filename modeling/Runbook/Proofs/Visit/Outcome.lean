import Runbook.Proofs.Action
import Runbook.Proofs.Entries
import Runbook.Visit.Dispatch

/-! What the kinds of nodes do and come to.

Every kind but the one that runs another workflow is composed of calls to providers. Its outcome
is plain, which is to say that it takes no way of its own, succeeded, and binds real names only;
or it is the outcome of a condition, which goes the way that its output says and binds nothing. -/
namespace Runbook

variable {σ : Type}

/-- An outcome that takes no decision. -/
structure Outcome.Plain (o : Outcome) : Prop where
  branch : o.branch = none
  status : o.status = .success
  error : o.error = none
  named : ∀ b ∈ o.writes, b.1 ≠ ""

/-- An outcome that takes a decision: the way it goes is its output, and where there was none to
take it goes the false way with an error. -/
structure Outcome.Decided (o : Outcome) : Prop where
  branch : ∃ b, o.branch = some b ∧ o.output = .bool b
  writes : o.writes = []
  status : (o.status = .success ∧ o.error = none) ∨ (o.status = .error ∧ o.branch = some false)

/-- What the outcome of a kind is like. -/
def Kind.Suits : Kind → Outcome → Prop
  | .branch | .loop => Outcome.Decided
  | _ => Outcome.Plain

theorem Kind.Suits.named {k : Kind} {o : Outcome} (h : k.Suits o) : ∀ b ∈ o.writes, b.1 ≠ "" := by
  cases k with
  | branch | loop =>
    have nothing : o.writes = [] := Outcome.Decided.writes h
    rw [nothing]
    intro b hb
    cases hb
  | _ => exact Outcome.Plain.named h

namespace Context

open Act (Composed)

variable {c : Context σ} {p : Providers σ}

theorem mem_writes {values : List (String × Value)} {b : String × Value}
    (h : b ∈ c.writes values) : b.1 ≠ "" := by
  have there : b.1 ∈ Entries.keys (c.writes values) := List.mem_map_of_mem h
  rw [writes, Entries.mem_keys_ofList] at there
  obtain ⟨d, hd, same⟩ := List.mem_map.mp there
  obtain ⟨value, _, kept⟩ := List.mem_filterMap.mp hd
  simp only at kept
  split at kept
  · cases kept
  · rename_i filled
    rw [← same, ← Option.some.inj kept]
    simpa using filled

theorem mem_merge_writes {first second : List (String × Value)} {b : String × Value}
    (h : b ∈ Entries.merge (c.writes first) (c.writes second)) : b.1 ≠ "" := by
  have there : b.1 ∈ Entries.keys (Entries.merge (c.writes first) (c.writes second)) :=
    List.mem_map_of_mem h
  rcases Entries.mem_keys_merge.mp there with there | there <;>
    obtain ⟨d, hd, same⟩ := List.mem_map.mp there <;>
    exact same ▸ mem_writes hd

/-- A node that refuses goes no further. -/
theorem composed_refusal {α β : Type} {refused : Prop} [Decidable refused] {message : String}
    {next : α → Act σ β} {go : Act σ β} {Q : β → Prop} (h : ¬ refused → Composed p go Q) :
    Composed p (if refused then c.fail message >>= next else go) Q := by
  split
  · exact .bind (P := fun _ => False) .fail fun _ none => none.elim
  · exact h ‹_›

/-- Two ways to a value, and one way on from it. -/
theorem composed_join {α β : Type} {way : Prop} [Decidable way] {first second : Act σ α}
    {next : α → Act σ β} {P : α → Prop} {Q : β → Prop} (hf : Composed p first P)
    (hs : Composed p second P) (rest : ∀ a, P a → Composed p (next a) Q) :
    Composed p (if way then first >>= next else second >>= next) Q := by
  split
  · exact .bind hf rest
  · exact .bind hs rest

theorem composed_fail {α : Type} {message : String} {Q : α → Prop} :
    Composed p (c.fail message : Act σ α) Q := .fail

theorem composed_require {α : Type} {name : String} {provider : Option α} :
    Composed p (c.require name provider) fun a => provider = some a := by
  cases provider with
  | none => exact .fail
  | some a => exact .pure rfl

theorem composed_vault : Composed p c.vault fun v => c.providers.vault = some v :=
  composed_require

theorem composed_ask {r : Interaction.Request} :
    Composed c.providers (c.ask r) fun _ => True :=
  .bind composed_require fun _ port => .call (.interaction port r)

end Context

namespace Visit

open Act (Composed)
open Context (composed_refusal composed_require composed_vault composed_ask composed_fail
  composed_join)

variable {c : Context σ}

/-! ### Variables, conditions and waiting -/

/-- The outcome that a node leaves when it only names variables for its values. -/
theorem plain_writes {output : Value} {values : List (String × Value)} :
    Outcome.Plain { output, writes := c.writes values } :=
  ⟨rfl, rfl, rfl, fun _ => Context.mem_writes⟩

theorem plain_merged {output : Value} {first second : List (String × Value)} :
    Outcome.Plain { output, writes := Entries.merge (c.writes first) (c.writes second) } :=
  ⟨rfl, rfl, rfl, fun _ => Context.mem_merge_writes⟩

theorem plain_merged_if {output : Value} {way : Prop} [Decidable way]
    {first second : List (String × Value)} :
    Outcome.Plain
      { output
        writes := Entries.merge (c.writes first) (if way then c.writes second else []) } := by
  split
  · exact plain_merged
  · exact plain_writes

theorem plain_output {output : Value} : Outcome.Plain { output } :=
  ⟨rfl, rfl, rfl, by simp⟩

theorem plain_named {name : String} (output : Value) (h : ¬ name.isEmpty = true) :
    Outcome.Plain { output, writes := [(name, output)] } :=
  ⟨rfl, rfl, rfl, by simpa using h⟩

theorem composed_literal : Composed c.providers (literal c) Outcome.Plain := by
  unfold literal
  refine composed_refusal fun named => ?_
  exact .pure (plain_named _ named)

theorem composed_compute : Composed c.providers (compute c) Outcome.Plain := by
  unfold compute
  refine composed_refusal fun named => ?_
  refine .bind .ofExcept fun v _ => ?_
  have done : Composed c.providers
      (pure { output := v, writes := [(c.trimmed "name", v)] }) Outcome.Plain :=
    .pure (plain_named v named)
  split
  · split
    · rename_i host _ hhost
      refine .bind (.succeeds (P := fun _ => True) ?_) fun _ _ => done
      exact .bind .ofExcept fun text _ => .call (.host hhost (.writeClipboard text))
    · exact done
  · exact done

theorem decided_decided (skips : Bool) (answer : Bool × Option String) :
    (decided skips answer).Decided := by
  rcases answer with ⟨b, _ | message⟩
  · exact ⟨⟨b, rfl, rfl⟩, rfl, .inl ⟨rfl, rfl⟩⟩
  · cases skips
    · exact ⟨⟨false, rfl, rfl⟩, rfl, .inr ⟨rfl, rfl⟩⟩
    · exact ⟨⟨false, rfl, rfl⟩, rfl, .inl ⟨rfl, rfl⟩⟩

theorem composed_condition (skips : Bool) :
    Composed c.providers (condition c skips) Outcome.Decided :=
  .bind .ofExcept fun _ _ => .pure (decided_decided skips _)

theorem composed_sleep : Composed c.providers (sleep c) Outcome.Plain := by
  refine .bind .ofExcept fun duration _ => ?_
  split
  · exact .bind (.call (.sleep duration)) fun _ _ => .pure plain_output
  · exact .pure plain_output

/-! ### Prompts, requests, data and tools -/

theorem composed_prompt : Composed c.providers (prompt c) Outcome.Plain := by
  unfold prompt
  refine composed_refusal fun _ => ?_
  refine .bind composed_require fun model hmodel => ?_
  refine .bind .ofExcept fun attached _ => ?_
  refine .bind (.call (.model hmodel _)) fun result _ => ?_
  exact .pure plain_merged_if

theorem composed_request : Composed c.providers (request c) Outcome.Plain := by
  unfold request
  refine .bind composed_require fun client hclient => ?_
  refine .bind .ofExcept fun r _ => ?_
  refine .bind (.mapFault _ (.call (.http hclient r))) fun response _ => ?_
  refine composed_refusal fun _ => ?_
  exact .bind .ofExcept fun v _ => .pure plain_merged

theorem composed_readData : Composed c.providers (readData c) Outcome.Plain := by
  unfold readData
  refine composed_refusal fun _ => composed_refusal fun _ => ?_
  dsimp only
  split
  · exact composed_fail
  · split
    · exact .pure plain_writes
    · split
      · exact composed_fail
      · exact .fail

theorem composed_callTool : Composed c.providers (callTool c) Outcome.Plain := by
  unfold callTool
  refine composed_refusal fun _ => composed_refusal fun _ => ?_
  refine .bind .ofExcept fun headers _ => .bind .ofExcept fun args _ => ?_
  refine .bind composed_require fun client hclient => ?_
  refine .bind (.call (.tools hclient _ _ _ _)) fun result _ => ?_
  refine .bind .ofExcept fun text _ => ?_
  exact composed_refusal fun _ => .pure plain_writes

/-! ### Notes -/

theorem composed_confirmWrite {path content mode : String} :
    Composed c.providers (confirmWrite c path content mode) fun _ => True := by
  unfold confirmWrite
  split
  · refine .bind composed_ask fun response _ => ?_
    split
    · split
      · exact .fail
      · exact .pure trivial
    · exact .fail
  · exact .pure trivial

theorem composed_putNote {vault : VaultProvider σ} (hv : c.providers.vault = some vault)
    {mode : WriteMode} {path content : String} :
    Composed c.providers (putNote vault mode path content) fun _ => True := by
  refine .bind (.call (.vault hv (.has path))) fun there _ => ?_
  split
  · exact .pure trivial
  · refine .bind (.call (.vault hv (.readText path))) fun current _ => ?_
    exact .bind (.call (.vault hv (.writeText path _))) fun _ _ => .pure trivial
  · exact .bind (.call (.vault hv (.writeText path _))) fun _ _ => .pure trivial

theorem composed_writeNote : Composed c.providers (writeNote c) Outcome.Plain := by
  unfold writeNote
  refine composed_refusal fun _ => ?_
  dsimp only
  split
  · exact composed_fail
  · refine .bind composed_confirmWrite fun _ _ => .bind composed_vault fun vault hv => ?_
    exact .bind (composed_putNote hv) fun written _ => .pure plain_output

theorem composed_existing {vault : VaultProvider σ} (hv : c.providers.vault = some vault)
    {what path : String} : Composed c.providers (existing c vault what path) fun _ => True := by
  refine .bind (.call (.vault hv (.has path))) fun there _ => composed_refusal fun _ => ?_
  exact .call (.vault hv (.readText path))

theorem composed_readNote : Composed c.providers (readNote c) Outcome.Plain := by
  unfold readNote
  refine composed_refusal fun _ => composed_refusal fun _ => ?_
  refine .bind composed_vault fun vault hv => ?_
  exact .bind (composed_existing hv) fun content _ => .pure plain_writes

theorem composed_noteFiles {vault : VaultProvider σ} (hv : c.providers.vault = some vault) :
    Composed c.providers (noteFiles vault) fun _ => True :=
  .bind (.call (.vault hv .listFiles)) fun _ _ => .pure trivial

theorem composed_hit {vault : VaultProvider σ} (hv : c.providers.vault = some vault)
    {query : List Char} {inContent : Bool} {path : String} :
    Composed c.providers (hit vault query inContent path) fun _ => True := by
  unfold hit
  dsimp only
  split
  · refine .bind (.call (.vault hv (.readText path))) fun content _ => ?_
    split <;> exact .pure trivial
  · split <;> exact .pure trivial

theorem composed_hits {vault : VaultProvider σ} (hv : c.providers.vault = some vault)
    {query : List Char} {inContent : Bool} {enough : Int} {count : Nat} {paths : List String} :
    Composed c.providers (hits vault query inContent enough count paths) fun _ => True := by
  induction paths generalizing count with
  | nil => exact .pure trivial
  | cons path rest ih =>
    unfold hits
    split
    · exact .pure trivial
    · refine .bind (composed_hit hv) fun found _ => ?_
      split
      · exact .bind ih fun _ _ => .pure trivial
      · exact ih

theorem composed_searchNotes : Composed c.providers (searchNotes c) Outcome.Plain := by
  unfold searchNotes
  refine composed_refusal fun _ => composed_refusal fun _ => ?_
  refine .bind composed_vault fun vault hv => .bind .ofExcept fun enough _ => ?_
  refine .bind (composed_noteFiles hv) fun files _ => ?_
  exact .bind (composed_hits hv) fun found _ => .pure plain_writes

theorem composed_entry {vault : VaultProvider σ} (hv : c.providers.vault = some vault)
    {f : Filter} {path : String} :
    Composed c.providers ( entry? vault f path) fun _ => True := by
  unfold entry?
  split
  · exact .pure trivial
  · refine .bind (.call (.vault hv (.times path))) fun times _ => .bind .ofExcept fun early _ => ?_
    split
    · exact .pure trivial
    · refine .bind .ofExcept fun early _ => ?_
      split
      · exact .pure trivial
      · refine .bind (.call (.vault hv (.tags path))) fun tags _ => ?_
        split
        · exact .pure trivial
        · exact .bind .ofExcept fun created _ => .bind .ofExcept fun modified _ => .pure trivial

theorem composed_entries {vault : VaultProvider σ} (hv : c.providers.vault = some vault)
    {f : Filter} {paths : List String} :
    Composed c.providers (entries vault f paths) fun _ => True := by
  induction paths with
  | nil => exact .pure trivial
  | cons path rest ih =>
    exact .bind (composed_entry hv) fun e _ => .bind ih fun more _ => .pure trivial

theorem composed_listNotes : Composed c.providers (listNotes c) Outcome.Plain := by
  unfold listNotes
  refine composed_refusal fun _ => .bind composed_vault fun vault hv => ?_
  refine .bind .ofExcept fun enough _ => ?_
  refine .bind .ofExcept fun createdWithin _ => .bind .ofExcept fun modifiedWithin _ => ?_
  refine .bind .now fun now _ => .bind (composed_noteFiles hv) fun files _ => ?_
  exact .bind (composed_entries hv) fun found _ => .pure plain_writes

theorem composed_listFolders : Composed c.providers (listFolders c) Outcome.Plain := by
  unfold listFolders
  refine composed_refusal fun _ => .bind composed_vault fun vault hv => ?_
  exact .bind (.call (.vault hv .listFolders)) fun all _ => .pure plain_writes

/-! ### Files -/

theorem composed_readFile {vault : VaultProvider σ} (hv : c.providers.vault = some vault)
    {path : String} : Composed c.providers (readFile vault path) fun _ => True := by
  unfold readFile
  dsimp only
  split
  · exact .bind (.call (.vault hv (.readBytes path))) fun _ _ => .pure trivial
  · exact .bind (.call (.vault hv (.readText path))) fun _ _ => .pure trivial

theorem composed_pickedPath {r : Interaction.Request} :
    Composed c.providers (pickedPath c r) fun _ => True := by
  refine .bind composed_ask fun response _ => ?_
  split
  · split
    · exact .pure trivial
    · exact .fail
  · exact .fail

theorem composed_pickFile : Composed c.providers (pickFile c) Outcome.Plain := by
  unfold pickFile
  refine composed_refusal fun _ => ?_
  refine composed_join composed_pickedPath (.pure trivial) fun path _ => ?_
  dsimp only
  split
  · split
    · exact .bind (P := fun _ => True) (.pure trivial) fun _ _ => .pure plain_merged
    · refine .bind composed_vault fun vault hv => ?_
      refine .bind (.call (.vault hv (.has path))) fun there _ => composed_refusal fun _ => ?_
      refine .bind (composed_readFile hv) fun f _ => ?_
      exact .bind (P := fun _ => True) (.pure trivial) fun _ _ => .pure plain_merged
  · exact .bind (P := fun _ => True) (.pure trivial) fun _ _ => .pure plain_merged

theorem composed_saveFile : Composed c.providers (saveFile c) Outcome.Plain := by
  unfold saveFile
  refine composed_refusal fun _ => composed_refusal fun _ => ?_
  dsimp only
  split
  · exact composed_fail
  · refine .bind .ofExcept fun f _ => ?_
    split
    · exact composed_fail
    · refine composed_refusal fun _ => .bind composed_vault fun vault hv => ?_
      split
      · refine .bind .ofExcept fun bytes _ => ?_
        exact .bind (.call (.vault hv (.writeBytes _ bytes))) fun _ _ => .pure plain_writes
      · exact .bind (.call (.vault hv (.writeText _ _))) fun _ _ => .pure plain_writes

/-! ### Asking the user -/

theorem composed_dialog : Composed c.providers (dialog c) Outcome.Plain := by
  refine .bind .ofExcept fun defaults _ => .bind composed_ask fun response _ => ?_
  split
  · exact .fail
  · exact .pure plain_writes

theorem composed_askForNote : Composed c.providers (askForNote c) fun _ => True := by
  refine .bind composed_ask fun response _ => ?_
  split
  · split
    · exact .pure trivial
    · exact .fail
  · exact .fail

theorem composed_pickNote : Composed c.providers (pickNote c) Outcome.Plain := by
  unfold pickNote
  refine composed_refusal fun _ => ?_
  refine composed_join (.pure trivial) (.mono .ofExcept fun _ _ => trivial) fun seeded _ => ?_
  -- The note is read in the same way, whoever named it.
  have read (picked : String) : Composed c.providers (do
      let vault ← c.vault
      let content ← existing c vault "File" (Notes.path picked)
      return {
        output := .record [("path", .str (Notes.path picked))]
        writes := c.writes
          [("saveTo", .str content),
            ("saveFileTo", fileNameValue (FileName.ofPath (Notes.path picked)))] })
      Outcome.Plain :=
    .bind composed_vault fun vault hv =>
      .bind (composed_existing hv) fun content _ => .pure plain_writes
  dsimp only
  split
  · exact .bind (P := fun _ => True) (.pure trivial) fun picked _ => read picked
  · exact .bind composed_askForNote fun picked _ => read picked

theorem composed_selected {v : Value} : Composed c.providers (selected c v) Outcome.Plain := by
  unfold selected
  split
  · refine .bind composed_vault fun vault hv => ?_
    dsimp only
    split
    · refine .bind (composed_existing hv) fun content _ => ?_
      split
      · exact .bind .ofExcept fun s _ => .pure plain_writes
      · exact .bind (P := fun _ => True) (.pure trivial) fun s _ => .pure plain_writes
    · exact .bind (P := fun _ => False) .fail fun _ none => none.elim
    · exact .bind (P := fun _ => False) .fail fun _ none => none.elim
    · exact .bind (P := fun _ => False) composed_fail fun _ none => none.elim
  · exact .fail

theorem composed_pickText : Composed c.providers (pickText c) Outcome.Plain := by
  unfold pickText
  refine composed_refusal fun _ => ?_
  dsimp only
  split
  · exact .pure plain_merged_if
  · split
    · exact .pure plain_writes
    · refine .bind composed_ask fun response _ => ?_
      split
      · exact .fail
      · exact .fail
      · exact .pure plain_writes
      · exact composed_selected

/-! ### The host -/

theorem composed_openNote : Composed c.providers (openNote c) Outcome.Plain := by
  unfold openNote
  refine composed_refusal fun _ => .bind composed_require fun host hhost => ?_
  exact .bind (.call (.host hhost (.openFile _))) fun _ _ => .pure plain_output

theorem composed_present : Composed c.providers (present c) fun _ => True :=
  .bind .now fun _ _ => .bind .ofExcept fun _ _ => .pure trivial

/-- A node that reports when it was done. -/
theorem composed_dated {report : Value → Value} :
    Composed c.providers (do
      let time ← present c
      return { output := report time, writes := c.writes [("saveTo", report time)] })
      Outcome.Plain :=
  .bind composed_present fun _ _ => .pure plain_writes

theorem composed_hostCommand : Composed c.providers (hostCommand c) Outcome.Plain := by
  unfold hostCommand
  refine composed_refusal fun _ => ?_
  dsimp only
  split
  · rename_i path vault _ hv
    refine .bind (.call (.vault hv (.has path))) fun there _ => composed_refusal fun _ => ?_
    refine .bind composed_require fun host hhost => ?_
    exact .bind (.call (.host hhost (.execute _ _))) fun _ _ => composed_dated
  · refine .bind composed_require fun host hhost => ?_
    exact .bind (.call (.host hhost (.execute _ _))) fun _ _ => composed_dated

theorem composed_indexNote {index : IndexProvider σ} (hi : c.providers.index = some index)
    {setting path : String} :
    Composed c.providers (indexNote c index setting path) fun _ => True := by
  refine .bind composed_vault fun vault hv => .bind (composed_existing hv) fun content _ => ?_
  exact .bind (.call (.index hi (.upload setting path content))) fun _ _ => .pure trivial

theorem composed_syncIndex : Composed c.providers (syncIndex c) Outcome.Plain := by
  unfold syncIndex
  refine composed_refusal fun _ => composed_refusal fun _ => ?_
  refine .bind composed_require fun index hi => ?_
  dsimp only
  split
  · refine .bind (.succeeds (.call (.index hi (.delete _ _)))) fun deleted _ => ?_
    split
    · refine .bind (composed_indexNote hi) fun _ _ => ?_
      exact .bind (P := fun _ => True) (.pure trivial) fun _ _ => composed_dated
    · exact .bind (P := fun _ => True) (.pure trivial) fun _ _ => composed_dated
  · refine .bind (P := fun _ => True) (.pure trivial) fun deleted _ => ?_
    split
    · refine .bind (composed_indexNote hi) fun _ _ => ?_
      exact .bind (P := fun _ => True) (.pure trivial) fun _ _ => composed_dated
    · exact .bind (P := fun _ => True) (.pure trivial) fun _ _ => composed_dated

end Visit

open Act (Composed) in
/-- Every kind but the one that runs another workflow is composed of calls, and its outcome
suits it. -/
theorem Kind.composed_handle {k : Kind} (h : k ≠ .nested) (c : Context σ) :
    Composed c.providers (k.handle c) k.Suits := by
  cases k with
  | literal => exact Visit.composed_literal
  | compute => exact Visit.composed_compute
  | branch => exact Visit.composed_condition false
  | loop => exact Visit.composed_condition c.firstVisit
  | sleep => exact Visit.composed_sleep
  | prompt => exact Visit.composed_prompt
  | request => exact Visit.composed_request
  | readData => exact Visit.composed_readData
  | callTool => exact Visit.composed_callTool
  | writeNote => exact Visit.composed_writeNote
  | readNote => exact Visit.composed_readNote
  | searchNotes => exact Visit.composed_searchNotes
  | listNotes => exact Visit.composed_listNotes
  | listFolders => exact Visit.composed_listFolders
  | openNote => exact Visit.composed_openNote
  | pickFile => exact Visit.composed_pickFile
  | saveFile => exact Visit.composed_saveFile
  | dialog => exact Visit.composed_dialog
  | pickNote => exact Visit.composed_pickNote
  | pickText => exact Visit.composed_pickText
  | nested => exact absurd rfl h
  | syncIndex => exact Visit.composed_syncIndex
  | hostCommand => exact Visit.composed_hostCommand

end Runbook
