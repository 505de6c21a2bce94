import Runbook.Proofs.Visit.Calls

/-! Consent to the writing of a note.

A node that writes a note asks first, or it does not ask at all: its `confirm` text decides. Where
it asks, the request is the first call that it makes, and it touches the vault only where the
answer agrees. It asks where that text is blank or says `true`; any other text, and not only
`false`, tells it to write without asking. -/
namespace Runbook

open Visit

variable {σ α β : Type}

/-! ### Calls of one kind -/

namespace Act

/-- Where the providers keep a log, it holds behind an action the calls that the action made. -/
theorem Performs.logged {p : Providers σ} {act : Act σ α} {s : Session σ} {ms : List (Made σ)}
    {out : Except Halt α × Session σ} (h : Performs p act s ms out) {log : σ → List Called}
    (logs : p.Logs log) : log out.2.world = log s.world ++ ms.map (·.called) := by
  induction h with
  | pure | fail => exact (List.append_nil _).symm
  | call offered s =>
    rw [call_snd]
    exact logs.call _ offered s.world
  | now s => exact (logs.now s.world).trans (List.append_nil _).symm
  | halts _ first => exact first
  | bind _ _ first rest => rw [rest, first, List.map_append, List.append_assoc]
  | succeeds h ih => rw [succeeds_snd, ← h.eq, ih]
  | mapFault _ h ih => rw [mapFault_snd, ← h.eq, ih]

/-- Wherever the action starts, it makes no other calls than these. -/
def MakesOnly (p : Providers σ) (allowed : Called → Prop) (act : Act σ α) : Prop :=
  ∀ s, ∃ ms, Performs p act s ms (act s) ∧ ∀ m ∈ ms, allowed m.called

namespace MakesOnly

variable {p : Providers σ} {allowed : Called → Prop}

theorem pure (a : α) : MakesOnly p allowed (Pure.pure a) :=
  fun s => ⟨[], .pure a s, List.forall_mem_nil _⟩

theorem fail (f : Fault) : MakesOnly p allowed (Act.fail f : Act σ α) :=
  fun s => ⟨[], .fail f s, List.forall_mem_nil _⟩

theorem call {e : Called} {c : Call σ α} (offered : p.Offers e c) (ok : allowed e) :
    MakesOnly p allowed (Act.call c) :=
  fun s => ⟨_, .call offered s, List.forall_mem_singleton.mpr ok⟩

theorem bind {act : Act σ α} {next : α → Act σ β} (first : MakesOnly p allowed act)
    (rest : ∀ {s a s'}, act s = (.ok a, s') → MakesOnly p allowed (next a)) :
    MakesOnly p allowed (act >>= next) := by
  intro s
  obtain ⟨ms, performs, here⟩ := first s
  rw [bind_apply]
  rcases came : act s with ⟨halt | a, s₁⟩ <;> rw [came] at performs
  · exact ⟨ms, .halts performs, here⟩
  · obtain ⟨more, behind, there⟩ := rest came s₁
    exact ⟨ms ++ more, .bind performs behind, List.forall_mem_append.mpr ⟨here, there⟩⟩

end MakesOnly
end Act

/-! ### Asking -/

/-- An answer agrees where it holds something that counts as true; without an answer nothing was
agreed to. -/
def Interaction.agrees : Option Response → Bool
  | some reply => reply.value.truthy
  | none => false

namespace Context

variable (c : Context σ)

/-- Where the node writes. -/
def notePath : String := Notes.path (c.trimmed "path")

def noteContent : String := c.property "content"

def noteMode : String := c.propertyOr "mode" "overwrite"

/-- The node names a note, and a mode that there is. -/
def Complete : Prop :=
  (c.trimmed "path").isEmpty = false ∧ (WriteMode.ofWord? c.noteMode).isSome

/-- The node is not told to write without asking: what it has for that is blank, or says to ask. -/
def AsksFirst : Prop :=
  Text.trim (c.property "confirm").toList = [] ∨
    Text.lower (Text.trim (c.property "confirm").toList) = "true".toList

/-- The request for consent, with all that is to be written. -/
def writeRequest : Interaction.Request :=
  { kind := .confirm
    nodeId := c.node.id
    title := "Write " ++ c.notePath
    message := c.noteContent
    payload := [("path", .str c.notePath), ("content", .str c.noteContent),
      ("mode", .str c.noteMode)] }

/-- The user answers the request, and agrees to it or not. -/
def Answers (s : Session σ) (agreed : Bool) : Prop :=
  ∃ port answer, c.providers.interaction = some port ∧
    (port c.writeRequest s.world).result = .returned answer ∧ Interaction.agrees answer = agreed

/-- The calls that putting the note in its place takes: it is looked for, and written as it is or
behind what is there. -/
inductive Puts : Called → Prop
  | has : Puts (.has c.notePath)
  | read : Puts (.readText c.notePath)
  | write : Puts (.writeText c.notePath c.noteContent)
  | append (current : String) :
    Puts (.writeText c.notePath (current ++ "\n" ++ c.noteContent))

variable {c}

theorem flagOr_confirm : c.flagOr "confirm" true = true ↔ c.AsksFirst := by
  unfold flagOr AsksFirst
  dsimp only
  cases Text.trim (c.property "confirm").toList with
  | nil => simp
  | cons d ds => simp

end Context

/-! ### Writing -/

namespace Visit

open Act (Performs MakesOnly)

variable {c : Context σ}

/-- How an answer to the request is taken. -/
def heed (answer : Option Interaction.Response) : Act σ Unit :=
  if Interaction.agrees answer then pure ()
  else Act.fail (.declined "Note write cancelled by user")

/-- The part of the node behind the request. -/
def store (c : Context σ) (mode : WriteMode) : Act σ Outcome := do
  let written ← putNote (← c.vault) mode c.notePath c.noteContent
  return {
    output := .record [("path", .str c.notePath), ("mode", .str c.noteMode),
      ("written", .bool written)] }

/-- What a node does that asks: the request, its answer, and the rest. -/
def asking (c : Context σ)
    (port : Interaction.Request → Call σ (Option Interaction.Response)) (mode : WriteMode) :
    Act σ Outcome :=
  Act.call (port c.writeRequest) >>= heed >>= fun _ => store c mode

theorem confirmWrite_eq (c : Context σ) :
    confirmWrite c c.notePath c.noteContent c.noteMode =
      if c.flagOr "confirm" true then c.ask c.writeRequest >>= heed else pure () := by
  unfold confirmWrite
  cases c.flagOr "confirm" true with
  | false => rfl
  | true =>
    refine congrArg (c.ask c.writeRequest >>= ·) (funext fun answer => ?_)
    unfold heed Interaction.agrees
    rcases answer with _ | reply
    · rfl
    · cases agrees : reply.value.truthy <;> simp only [agrees] <;> rfl

/-- A node that names a note and a mode stores the note once that is confirmed. -/
theorem writeNote_of_mode {mode : WriteMode} (given : (c.trimmed "path").isEmpty = false)
    (known : WriteMode.ofWord? c.noteMode = some mode) :
    writeNote c =
      confirmWrite c c.notePath c.noteContent c.noteMode >>= fun _ => store c mode := by
  unfold Context.noteMode at known
  unfold writeNote
  simp only [given, known]
  rfl

theorem writeNote_eq (complete : c.Complete) :
    ∃ mode, writeNote c =
      (if c.flagOr "confirm" true then c.ask c.writeRequest >>= heed else pure ()) >>= fun _ =>
        store c mode := by
  obtain ⟨given, mode⟩ := complete
  obtain ⟨mode, known⟩ := Option.isSome_iff_exists.mp mode
  exact ⟨mode, by rw [writeNote_of_mode given known, confirmWrite_eq]⟩

theorem writeNote_fails (lacking : ¬ c.Complete) : ∃ f, writeNote c = Act.fail f := by
  cases given : (c.trimmed "path").isEmpty with
  | true =>
    refine ⟨c.fault "Note node missing 'path' property", ?_⟩
    unfold writeNote
    simp only [given]
    rfl
  | false =>
    cases known : WriteMode.ofWord? c.noteMode with
    | some mode => exact absurd ⟨given, known ▸ rfl⟩ lacking
    | none =>
      refine ⟨c.fault ("Unknown note mode '" ++ c.noteMode ++ "'"), ?_⟩
      unfold Context.noteMode at known
      unfold writeNote
      simp only [given, known]
      rfl

theorem makesOnly_putNote {vault : VaultProvider σ} (hv : c.providers.vault = some vault)
    (mode : WriteMode) :
    MakesOnly c.providers c.Puts (putNote vault mode c.notePath c.noteContent) := by
  refine .bind (.call (.vault hv (.has c.notePath)) .has) fun {_ there _} _ => ?_
  split
  · exact .pure false
  · refine .bind (.call (.vault hv (.readText c.notePath)) .read) fun {_ current _} _ => ?_
    exact .bind (.call (.vault hv (.writeText _ _)) (.append current)) fun _ => .pure true
  · exact .bind (.call (.vault hv (.writeText _ _)) .write) fun _ => .pure true

theorem makesOnly_vault {allowed : Called → Prop} : MakesOnly c.providers allowed c.vault := by
  unfold Context.vault Context.require
  cases c.providers.vault with
  | none => exact .fail _
  | some vault => exact .pure vault

theorem makesOnly_store (mode : WriteMode) : MakesOnly c.providers c.Puts (store c mode) := by
  refine .bind makesOnly_vault fun came => ?_
  have hv := (Context.composed_vault (p := c.providers)).value came
  exact .bind (makesOnly_putNote hv mode) fun _ => .pure _

/-- A node that does not ask only puts the note in its place. -/
theorem makesOnly_unasked (told : ¬ c.AsksFirst) :
    MakesOnly c.providers c.Puts (writeNote c) := by
  by_cases complete : c.Complete
  · obtain ⟨mode, written⟩ := writeNote_eq complete
    rw [written, if_neg (mt Context.flagOr_confirm.mp told)]
    exact makesOnly_store mode
  · obtain ⟨f, refused⟩ := writeNote_fails complete
    rw [refused]
    exact .fail f

/-- A node that asks makes the request first and goes on with the answer. -/
theorem asks_first (complete : c.Complete) (asks : c.AsksFirst) :
    (c.providers.interaction = none ∧ ∃ f, writeNote c = Act.fail f) ∨
      ∃ port mode, c.providers.interaction = some port ∧ writeNote c = asking c port mode := by
  obtain ⟨mode, written⟩ := writeNote_eq complete
  rw [written, if_pos (Context.flagOr_confirm.mpr asks)]
  unfold Context.ask Context.require
  cases c.providers.interaction with
  | none => exact .inl ⟨rfl, _, rfl⟩
  | some port => exact .inr ⟨port, mode, rfl, rfl⟩

variable {port : Interaction.Request → Call σ (Option Interaction.Response)}

/-- A request that the user does not agree to ends the node. -/
theorem performs_declined (offered : c.providers.interaction = some port) (mode : WriteMode)
    {s : Session σ} {answer : Option Interaction.Response}
    (came : (port c.writeRequest s.world).result = .returned answer)
    (declined : Interaction.agrees answer = false) :
    Performs c.providers (asking c port mode) s
      [⟨.interaction c.writeRequest, port c.writeRequest, s⟩]
      (.error (.fault (.declined "Note write cancelled by user")),
        Act.after (port c.writeRequest) s) := by
  have request := Performs.call (.interaction offered c.writeRequest) s
  rw [Act.call_eq_ok.mpr ⟨came, rfl⟩] at request
  have refused := Performs.fail (p := c.providers) (α := Unit)
    (.declined "Note write cancelled by user") (Act.after (port c.writeRequest) s)
  have taken : heed (σ := σ) answer = Act.fail (.declined "Note write cancelled by user") := by
    rw [heed, declined]
    rfl
  exact .halts (.bind request (taken ▸ refused))

/-- Behind the request come calls only where the answer agrees. -/
theorem performs_asked (offered : c.providers.interaction = some port) (mode : WriteMode)
    (s : Session σ) :
    ∃ more, Performs c.providers (asking c port mode) s
        (⟨.interaction c.writeRequest, port c.writeRequest, s⟩ :: more) (asking c port mode s) ∧
      (∀ m ∈ more, c.Puts m.called) ∧ (c.Answers s true ∨ more = []) := by
  have request := Performs.call (.interaction offered c.writeRequest) s
  rcases came : Act.call (port c.writeRequest) s with ⟨halt | answer, s₁⟩
  · rw [came] at request
    have stops : Performs c.providers (asking c port mode) s _ _ := .halts (.halts request)
    exact ⟨[], stops.eq ▸ stops, List.forall_mem_nil _, .inr rfl⟩
  · obtain ⟨returned, rfl⟩ := Act.call_eq_ok.mp came
    cases agreed : Interaction.agrees answer with
    | false =>
      have stops := performs_declined offered mode returned agreed
      exact ⟨[], stops.eq ▸ stops, List.forall_mem_nil _, .inr rfl⟩
    | true =>
      rw [came] at request
      have taken : heed (σ := σ) answer = pure () := by
        rw [heed, agreed]
        rfl
      have allowed := Performs.pure (p := c.providers) () (Act.after (port c.writeRequest) s)
      rw [← taken] at allowed
      obtain ⟨more, stored, puts⟩ :=
        makesOnly_store (c := c) mode (Act.after (port c.writeRequest) s)
      have goes : Performs c.providers (asking c port mode) s _ _ :=
        .bind (.bind request allowed) stored
      exact ⟨more, goes.eq ▸ goes, puts, .inl ⟨port, answer, offered, returned, agreed⟩⟩

/-- The node touches the vault only where it is told not to ask, or behind a request that shows all
that is to be written and that the user agrees to. A request that the user does not agree to is all
that it does, and the node is cancelled. -/
theorem writeNote_consent (c : Context σ) (s : Session σ) :
    ∃ ms, Performs c.providers (writeNote c) s ms (writeNote c s) ∧
      (∀ log, c.providers.Logs log →
        log (writeNote c s).2.world = log s.world ++ ms.map (·.called)) ∧
      (¬ c.AsksFirst → ∀ m ∈ ms, c.Puts m.called) ∧
      (c.AsksFirst → ms = [] ∨ ∃ port more, c.providers.interaction = some port ∧
        ms = ⟨.interaction c.writeRequest, port c.writeRequest, s⟩ :: more ∧
        (∀ m ∈ more, c.Puts m.called) ∧ (c.Answers s true ∨ more = [])) ∧
      (c.AsksFirst → c.Complete → c.Answers s false → ∃ port, c.providers.interaction = some port ∧
        ms = [⟨.interaction c.writeRequest, port c.writeRequest, s⟩] ∧
        writeNote c s = (.error (.fault (.declined "Note write cancelled by user")),
          Act.after (port c.writeRequest) s)) := by
  by_cases asks : c.AsksFirst
  · have nothing {f : Fault} (refused : writeNote c = Act.fail f) :
        Performs c.providers (writeNote c) s [] (writeNote c s) := by
      rw [refused]
      exact .fail f s
    by_cases complete : c.Complete
    · obtain ⟨alone, f, refused⟩ | ⟨port, mode, offered, asked⟩ := asks_first complete asks
      · refine ⟨[], nothing refused, fun log logs => (nothing refused).logged logs,
          fun told => absurd asks told, fun _ => .inl rfl, ?_⟩
        rintro _ _ ⟨port, _, offered, _⟩
        rw [alone] at offered
        cases offered
      · obtain ⟨more, performs, puts, agreed⟩ := performs_asked offered mode s
        rw [← asked] at performs
        refine ⟨_, performs, fun log logs => performs.logged logs, fun told => absurd asks told,
          fun _ => .inr ⟨port, more, offered, rfl, puts, agreed⟩, ?_⟩
        rintro - - ⟨port', answer, offered', came, declined⟩
        cases offered.symm.trans offered'
        refine ⟨port, offered, ?_, ?_⟩
        · obtain ⟨port', answer', offered', came', agreed⟩ | rfl := agreed
          · cases offered.symm.trans offered'
            cases came.symm.trans came'
            cases declined.symm.trans agreed
          · rfl
        · rw [asked]
          exact (performs_declined offered mode came declined).eq.symm
    · obtain ⟨f, refused⟩ := writeNote_fails complete
      exact ⟨[], nothing refused, fun log logs => (nothing refused).logged logs,
        fun told => absurd asks told, fun _ => .inl rfl, fun _ c => absurd c complete⟩
  · obtain ⟨ms, performs, puts⟩ := makesOnly_unasked asks s
    exact ⟨ms, performs, fun log logs => performs.logged logs, fun _ => puts,
      fun told => absurd told asks, fun told => absurd told asks⟩

/-- A call that returns at once, in a world that is nothing but the calls made in it. -/
def noting (e : Called) (a : α) : Call (List Called) α :=
  fun world => { world := world ++ [e], result := .returned a }

/-- A vault of notes whose times and tags are not known. -/
def shelf (notes : List (String × String)) : VaultProvider (List Called) :=
  { readText := fun path => noting (.readText path) ((Entries.get? path notes).getD "")
    readBytes := fun path => noting (.readBytes path) []
    writeText := fun path text => noting (.writeText path text) ()
    writeBytes := fun path bytes => noting (.writeBytes path bytes) ()
    has := fun path => noting (.has path) (Entries.get? path notes).isSome
    listFiles := noting .listFiles (Entries.keys notes)
    listFolders := noting .listFolders []
    times := fun path => noting (.times path) ⟨.nan, .nan⟩
    tags := fun path => noting (.tags path) [] }

/-- A node that writes a note into an empty vault, and the answer of the user. -/
def drafting (confirm : String) (answer : Option Interaction.Response) : Context (List Called) :=
  { node := { id := "n", kind := "note" }
    properties := [("path", "a"), ("content", "c"), ("confirm", confirm)]
    scope := .empty
    providers :=
      { clock :=
          { now := fun world => (.nan, world)
            timestamp := fun world => ("", world)
            freshId := fun world => ("", world)
            sleep := fun ms => noting (.sleep ms) () }
        vault := some (shelf [])
        interaction := some fun r => noting (.interaction r) answer } }

/-- A session in which nothing has been called. -/
def fresh : Session (List Called) :=
  { world := [], recorder := { record := { id := "", startTime := "" } } }

theorem writeNote_dismissed :
    let c := drafting " True " none
    (c.AsksFirst ∧ c.Complete ∧ c.Answers fresh false) ∧
      (writeNote c fresh).2.world = [.interaction c.writeRequest] := by
  intro c
  have asks : c.AsksFirst := .inr (by decide)
  have complete : c.Complete := ⟨by decide, by decide⟩
  have dismissed : c.Answers fresh false := ⟨_, none, rfl, rfl, rfl⟩
  refine ⟨⟨asks, complete, dismissed⟩, ?_⟩
  obtain ⟨ms, -, -, -, -, declined⟩ := writeNote_consent c fresh
  obtain ⟨port, offered, -, out⟩ := declined asks complete dismissed
  cases offered
  rw [out]
  rfl

/-- A node that is told neither to write without asking nor to ask in the one word for it does not
ask: it writes the note, though the user would not have agreed. -/
theorem written_unasked :
    let c := drafting "yes" none
    Text.lower (Text.trim (c.property "confirm").toList) ≠ "false".toList ∧
      c.Answers fresh false ∧
      (writeNote c fresh).2.world = [.has "a.md", .writeText "a.md" "c"] :=
  ⟨by decide, ⟨_, none, rfl, rfl, rfl⟩, by with_unfolding_all rfl⟩

end Visit
end Runbook
