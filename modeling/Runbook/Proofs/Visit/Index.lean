import Runbook.Proofs.Visit.Consent
import Runbook.Visit.Host

/-! Keeping an index in step with a note.

A node that lacks anything it is told in its properties, or the index itself, does nothing. One that
has all of it takes the old entry out before it asks for the note that it is to put in. So where
there is no vault, or the note is not there or cannot be read, the node fails with the old entry
gone and nothing in its place: the index is as it was just where the node has no old path
(`syncIndex_unreplaced`). -/
namespace Runbook

open Visit

variable {σ : Type}

/-! ### What a node is told -/

namespace Context

variable (c : Context σ)

/-- The path of a note that a property names. -/
def noted (name : String) : Option String :=
  if (c.trimmed name).isEmpty then none else some (Notes.path (c.trimmed name))

/-- The index that the node is about. -/
def indexSetting : String := c.trimmed "ragSetting"

/-- Where the node takes an entry out. -/
def deletes : List Called :=
  (c.noted "oldPath").toList.map fun old => .delete c.indexSetting old

/-- The node names a note to be put in or one to be taken out, and where, and there is an index. -/
structure Syncs (index : IndexProvider σ) : Prop where
  named : (c.noted "path").isSome = true ∨ (c.noted "oldPath").isSome = true
  setting : c.indexSetting.isEmpty = false
  offered : c.providers.index = some index

/-- Why a note cannot be had in a world: there is no vault, or the vault fails, or it has no such
note, or the note cannot be read. -/
inductive Lacks (path : String) (world : σ) : Fault → Prop
  | vault (missing : c.providers.vault = none) :
    Lacks path world (.unavailable "No 'vault' provider configured" (some c.node.id))
  | unknown {vault : VaultProvider σ} {f : Fault} (offered : c.providers.vault = some vault)
    (raised : (vault.has path world).result = .raised f) : Lacks path world f
  | absent {vault : VaultProvider σ} (offered : c.providers.vault = some vault)
    (gone : (vault.has path world).result = .returned false) :
    Lacks path world (c.fault ("Note not found: " ++ path))
  | unread {vault : VaultProvider σ} {f : Fault} (offered : c.providers.vault = some vault)
    (there : (vault.has path world).result = .returned true)
    (raised : (vault.readText path (vault.has path world).world).result = .raised f) :
    Lacks path world f

/-- The text of a note that can be had in a world. -/
def Has (path : String) (world : σ) (content : String) : Prop :=
  ∃ vault, c.providers.vault = some vault ∧ (vault.has path world).result = .returned true ∧
    (vault.readText path (vault.has path world).world).result = .returned content

end Context

/-- A call that changes an index. -/
inductive Called.OnIndex : Called → Prop
  | upload (setting path content : String) : OnIndex (.upload setting path content)
  | delete (setting path : String) : OnIndex (.delete setting path)

namespace Visit

open Act (Calls)

variable {c : Context σ} {index : IndexProvider σ} {s s₁ : Session σ} {path : String}

/-! ### The parts of the node -/

/-- The old entry is taken out, if there is one; it says whether that was done. -/
def takeOut (c : Context σ) (index : IndexProvider σ) : Act σ Bool :=
  match c.noted "oldPath" with
  | some old => (Act.call (index.delete c.indexSetting old)).succeeds
  | none => pure false

def fetch (c : Context σ) (path : String) : Act σ String :=
  c.vault >>= fun vault => existing c vault "Note" path

/-- The note is put in, if there is one. -/
def putIn (c : Context σ) (index : IndexProvider σ) : Act σ (Option Indexed) :=
  match c.noted "path" with
  | some path => indexNote c index c.indexSetting path >>= fun indexed => pure (some indexed)
  | none => pure none

/-- What the node says once the index is in step. -/
def synced (c : Context σ) (deleted : Bool) (indexed : Option Indexed) (time : Value) : Outcome :=
  let mode := if indexed.isNone then "delete"
    else if (c.noted "oldPath").isSome then "rename" else "sync"
  let checksum := match indexed with
    | some i => [("checksum", .str i.checksum)]
    | none => []
  let v : Value := .record
    ([("path", .opt (c.noted "path")), ("oldPath", .opt (c.noted "oldPath")),
      ("deletedOldPath", .bool deleted), ("fileId", .opt (indexed.map (·.fileId))),
      ("ragSetting", .str c.indexSetting), ("mode", .str mode)] ++ checksum ++ [("syncedAt", time)])
  { output := v, writes := c.writes [("saveTo", v)] }

theorem noted_isSome (name : String) :
    (c.noted name).isSome = true ↔ (c.trimmed name).isEmpty = false := by
  unfold Context.noted
  cases (c.trimmed name).isEmpty <;> simp

theorem syncIndex_eq (syncs : c.Syncs index) :
    syncIndex c = takeOut c index >>= fun deleted => putIn c index >>= fun indexed =>
      present c >>= fun time => pure (synced c deleted indexed time) := by
  have named := syncs.named
  rw [noted_isSome, noted_isSome] at named
  have setting := syncs.setting
  unfold Context.indexSetting at setting
  unfold syncIndex takeOut putIn synced Context.noted Context.indexSetting
  rcases Bool.eq_false_or_eq_true (c.trimmed "oldPath").isEmpty with old | old <;>
    rcases Bool.eq_false_or_eq_true (c.trimmed "path").isEmpty with new | new
  · rw [old, new] at named
    exact absurd named (by decide)
  all_goals
    simp only [old, new, setting, Context.require, syncs.offered, bind_assoc, pure_bind,
      Bool.false_eq_true, if_false, if_true]
    rfl

theorem indexNote_eq (setting path : String) :
    indexNote c index setting path = fetch c path >>= fun content =>
      Act.call (index.upload setting path content) >>= fun fileId =>
        pure ⟨Digest.hexDigest (Text.encode content), fileId⟩ := by
  unfold indexNote fetch
  rw [bind_assoc]

/-! ### The calls of the parts -/

theorem calls_takeOut (offered : c.providers.index = some index) :
    Calls c.providers (takeOut c index) s c.deletes := by
  unfold takeOut Context.deletes
  cases c.noted "oldPath" with
  | none => exact .pure false
  | some old => exact (Calls.one (.index offered (.delete _ old))).succeeds

theorem vault_none (missing : c.providers.vault = none) :
    c.vault = Act.fail (.unavailable "No 'vault' provider configured" (some c.node.id)) := by
  unfold Context.vault Context.require
  rw [missing]
  rfl

theorem fetch_eq {vault : VaultProvider σ} (offered : c.providers.vault = some vault) :
    fetch c path = Act.call (vault.has path) >>= fun there =>
      if there then Act.call (vault.readText path)
      else c.fail ("Note not found: " ++ path) := by
  unfold fetch Context.vault Context.require existing
  rw [offered, pure_bind]
  refine congrArg (Act.call (vault.has path) >>= ·) (funext fun there => ?_)
  cases there <;> rfl

theorem calls_present : Calls c.providers (present c) s [] :=
  .bind ⟨[], .now s, rfl⟩ fun _ _ => (Calls.ofExcept _).bind fun _ _ => .pure _

/-- What is asked of the vault before the note is had or found lacking. -/
def Looks (path : String) (called : List Called) : Prop :=
  called <+: [.has path, .readText path]

theorem calls_has {vault : VaultProvider σ} (offered : c.providers.vault = some vault) :
    Calls c.providers (Act.call (vault.has path)) s [.has path] :=
  .one (.vault offered (.has path))

theorem calls_readText {vault : VaultProvider σ} (offered : c.providers.vault = some vault) :
    Calls c.providers (Act.call (vault.readText path)) s [.readText path] :=
  .one (.vault offered (.readText path))

theorem fetch_lacks {f : Fault} (lacks : c.Lacks path s.world f) :
    ∃ s₁ called, fetch c path s = (.error (.fault f), s₁) ∧ Looks path called ∧
      Calls c.providers (fetch c path) s called := by
  cases lacks with
  | vault missing =>
    rw [fetch, vault_none missing]
    exact ⟨s, [], rfl, List.nil_prefix, .halts (.fail _) rfl⟩
  | @unknown vault f offered raised =>
    have failed := Act.call_raised raised
    rw [fetch_eq offered]
    refine ⟨Act.after (vault.has path) s, [.has path], ?_, ⟨_, rfl⟩, (calls_has offered).halts failed⟩
    rw [Act.bind_apply, failed]
  | @absent vault offered gone =>
    have answered := Act.call_eq_ok.mpr ⟨gone, rfl⟩
    rw [fetch_eq offered]
    refine ⟨Act.after (vault.has path) s, [.has path] ++ [], ?_, ⟨_, rfl⟩,
      (calls_has offered).andThen answered (.fail _)⟩
    rw [Act.bind_apply, answered]
    rfl
  | @unread vault f offered there raised =>
    have answered := Act.call_eq_ok.mpr ⟨there, rfl⟩
    rw [fetch_eq offered]
    refine ⟨Act.after (vault.readText path) (Act.after (vault.has path) s),
      [.has path] ++ [.readText path], ?_, ⟨[], rfl⟩,
      (calls_has offered).andThen answered (calls_readText offered)⟩
    rw [Act.bind_apply, answered]
    exact Act.call_raised raised

theorem fetch_has {content : String} (has : c.Has path s.world content) :
    ∃ s₁, fetch c path s = (.ok content, s₁) ∧
      Calls c.providers (fetch c path) s [.has path, .readText path] := by
  obtain ⟨vault, offered, there, text⟩ := has
  have answered := Act.call_eq_ok.mpr ⟨there, rfl⟩
  rw [fetch_eq offered]
  refine ⟨Act.after (vault.readText path) (Act.after (vault.has path) s), ?_,
    (calls_has offered).andThen answered (calls_readText offered)⟩
  rw [Act.bind_apply, answered]
  exact Act.call_eq_ok.mpr ⟨text, rfl⟩

/-! ### The node -/

/-- A node that lacks anything it is told in its properties, or the index, does nothing. -/
theorem syncIndex_fails (lacking : ¬ ∃ index, c.Syncs index) : ∃ f, syncIndex c = Act.fail f := by
  unfold syncIndex
  cases unnamed : (c.noted "path").isNone && (c.noted "oldPath").isNone with
  | true =>
    unfold Context.noted at unnamed
    simp only [unnamed]
    exact ⟨_, rfl⟩
  | false =>
    cases blank : c.indexSetting.isEmpty with
    | true =>
      unfold Context.noted at unnamed
      unfold Context.indexSetting at blank
      simp only [unnamed, blank]
      exact ⟨_, rfl⟩
    | false =>
      cases offered : c.providers.index with
      | some index =>
        have named := (Bool.and_eq_false_iff.mp unnamed).imp Option.isNone_eq_false_iff.mp
          Option.isNone_eq_false_iff.mp
        exact absurd ⟨index, named, blank, offered⟩ lacking
      | none =>
        unfold Context.noted at unnamed
        unfold Context.indexSetting at blank
        simp only [unnamed, blank, Context.require]
        exact ⟨_, rfl⟩

theorem not_onIndex_of_looks {called : List Called} (looks : Looks path called) :
    ∀ e ∈ called, ¬ e.OnIndex := by
  intro e there
  have among := looks.subset there
  simp only [List.mem_cons, List.not_mem_nil, or_false] at among
  rcases among with rfl | rfl <;> exact nofun

theorem syncIndex_lacks (syncs : c.Syncs index) (given : c.noted "path" = some path)
    {deleted : Bool} (out : takeOut c index s = (.ok deleted, s₁)) {f : Fault}
    (lacks : c.Lacks path s₁.world f) :
    (syncIndex c s).1 = .error (.fault f) ∧
      ∃ looks, Looks path looks ∧ Calls c.providers (syncIndex c) s (c.deletes ++ looks) := by
  obtain ⟨s₂, looks, failed, only, called⟩ := fetch_lacks lacks
  have put : putIn c index s₁ = (.error (.fault f), s₂) := by
    simp only [putIn, given, indexNote_eq, Act.bind_apply, failed]
  have looked : Calls c.providers (putIn c index) s₁ looks := by
    simp only [putIn, given, indexNote_eq]
    rw [bind_assoc]
    exact called.halts failed
  rw [syncIndex_eq syncs]
  constructor
  · rw [Act.bind_apply, out]
    dsimp only
    rw [Act.bind_apply, put]
  · exact ⟨looks, only, (calls_takeOut syncs.offered).andThen out (looked.halts put)⟩

theorem syncIndex_has (syncs : c.Syncs index) (given : c.noted "path" = some path)
    {deleted : Bool} (out : takeOut c index s = (.ok deleted, s₁)) {content : String}
    (has : c.Has path s₁.world content) :
    Calls c.providers (syncIndex c) s (c.deletes ++
      [.has path, .readText path, .upload c.indexSetting path content]) := by
  obtain ⟨s₂, came, called⟩ := fetch_has has
  have put : Calls c.providers (putIn c index) s₁
      ([.has path, .readText path] ++ [.upload c.indexSetting path content]) := by
    simp only [putIn, given, indexNote_eq]
    rw [bind_assoc]
    refine called.andThen came ?_
    rw [bind_assoc]
    exact (Calls.one (.index syncs.offered (.upload ..))).bind fun _ _ => .pure _
  rw [syncIndex_eq syncs]
  refine (calls_takeOut syncs.offered).andThen out (put.bind fun indexed s => ?_)
  exact calls_present.bind fun _ _ => .pure _

theorem deletes_onIndex : ∀ e ∈ c.deletes, e.OnIndex := by
  intro e there
  obtain ⟨old, -, rfl⟩ := List.mem_map.mp there
  exact .delete _ old

/-- A node does nothing where it lacks what it is told in its properties, or the index. Else it takes
the old entry out first, if it has an old path. A note that it can have then it puts in; where the
note cannot be had it fails, with nothing put in. So such a failure leaves the index as it was just
where the node has no old path. -/
theorem syncIndex_unreplaced (c : Context σ) (s : Session σ) :
    ((¬ ∃ index, c.Syncs index) →
      Calls c.providers (syncIndex c) s [] ∧ ∃ f, syncIndex c s = (.error (.fault f), s)) ∧
    ∀ {index path deleted s₁}, c.Syncs index → c.noted "path" = some path →
      takeOut c index s = (.ok deleted, s₁) →
        (∀ content, c.Has path s₁.world content → Calls c.providers (syncIndex c) s
          (c.deletes ++ [.has path, .readText path, .upload c.indexSetting path content])) ∧
        ∀ f, c.Lacks path s₁.world f → (syncIndex c s).1 = .error (.fault f) ∧
          ∃ looks, Looks path looks ∧ Calls c.providers (syncIndex c) s (c.deletes ++ looks) ∧
            ((∀ e ∈ c.deletes ++ looks, ¬ e.OnIndex) ↔ c.noted "oldPath" = none) := by
  refine ⟨fun lacking => ?_, fun syncs given out => ⟨fun content => syncIndex_has syncs given out,
    fun f lacks => ?_⟩⟩
  · obtain ⟨f, refused⟩ := syncIndex_fails lacking
    rw [refused]
    exact ⟨.fail f, f, rfl⟩
  · obtain ⟨fails, looks, only, called⟩ := syncIndex_lacks syncs given out lacks
    refine ⟨fails, looks, only, called, fun untouched => ?_, fun none => ?_⟩
    · cases old : c.noted "oldPath" with
      | none => rfl
      | some old' =>
        have there : Called.delete c.indexSetting old' ∈ c.deletes := by
          rw [Context.deletes, old]
          exact List.mem_singleton.mpr rfl
        exact absurd (deletes_onIndex _ there) (untouched _ (List.mem_append_left _ there))
    · rw [Context.deletes, none]
      exact not_onIndex_of_looks only

/-- An index that takes every note in and out. -/
def register : IndexProvider (List Called) :=
  { upload := fun setting path text => noting (.upload setting path text) "1"
    delete := fun setting path => noting (.delete setting path) () }

/-- A node that puts a note into that index, in the place of an old one. -/
def moving (old : String) (notes : List (String × String)) : Context (List Called) :=
  { node := { id := "r", kind := "rag-sync" }
    properties := [("path", "new"), ("oldPath", old), ("ragSetting", "main")]
    scope := .empty
    providers := { (drafting "" none).providers with
      vault := some (shelf notes)
      index := some register } }

/-- What a node with both paths is told. -/
theorem moving_told (notes : List (String × String)) :
    (moving "old" notes).Syncs register ∧ (moving "old" notes).noted "path" = some "new.md" ∧
      (moving "old" notes).indexSetting = "main" ∧
      (moving "old" notes).deletes = [.delete "main" "old.md"] ∧
      takeOut (moving "old" notes) register fresh =
        (.ok true, Act.after (noting (.delete "main" "old.md") ()) fresh) := by
  have told (name : String) : (moving "old" notes).trimmed name = (moving "old" []).trimmed name :=
    rfl
  have given : (moving "old" notes).noted "path" = some "new.md" := by
    rw [Context.noted, told]
    decide +kernel
  have old : (moving "old" notes).noted "oldPath" = some "old.md" := by
    rw [Context.noted, told]
    decide +kernel
  have setting : (moving "old" notes).indexSetting = "main" := by
    rw [Context.indexSetting, told]
    decide
  refine ⟨⟨.inl (by rw [given]; rfl), by rw [setting]; decide, rfl⟩, given, setting, ?_, ?_⟩
  · rw [Context.deletes, old, setting]
    rfl
  · rw [takeOut, old, setting]
    rfl

theorem syncIndex_unreplaced_moving :
    let kept := moving "" []
    let moved := moving "old" [("new.md", "text")]
    let behind := Act.after (noting (.delete "main" "old.md") ()) fresh
    (kept.Syncs register ∧ kept.noted "path" = some "new.md" ∧
        takeOut kept register fresh = (.ok false, fresh) ∧
        kept.Lacks "new.md" fresh.world (kept.fault "Note not found: new.md") ∧
        (∃ looks, Calls kept.providers (syncIndex kept) fresh looks ∧ ∀ e ∈ looks, ¬ e.OnIndex)) ∧
      moved.Syncs register ∧ moved.noted "path" = some "new.md" ∧
        takeOut moved register fresh = (.ok true, behind) ∧
        moved.Has "new.md" behind.world "text" ∧
        Calls moved.providers (syncIndex moved) fresh
          [.delete "main" "old.md", .has "new.md", .readText "new.md",
            .upload "main" "new.md" "text"] := by
  intro kept moved behind
  constructor
  · have given : kept.noted "path" = some "new.md" := by decide +kernel
    have old : kept.noted "oldPath" = none := by decide
    have syncs : kept.Syncs register := ⟨.inl (by decide), by decide, rfl⟩
    have out : takeOut kept register fresh = (.ok false, fresh) := by
      rw [takeOut, old]
      rfl
    have lacks : kept.Lacks "new.md" fresh.world (kept.fault "Note not found: new.md") :=
      .absent rfl rfl
    obtain ⟨-, fails⟩ := (syncIndex_unreplaced kept fresh).2 syncs given out
    obtain ⟨-, looks, -, called, untouched⟩ := fails _ lacks
    exact ⟨syncs, given, out, lacks, _, called, untouched.mpr old⟩
  · obtain ⟨syncs, given, setting, deletes, out⟩ := moving_told [("new.md", "text")]
    have has : moved.Has "new.md" behind.world "text" := ⟨_, rfl, rfl, rfl⟩
    obtain ⟨puts, -⟩ := (syncIndex_unreplaced moved fresh).2 syncs given out
    have called := puts _ has
    rw [deletes, setting] at called
    exact ⟨syncs, given, out, has, called⟩

/-- The old entry is taken out for a note that is not there. -/
theorem syncIndex_drops :
    let c := moving "old" []
    (syncIndex c fresh).1 = .error (.fault (c.fault "Note not found: new.md")) ∧
      ∃ looks, Looks "new.md" looks ∧
        Calls c.providers (syncIndex c) fresh (.delete "main" "old.md" :: looks) := by
  intro c
  obtain ⟨syncs, given, -, deletes, out⟩ := moving_told []
  have lacks : c.Lacks "new.md" (Act.after (noting (.delete "main" "old.md") ()) fresh).world
      (c.fault "Note not found: new.md") := .absent rfl rfl
  obtain ⟨fails, looks, only, called⟩ := syncIndex_lacks syncs given out lacks
  rw [deletes] at called
  exact ⟨fails, looks, only, called⟩

end Visit
end Runbook
