import Runbook.Generation
import Runbook.History
import Runbook.Host.Shell
import Runbook.Interaction.Console
import Runbook.Session
import Runbook.Settings
import Runbook.ToolServer
import Runbook.Vault
import Runbook.Workflow.File

/-! A workstation: what a run finds where it is started.

There are files, a terminal and the time; other machines are not reached, no time passes, and
commands of the host end at once and say nothing. Waits are added up instead. -/
namespace Runbook

structure Workstation where
  tree : FileTree := {}
  /-- The current folder. -/
  folder : Location := []
  terminal : Interaction.Terminal := {}
  now : Number.Binary64 := .ofInt 0
  /-- The time as it is written in records. -/
  timestamp : String := ""
  /-- The id of the next record. -/
  recordId : String := ""
  /-- The milliseconds of all waits. -/
  waited : Int := 0

namespace Workstation

/-! ### Places and the terminal -/

/-- The place that a path leads to from the current folder. -/
def placeOf (w : Workstation) (path : String) : Location :=
  let p := Path.ofText path
  FileTree.lead (if p.isAbsolute then [] else w.folder) p.names

/-- Shows a line. -/
def say (w : Workstation) (s : String) : Workstation :=
  { w with terminal := { w.terminal with shown := .line s :: w.terminal.shown } }

/-! ### The vault -/

/-- Reads something in the vault below a place. -/
def inVault {α : Type} (root : Location) (read : Vault → Except Fault α) :
    Call Workstation α := fun w =>
  match read ⟨root, w.tree⟩ with
  | .ok a => { world := w, result := .returned a }
  | .error f => { world := w, result := .raised f }

/-- Changes the vault below a place. -/
def changeVault (root : Location) (change : Vault → Except Fault Vault) :
    Call Workstation Unit := fun w =>
  match change ⟨root, w.tree⟩ with
  | .ok v => { world := { w with tree := v.tree }, result := .returned () }
  | .error f => { world := w, result := .raised f }

def vault (root : Location) (now : Number.Binary64) : VaultProvider Workstation :=
  { readText := fun path => inVault root (·.readText path)
    readBytes := fun path => inVault root (·.readBytes path)
    writeText := fun path s => changeVault root (·.writeText path s)
    writeBytes := fun path content => changeVault root (·.writeBytes path content)
    has := fun path => inVault root (·.has path)
    listFiles := inVault root (·.listFiles "" true)
    listFolders := inVault root (·.listFolders "")
    times := fun path => inVault root fun v => (v.size path).map fun _ => ⟨now, now⟩
    tags := fun path => inVault root (·.tags path) }

/-! ### Other machines -/

def unreachable {α : Type} : Call Workstation α := fun w =>
  { world := w, result := .raised (.transport "All connection attempts failed") }

def send (_ : Http.Request) : Call Workstation Http.Response := unreachable

/-! ### The user, the host and the history -/

/-- Has a dialogue on the terminal. -/
def converse (q : Interaction.Request) : Call Workstation (Option Interaction.Response) :=
  fun w =>
    let (r, terminal) := (Interaction.Dialogue.answer q).run w.terminal
    { world := { w with terminal }
      result := match r with
        | .ok response => .returned response
        | .error f => .raised f }

/-- Runs a line of the host, if there is one. -/
def runLine (shell : Shell) (line : Option Shell.Line) : Call Workstation Unit := fun w =>
  match line.map fun line => (shell.run line (.exited 0 [] [])).2 with
  | some (.error (.fault f)) => { world := w, result := .raised f }
  | _ => { world := w, result := .returned () }

def host (shell : Shell) : HostProvider Workstation :=
  { openFile := fun path => runLine shell (shell.opening path)
    execute := fun id path w =>
      match shell.lineOf id path with
      | .ok line => runLine shell (some line) w
      | .error f => { world := w, result := .raised f }
    writeClipboard := fun text => runLine shell (shell.copying text) }

/-- Keeps a record in a folder; even where that fails the folder may have changed. -/
def keep (folder : Location) (r : Record) (w : Workstation) : Option Fault × Workstation :=
  let (result, h) := (History.mk folder w.tree).save r
  let failure := match result with
    | .ok _ => none
    | .error f => some f
  (failure, { w with tree := h.tree })

/-! ### Providers -/

def clock : Clock Workstation :=
  { now := fun w => (w.now, w)
    timestamp := fun w => (w.timestamp, w)
    freshId := fun w => (w.recordId, w)
    sleep := fun ms w => { world := { w with waited := w.waited + ms }, result := .returned () } }

/-- Finds workflows below a folder. -/
def workflows (base path : String) (name : Option String) : Call Workstation Workflow := fun w =>
  match Workflow.find w.tree w.folder (Path.ofText base) path name with
  | .ok found => { world := w, result := .returned found }
  | .error f => { world := w, result := .raised f }

/-- What the nodes of a run can ask for, with a vault and maybe a history at paths. -/
def providers (w : Workstation) (settings : Settings) (vaultFolder : String)
    (historyFolder : Option String) : Providers Workstation :=
  { clock
    model := settings.modelKey.map fun _ =>
      Generation.generate (fun _ => unreachable) settings.modelName
    http := some (Http.request send)
    tools := some (ToolServer.callTool send)
    vault := some (vault (w.placeOf vaultFolder) w.now)
    workflows := some (workflows vaultFolder)
    interaction := some converse
    host := some (host
      { clipboard := settings.clipboardCommand, timeout := .float settings.shellTimeout })
    history := historyFolder.map fun path => keep (w.placeOf path) }

end Workstation
end Runbook
