import Runbook.Fault
import Runbook.Entries
import Runbook.Number.Numeral
import Runbook.Text.Case

/-! Settings, from the environment. -/
namespace Runbook

/-- The variables of an environment. -/
abbrev Environment := List (String × String)

/-! ### Logging -/

/-- The levels that can be asked for by name. -/
def logLevels : List (String × Nat) := [("CRITICAL", 50), ("FATAL", 50), ("ERROR", 40),
  ("WARNING", 30), ("WARN", 30), ("INFO", 20), ("DEBUG", 10), ("NOTSET", 0)]

/-- The level for a name in any case; an unknown one is that for information. -/
def logLevel (name : String) : Nat := (Entries.get? (Text.uppered name) logLevels).getD 20

/-- The level that is asked for, or else the one of the environment. -/
def logLevelIn (level : Option String) (env : Environment) : Nat :=
  match level.filter (!·.isEmpty) with
  | some level => logLevel level
  | none => logLevel ((Entries.get? "LOG_LEVEL" env).getD "INFO")

/-! ### Settings -/

structure Settings where
  logLevel : String := "INFO"
  vaultFolder : String := "."
  historyFolder : String := "./.vaultflow_history"
  /-- The key to the model; without one there is no model. -/
  modelKey : Option String := none
  modelName : String := "gemini-2.5-flash"
  /-- Seconds to wait for a reply. -/
  httpTimeout : Number.Binary64 := .ofInt 30
  /-- Seconds to wait for a command of the host. -/
  shellTimeout : Number.Binary64 := .ofInt 30
  clipboardCommand : String := ""

namespace Settings

/-- The variables that settings come from. -/
def names : List String := ["LOG_LEVEL", "VAULTFLOW_VAULT_DIR", "VAULTFLOW_HISTORY_DIR",
  "GEMINI_API_KEY", "GEMINI_MODEL_NAME", "VAULTFLOW_HTTP_TIMEOUT", "VAULTFLOW_SHELL_TIMEOUT",
  "VAULTFLOW_CLIPBOARD_COMMAND"]

/-- A number of seconds from the environment. -/
def seconds (env : Environment) (name : String) (default : Number.Binary64) :
    Except Fault Number.Binary64 :=
  match (Entries.get? name env).filter (!·.isEmpty) with
  | none => .ok default
  | some s =>
    match Number.float? s.toList with
    | some x => .ok x
    | none => .error (.badValue (name ++ " must be a number, got '" ++ s ++ "'"))

def ofEnvironment (env : Environment) : Except Fault Settings := do
  let get := fun (name default : String) => (Entries.get? name env).getD default
  let none : Settings := {}
  return {
    logLevel := Text.uppered (get "LOG_LEVEL" none.logLevel)
    vaultFolder := get "VAULTFLOW_VAULT_DIR" none.vaultFolder
    historyFolder := get "VAULTFLOW_HISTORY_DIR" none.historyFolder
    modelKey := (Entries.get? "GEMINI_API_KEY" env).filter (!·.isEmpty)
    modelName := get "GEMINI_MODEL_NAME" none.modelName
    httpTimeout := ← seconds env "VAULTFLOW_HTTP_TIMEOUT" none.httpTimeout
    shellTimeout := ← seconds env "VAULTFLOW_SHELL_TIMEOUT" none.shellTimeout
    clipboardCommand := get "VAULTFLOW_CLIPBOARD_COMMAND" none.clipboardCommand }

end Settings
end Runbook
