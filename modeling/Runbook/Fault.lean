import Runbook.Text.Base64
import Runbook.Text.Quoted

/-! What can go wrong.

Every failure of the library is one of these causes. The first group belongs to running
workflows, the second to reading text and numbers, the third to values of a shape that the
work at hand cannot use, the fourth to files and to the world outside. -/
namespace Runbook

/-- What a file operation found in its way. -/
inductive FileFault
  | missing
  | isFolder
  | notFolder
  | exists
  | other
deriving DecidableEq, Repr

inductive Fault
  /-- A failure that none of the kinds below describes. -/
  | general (message : String)
  /-- A workflow that cannot be loaded, with the single findings. -/
  | load (message : String) (findings : List String)
  | condition (message : String)
  /-- A node failed while performing its effect. -/
  | node (message : String) (nodeId : Option String)
  /-- The node needs a capability that was not provided. -/
  | unavailable (message : String) (nodeId : Option String)
  /-- A nested run failed. -/
  | nested (message : String) (nodeId : Option String)
  /-- A tool server answered with an error or not readably. -/
  | toolServer (message : String)
  /-- The user dismissed a request or declined. -/
  | declined (message : String)
  /-- A run was reported as cancelled. -/
  | cancelled (message : String)
  | badValue (message : String)
  /-- Data text that does not read; the message says where. -/
  | badData (message : String)
  | badBytes
  /-- A text with characters that its use does not allow. -/
  | notAscii
  | badBase64 (error : Base64.Error)
  /-- A record whose fields have the wrong shape. -/
  | badRecord
  | overflow (message : String)
  | tooDeep
  | wrongType
  | noSuchField
  | noSuchKey (key : String)
  | noSuchIndex
  | file (fault : FileFault) (message : String)
  | connection (message : String)
  /-- A reply that the other side marks as failed, or no reply at all. -/
  | transport (message : String)
  | outside (message : String)
deriving DecidableEq, Repr

namespace Fault

/-- The text a failure is reported with. -/
def message : Fault → String
  | general m | load m _ | condition m | node m _ | unavailable m _ | nested m _ => m
  | toolServer m | declined m | cancelled m | badValue m | badData m | overflow m => m
  | badBytes => "invalid utf-8"
  | notAscii => "text is not ASCII"
  | badBase64 e => e.message
  | badRecord => "invalid record"
  | tooDeep => "nested too deeply"
  | wrongType => "value of the wrong type"
  | noSuchField => "no such field"
  | noSuchKey k => Text.quoted k
  | noSuchIndex => "index out of range"
  | file _ m | connection m | transport m | outside m => m

/-- The failures of reading a text as a value of some kind. -/
def isBadValue : Fault → Bool
  | badValue _ | badData _ | badBytes | notAscii | badBase64 _ | badRecord => true
  | _ => false

/-- The failures of the file system and of connections. -/
def isOutsideSystem : Fault → Bool
  | file .. | connection _ => true
  | _ => false

/-- The failures of a node's own effect. -/
def isNode : Fault → Bool
  | node .. | unavailable .. | nested .. | toolServer _ => true
  | _ => false

/-- The failures that belong to workflows, and not to the program or the system. -/
def isWorkflow : Fault → Bool
  | general _ | load .. | condition _ | declined _ | cancelled _ => true
  | f => f.isNode

/-- The node that a failure names. -/
def nodeId? : Fault → Option String
  | node _ n | unavailable _ n | nested _ n => n
  | _ => none

end Fault
end Runbook
