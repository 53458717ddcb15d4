import Gatehouse.FileTree.Basic
import Gatehouse.Logged
import Gatehouse.Text.Lines
import Gatehouse.Workflow.Reading
import Gatehouse.Yaml.Document

namespace Gatehouse

/-- Why a text or a file gives no workflow. -/
inductive LoadFault where
  | unreadable (fault : FileTree.PathFault)
  | notUnicode
  | text (fault : Yaml.Fault)
  | notMapping (kind : String)
  | workflow (fault : WorkflowFault)

/-- What a user is told; faults without a message end the program. -/
def LoadFault.message? : LoadFault → Option String
  | unreadable f =>
    f.fault.number?.map fun _ =>
      "Cannot read workflow file " ++ f.path.text ++ ": " ++ f.message
  | text .malformed => some "Invalid workflow document"
  | notMapping kind => some ("Workflow document must be a mapping, got " ++ kind)
  | workflow (.issues _) => some "Workflow validation error"
  | _ => none

namespace Workflow

/-- Nothing stands for an empty workflow, and a list for its steps. -/
def documentEntries (v : Value) : Except LoadFault (List (Value × Value)) :=
  match v.opened with
  | .null => .ok []
  | .list _ => .ok [(.text "workflow", v)]
  | .map entries => .ok entries
  | _ => .error (.notMapping v.kind)

def ofDocument (v : Value) : Except LoadFault Workflow := do
  (ofValue (.map (← documentEntries v))).mapError .workflow

def ofText [Yaml.SetOrder] (text : String) : Except LoadFault Workflow := do
  ofDocument (← (Yaml.load text).mapError .text)

/-- Notes that a workflow has been read. -/
def loaded (r : Except LoadFault Workflow) : Logged (Except LoadFault Workflow) := do
  match r with
  | .ok w => Logged.note (.workflowParsed w.steps.length w.conditions.keys)
  | .error _ => pure ()
  return r

def load [Yaml.SetOrder] (text : String) : Logged (Except LoadFault Workflow) :=
  loaded (ofText text)

/-- The text of a file, with line feeds as line ends. -/
def textOf (content : ByteArray) : Except LoadFault String :=
  match decodeText? content with
  | some text => .ok (String.ofList (normalizeNewlines text.toList))
  | none => .error .notUnicode

def loadFile [Yaml.SetOrder] (t : FileTree) (p : Pathname) :
    Logged (Except LoadFault Workflow) :=
  loaded do
    let content ← (t.read p).mapError fun f => .unreadable ⟨f, p⟩
    ofText (← textOf content)

end Workflow

end Gatehouse
