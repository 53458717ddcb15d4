import Gatehouse.CommandLine.Usage
import Gatehouse.Initializer.Export
import Gatehouse.Text.ControlSequence
import Gatehouse.Text.Encoding
import Gatehouse.Workflow.Loading

namespace Gatehouse

/-- Why a command breaks off without a message of its own. -/
inductive Crash where
  | load (fault : LoadFault)
  /-- a word of the command cannot be asked for as a path -/
  | path (fault : FileFault)
  | file (fault : FileTree.PathFault)
  | encoding (fault : EncodingFault)
  | emit (fault : EmitFault)
  | unsupported (target : Value)
  | settingsText
  /-- the name of the least level stands for a text or for a table -/
  | levelText
  | levelTable

inductive Ending where
  | done
  | refused
  | misused (fault : UsageFault)
  | crashed (crash : Crash)

/-- The status that a command leaves behind. -/
def Ending.status : Ending → Nat
  | done => 0
  | refused | crashed _ => 1
  | misused _ => 2

/-- What a command printed, how it ended, and the files after it. -/
structure Report where
  output : String
  complaint : String
  ending : Ending
  tree : FileTree

namespace Report

/-- Prints lines up to the first one that cannot be encoded. -/
def printLines : List String → String × Option EncodingFault
  | [] => ("", none)
  | line :: rest =>
    match encodingFault? (plainText line) with
    | some f => ("", some f)
    | none =>
      let (more, fault) := printLines rest
      (plainText line ++ "\n" ++ more, fault)

def ofLines (lines : List String) (t : FileTree) : Report :=
  match printLines lines with
  | (output, none) => ⟨output, "", .done, t⟩
  | (output, some f) => ⟨output, "", .crashed (.encoding f), t⟩

/-- A message on the side, which takes every text. -/
def complaintText (message : String) : String := escapeHalves (plainText message) ++ "\n"

def refuse (message : String) (t : FileTree) : Report :=
  ⟨"", complaintText ("❌ " ++ message), .refused, t⟩

def misuse (fault : UsageFault) (t : FileTree) : Report :=
  ⟨"", complaintText ("Error: " ++ fault.message), .misused fault, t⟩

def crash (c : Crash) (t : FileTree) : Report := ⟨"", "", .crashed c, t⟩

/-- What is wrong with a workflow file is told, unless the fault has no message. -/
def ofLoadFault (f : LoadFault) (t : FileTree) : Report :=
  match f.message? with
  | some message => refuse message t
  | none => crash (.load f) t

/-- Prints lines, then goes on with a report if all of them were printed. -/
def after (lines : List String) (r : Report) : Report :=
  let first := ofLines lines r.tree
  match first.ending with
  | .done => { r with output := first.output ++ r.output }
  | _ => first

end Report

end Gatehouse
