import Gatehouse.FileTree.Basic
import Gatehouse.Initializer.Generate

namespace Gatehouse

/-- Why the writing of classes stopped. -/
inductive ExportFault where
  | unsupported (target : Value)
  | emit (fault : EmitFault)
  | file (fault : FileTree.WriteFault)

/-- The files after classes were written, and for each target where its class is, or why the
writing stopped. -/
structure Export where
  tree : FileTree
  outcome : Except ExportFault (List (Target × Pathname))

/-- Notes where a target's class is; a target that is there keeps its place. -/
def recordWritten (target : Target) (path : Pathname) (written : List (Target × Pathname)) :
    List (Target × Pathname) :=
  if written.any fun w => w.1 == target then written else written ++ [(target, path)]

namespace Profile

def path (p : Profile) (directory : Pathname) (college : String) : Pathname :=
  directory.join (.ofText (p.fileName college))

end Profile

namespace Emitter

/-- Writes the class for each target in turn, up to the first fault. -/
def writeClasses (e : Emitter) (w : Workflow) (college : String) (directory : Pathname) :
    List Value → List (Target × Pathname) → FileTree → Logged Export
  | [], written, t => pure ⟨t, .ok written⟩
  | target :: rest, written, t =>
    match Profile.ofValue? target with
    | none => pure ⟨t, .error (.unsupported target)⟩
    | some p => do
      let path := p.path directory college
      match ← e.emit p w college with
      | .error fault => pure ⟨t, .error (.emit fault)⟩
      | .ok code =>
        match t.write path (code ++ "\n") with
        | (t, .error fault) => pure ⟨t, .error (.file fault)⟩
        | (t, .ok ()) =>
          Logged.note (.initializerWritten p.target path.text)
          e.writeClasses w college directory rest (recordWritten p.target path written) t

/-- Writes a file for each target into a directory; without targets for all of them. -/
def exportTo (e : Emitter) (w : Workflow) (college : String) (directory : Pathname)
    (targets : List Value) (t : FileTree) : Logged Export :=
  match t.ensureDirectories directory with
  | .error fault => pure ⟨t, .error (.file (.path fault))⟩
  | .ok t =>
    let targets := if targets.isEmpty then Target.all.map fun t => Value.text t.name else targets
    e.writeClasses w college directory targets [] t

end Emitter

end Gatehouse
