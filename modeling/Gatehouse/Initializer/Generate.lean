import Gatehouse.Initializer.Class
import Gatehouse.Workflow.Reading

namespace Gatehouse

/-- Why no class can be built from a document. -/
inductive GenerateFault where
  | workflow (fault : WorkflowFault)
  | emit (fault : EmitFault)

def unsupportedMessage (target : Value) : String :=
  "Unsupported target object type: " ++ target.str

def unsupportedRemark (target : Value) : String := "# Error: " ++ unsupportedMessage target

namespace Emitter

def emitChecked (e : Emitter) (p : Profile) (w : Workflow) (college : String) :
    Logged (Except GenerateFault String) :=
  (·.mapError .emit) <$> e.emit p w college

/-- The class for the target that a value names; for anything else only a remark, and the document
is not looked at. -/
def generate (e : Emitter) (document : Value) (college : String) (target : Value) :
    Logged (Except GenerateFault String) :=
  match Profile.ofValue? target with
  | none => do
    Logged.note (.unsupportedTarget target)
    pure (.ok (unsupportedRemark target))
  | some p =>
    match Workflow.ofValue document with
    | .error fault => pure (.error (.workflow fault))
    | .ok w => e.emitChecked p w college

end Emitter

end Gatehouse
