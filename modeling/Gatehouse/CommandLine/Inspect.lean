import Gatehouse.Branch.Discovery
import Gatehouse.CommandLine.Report
import Gatehouse.Condition.Compile
import Gatehouse.Initializer.Profile

namespace Gatehouse

def textOrNone (s : Option String) : String := s.getD "None"

/-- The title of a step, its type, and the token that marks it as completed. -/
def stepLine (s : Step) : String :=
  let title := s.title.getD ""
  "  • " ++ (if title = "" then "(untitled)" else title) ++ " [" ++ textOrNone s.stepType ++ "] -> "
    ++ s.completionToken?.getD "-"

/-- The declared conditions that have no expression. -/
def uncompiledNames (w : Workflow) : Compiling (List String) := do
  let compiled ← w.conditions.entries.mapM fun (name, c) => return (name, ← c.compile)
  return (compiled.filter fun c => c.2.isNone).map Prod.fst

/-- Reads a workflow file and tells what is in it. -/
def validateFile [Yaml.SetOrder] (t : FileTree) (file : Pathname) (verbose : Bool) :
    Logged Report := do
  match ← Workflow.loadFile t file with
  | .error f => return .ofLoadFault f t
  | .ok w =>
    let counts := ["✅ Valid workflow: " ++ file.name, "   Steps: " ++ toString w.steps.length,
      "   Conditions: " ++ toString w.conditions.size]
    match ← (uncompiledNames w).run with
    | .error f => return (Report.crash (.emit (.value f)) t).after counts
    | .ok uncompiled =>
      let warning := if uncompiled.isEmpty then []
        else ["⚠️  Conditions that cannot be compiled: " ++ commaSeparated uncompiled]
      return .ofLines (counts ++ warning ++ (if verbose then w.steps.map stepLine else [])) t

def branchLines (name : String) (b : Branch) : List String :=
  ("  • " ++ name) :: b.steps.map (fun s => "      step: " ++ textOrNone s.step.title)
    ++ b.states.map ("      completes: " ++ ·)

/-- Reads a workflow file and tells its branches, for a target only those among its steps. -/
def showBranches [Yaml.SetOrder] (t : FileTree) (file : Pathname) (target : Option Target) :
    Logged Report := do
  match ← Workflow.loadFile t file with
  | .error f => return .ofLoadFault f t
  | .ok w =>
    let steps := match target with
      | some target => (Profile.ofTarget target).selectSteps w
      | none => w.placedSteps
    let found ← discoverBranches Heuristic.defaults steps
    if found.isEmpty then return .ofLines ["📭 No conditional branches found"] t
    else
      let head := "🔀 Conditional branches (" ++ toString found.length ++ "):"
      return .ofLines (head :: found.flatMap fun (name, b) => branchLines name b) t

def showCategory (t : FileTree) (target : Target) : Report :=
  .ofLines [(Profile.ofTarget target).category] t

end Gatehouse
