import Gatehouse.CommandLine.Generate
import Gatehouse.CommandLine.Inspect
import Gatehouse.CommandLine.Request

namespace Gatehouse

/-- A run of a command: its report, the events that are shown, and whether they are shown as
data. -/
structure Run where
  report : Report
  shown : List Event
  asData : Bool

def versionText : String := "cli, version 0.1.0"

def helpLines : List String := [
  "Usage: flowinit [OPTIONS] COMMAND [ARGS]...",
  "",
  "  flowinit workflow validate [-v] WORKFLOW_FILE",
  "  flowinit workflow branches [-t TARGET] WORKFLOW_FILE",
  "  flowinit workflow category TARGET",
  "  flowinit generate [-v] initializer -t TARGET [-c COLLEGE] [-o FILE] WORKFLOW_FILE",
  "  flowinit generate [-v] all [-t TARGET]... [-c COLLEGE] [-o DIRECTORY] [-f] WORKFLOW_FILE"]

/-- The least ranks of the level names; names of the layout's own parts are no levels. -/
def leastRanks : List (String × Except Crash Nat) :=
  [("NOTSET", .ok 0), ("DEBUG", .ok 10), ("INFO", .ok 20), ("WARN", .ok 30), ("WARNING", .ok 30),
    ("ERROR", .ok 40), ("CRITICAL", .ok 50), ("FATAL", .ok 50),
    ("BASIC_FORMAT", .error .levelText), ("_STYLES", .error .levelTable)]

/-- The rank that an event needs to be shown; a name that is not known counts as `INFO`. -/
def leastRank (name : String) : Except Crash Nat :=
  (leastRanks.lookup (upperText name)).getD (.ok 20)

/-- Inspects a workflow; nothing that is noted is shown. -/
def runInspection [Yaml.SetOrder] (t : FileTree) : Request → Logged Report
  | .version => return .ofLines [versionText] t
  | .validate file verbose => validateFile t (.ofText file) verbose
  | .branches file target => showBranches t (.ofText file) target
  | .category target => return showCategory t target
  | _ => return .ofLines helpLines t

def runGeneration [Yaml.SetOrder] (t : FileTree) (s : Settings) (verbose : Bool) :
    Request → Logged Report
  | .generateOne file college target output =>
    generateOne t s (.ofText file) college target (output.map .ofText)
  | .generateAll file college targets output force =>
    generateAll t s (.ofText file) college targets (output.map .ofText) force verbose
  | _ => return .ofLines helpLines t

def Run.silent (r : Report) : Run := ⟨r, [], false⟩

/-- Puts lines before what is printed on the side. -/
def Run.warn (lines : List String) (r : Run) : Run :=
  { r with report := { r.report with complaint := unlines lines ++ r.report.complaint } }

def runCommand (t : FileTree) (name : CommandName) (words : List String)
    (run : Request → Logged Report) : Logged Report :=
  match readRequest t.reaches name words with
  | .error (.usage f) => pure (.misuse f t)
  | .error (.path f) => pure (.crash (.path f) t)
  | .ok r => run r

/-- The settings are read before the words behind the name of a command are. -/
def runGenerate [Yaml.SetOrder] (t : FileTree) (env : Environment) (name : CommandName)
    (verbose : Bool) (words : List String) : Run :=
  match Settings.read? env t with
  | none => .silent (.crash .settingsText t)
  | some s => .warn (Settings.warnings t) <|
    match leastRank (if verbose then "DEBUG" else s.logLevel) with
    | .error c => .silent (.crash c t)
    | .ok least =>
      let run := runCommand t name words (runGeneration t s verbose)
      ⟨run.result, run.events.filter fun e => decide (least ≤ e.level.rank),
        s.logFormat == "json"⟩

/-- Runs a command on the files that are there. -/
def runWords [Yaml.SetOrder] (t : FileTree) (env : Environment) (words : List String) : Run :=
  match readStart words with
  | .error f => .silent (.misuse f t)
  | .ok .help => .silent (.ofLines helpLines t)
  | .ok .version => .silent (.ofLines [versionText] t)
  | .ok (.command name verbose words) =>
    match name with
    | .generateOne | .generateAll => runGenerate t env name verbose words
    | _ => .silent (runCommand t name words (runInspection t)).result

/-- The files that a request would write. -/
def Request.outputs (s : Settings) : Request → List Pathname
  | .generateOne _ _ _ output => output.toList.map .ofText
  | .generateAll _ college _ output _ =>
    match chooseCollege college s with
    | .error _ => []
    | .ok college =>
      let directory := (output.map Pathname.ofText).getD (.ofText s.outputDir)
      Target.all.map fun t => (Profile.ofTarget t).path directory college
  | _ => []

/-- The files that a command would write. -/
def outputsOf (t : FileTree) (env : Environment) (words : List String) : List Pathname :=
  match readStart words, Settings.read? env t with
  | .ok (.command name _ words), some s =>
    match readRequest t.reaches name words with
    | .ok r => r.outputs s
    | .error _ => []
  | _, _ => []

end Gatehouse
