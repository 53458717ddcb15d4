import Gatehouse.CommandLine.Report
import Gatehouse.Settings.Basic

namespace Gatehouse

/-- The college that is given or set, in small letters and without spaces. -/
def chooseCollege (given : Option String) (s : Settings) : Except UsageFault String :=
  let chosen := match given with
    | some college => if college = "" then s.defaultCollege else some college
    | none => s.defaultCollege
  match chosen.getD "" with
  | "" => .error .missingCollege
  | college => .ok (String.ofList ((lowerText college).toList.filter (· ≠ ' ')))

/-- Writes a text into a file, in directories that are made where they are missing. -/
def writeOutput (t : FileTree) (path : Pathname) (text : String) :
    FileTree × Except FileTree.WriteFault Unit :=
  match t.ensureDirectories path.parent with
  | .error fault => (t, .error (.path fault))
  | .ok t => t.write path text

def writeCrash : FileTree.WriteFault → Crash
  | .path f => .file f
  | .text f => .encoding f

/-- Builds the class for one target and prints it or writes it into a file. -/
def generateOne [Yaml.SetOrder] (t : FileTree) (s : Settings) (file : Pathname)
    (college : Option String) (target : Target) (output : Option Pathname) : Logged Report := do
  match ← Workflow.loadFile t file with
  | .error f => return .ofLoadFault f t
  | .ok w =>
    match chooseCollege college s with
    | .error f => return .misuse f t
    | .ok college =>
      match ← Emitter.standard.emit (.ofTarget target) w college with
      | .error f => return .crash (.emit f) t
      | .ok code =>
        match output with
        | none => return .ofLines [code] t
        | some path =>
          match writeOutput t path (code ++ "\n") with
          | (t, .error f) => return .crash (writeCrash f) t
          | (t, .ok ()) => return .ofLines ["✅ Wrote " ++ path.text] t

/-- Something stands at a path; a name that is too long cannot even be looked up. -/
def pathIsTaken (t : FileTree) (p : Pathname) : Except FileTree.PathFault Bool :=
  match t.find p with
  | .ok _ => .ok true
  | .error .nameTooLong => .error ⟨.nameTooLong, p⟩
  | .error _ => .ok false

/-- The first of some paths at which something stands; all of them are looked at. -/
def firstTaken (t : FileTree) (paths : List Pathname) :
    Except FileTree.PathFault (Option Pathname) := do
  let taken ← paths.mapM fun p => return (p, ← pathIsTaken t p)
  return (taken.find? Prod.snd).map Prod.fst

def exportCrash : ExportFault → Crash
  | .unsupported target => .unsupported target
  | .emit f => .emit f
  | .file f => writeCrash f

/-- Reads the file and writes the classes for the selected targets. -/
def exportFile [Yaml.SetOrder] (t : FileTree) (file : Pathname) (college : String)
    (targets : List Target) (directory : Pathname) (location : Option Pathname) :
    Logged Report := do
  match ← Workflow.loadFile t file with
  | .error f => return .ofLoadFault f t
  | .ok w =>
    let head := ["📖 Loaded " ++ toString w.steps.length ++ " steps, "
      ++ toString w.conditions.size ++ " conditions"]
    let exported ← Emitter.standard.exportTo w college directory
      (targets.map fun t => .text t.name) t
    match exported.outcome with
    | .error f => return (Report.crash (exportCrash f) exported.tree).after head
    | .ok written =>
      let paths := written.map fun (target, path) => "   " ++ target.name ++ ": " ++ path.text
      let place := location.toList.map fun p => "📁 Location: " ++ p.text
      let count := ["🎉 Generated " ++ toString written.length ++ " initializer(s)"]
      return .ofLines (head ++ paths ++ place ++ count) exported.tree

/-- Builds and writes the classes for the selected targets, for all of them if none is; a file that
is there is overwritten only by force. -/
def generateAll [Yaml.SetOrder] (t : FileTree) (s : Settings) (file : Pathname)
    (college : Option String) (targets : List Target) (output : Option Pathname)
    (force verbose : Bool) : Logged Report :=
  match chooseCollege college s with
  | .error f => pure (.misuse f t)
  | .ok college =>
    let directory := output.getD (.ofText s.outputDir)
    let selected := if targets.isEmpty then Target.all else targets
    let location := if verbose then some ((Pathname.mk 1 t.here).join directory) else none
    match firstTaken t (selected.map fun t => (Profile.ofTarget t).path directory college) with
    | .error f => pure (.crash (.file f) t)
    | .ok taken =>
      match if force then none else taken with
      | some path =>
        pure (.refuse (path.text ++ " already exists. Use --force to overwrite.") t)
      | none => exportFile t file college selected directory location

end Gatehouse
