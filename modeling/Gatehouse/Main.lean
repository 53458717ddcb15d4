import Gatehouse.CommandLine.LogLine
import Gatehouse.CommandLine.Run

namespace Gatehouse

/-- What stands at a place on disk. -/
def observeEntry (path : String) : IO (Option Entry) := do
  try
    return some (.file (← IO.FS.readBinFile path))
  catch
    | .noFileOrDirectory .. => return none
    | _ => return some .directory

def absoluteText (l : Location) : String := unspellText (Pathname.mk 1 l).text

/-- Goes along the parts of a name and takes what stands at each of them into the tree. -/
def observeParts (t : FileTree) (l : Location) : List String → IO FileTree
  | [] => return t
  | part :: rest => do
    let l := if part = ".." then l.dropLast else l ++ [knownName part]
    match ← observeEntry (absoluteText l) with
    | some e => observeParts (if l = [] then t else t.put l e) l rest
    | none => observeParts t l rest

def observe (t : FileTree) (p : Pathname) : IO FileTree :=
  observeParts t (if p.isAbsolute then [] else t.here) p.parts

def environmentNames : List String :=
  ["LOG_LEVEL", "LOG_FORMAT", "DEFAULT_COLLEGE", "OUTPUT_DIR"].map ("FLOWINIT_" ++ ·)

def readEnvironment : IO Environment := do
  let found ← environmentNames.mapM fun name => do
    return (← IO.getEnv name).map fun v => (name, spellText v)
  return found.filterMap id

/-- Brings to disk what a run has put into the tree. -/
def writeChanges (before after : FileTree) : IO Unit :=
  after.entries.forM fun (l, e) => do
    if before.lookup? l ≠ some e then
      match e with
      | .directory => IO.FS.createDir (absoluteText l)
      | .file content => IO.FS.writeBinFile (absoluteText l) content

/-- Looks at the files that the words of a command name and that it would write. -/
def observeFor (env : Environment) (words : List String) : IO FileTree := do
  let here := Pathname.ofText (spellText (← IO.currentDir).toString)
  let bare ← observe ⟨[], here.parts⟩ here
  let t ← (Settings.filePath :: words.map Pathname.ofText).foldlM observe bare
  (outputsOf t env words).foldlM observe t

end Gatehouse

open Gatehouse in
def main (words : List String) : IO UInt32 := do
  let words := words.map spellText
  let env ← readEnvironment
  let t ← observeFor env words
  let run := runWords t env words
  writeChanges t run.report.tree
  IO.print (unspellText run.report.output)
  run.shown.forM fun e => IO.eprintln (unspellText (escapeHalves (e.line run.asData)))
  IO.eprint (unspellText run.report.complaint)
  return run.report.ending.status.toUInt32
