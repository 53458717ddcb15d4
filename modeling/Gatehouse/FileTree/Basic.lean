import Gatehouse.CallDepth
import Gatehouse.FileTree.NameBytes
import Gatehouse.FileTree.Pathname
import Gatehouse.Keyed
import Gatehouse.Text.Quoted

namespace Gatehouse

/-- Why a file or directory cannot be reached or made. -/
inductive FileFault where
  | missing
  | taken
  | notDirectory
  | isDirectory
  | nameTooLong
  | nulInName
  | notEncodable
  /-- more directories are missing than are made at once -/
  | tooDeep
  deriving DecidableEq

namespace FileFault

/-- The number that the system gives to the fault, if the system tells of it. -/
def number? : FileFault → Option Nat
  | missing => some 2
  | taken => some 17
  | notDirectory => some 20
  | isDirectory => some 21
  | nameTooLong => some 36
  | nulInName | notEncodable | tooDeep => none

def description : FileFault → String
  | missing => "No such file or directory"
  | taken => "File exists"
  | notDirectory => "Not a directory"
  | isDirectory => "Is a directory"
  | nameTooLong => "File name too long"
  | nulInName => "embedded null byte"
  | notEncodable => "surrogates not allowed"
  | tooDeep => "maximum recursion depth exceeded"

/-- What is told of a fault at a path. -/
def message (f : FileFault) (path : String) : String :=
  match f.number?, nameFault? path with
  | some n, _ => "[Errno " ++ toString n ++ "] " ++ f.description ++ ": " ++ displayText path
  | none, some fault => if f = notEncodable then fault.message else f.description
  | none, none => f.description

end FileFault

inductive Entry where
  | file (content : ByteArray)
  | directory

instance : DecidableEq Entry
  | .file a, .file b =>
    match ByteArray.instDecidableEq a b with
    | isTrue h => isTrue (congrArg Entry.file h)
    | isFalse h => isFalse fun eq => h (Entry.file.inj eq)
  | .file _, .directory => isFalse nofun
  | .directory, .file _ => isFalse nofun
  | .directory, .directory => isTrue rfl

/-- The names on the way from the root to a place. -/
abbrev Location := List String

/-- Files and directories, and the directory that relative names start from. -/
structure FileTree where
  entries : List (Location × Entry)
  here : Location

namespace FileTree

/-- What stands at a place; the root is always there. -/
def lookup? (t : FileTree) (l : Location) : Option Entry :=
  if l = [] then some .directory else t.entries.lookup l

def put (t : FileTree) (l : Location) (e : Entry) : FileTree :=
  { t with entries := Keyed.insertEntry l e t.entries }

theorem lookup?_put {l : Location} (h : l ≠ []) (t : FileTree) (e : Entry) (m : Location) :
    (t.put l e).lookup? m = if m = l then some e else t.lookup? m := by
  by_cases hm : m = []
  · subst hm
    simp [lookup?, h.symm]
  · simp [lookup?, put, hm, Keyed.lookup_insertEntry]

/-- The longest name that a file may have, in bytes. -/
def longestName : Nat := 255

/-- The longest path that can be asked for, in bytes. -/
def longestPath : Nat := 4095

/-- A path can be asked for only if the system takes it as it is written. -/
def checkText (text : String) : Except FileFault Unit :=
  if (nameFault? text).isSome then .error .notEncodable
  else if '\x00' ∈ text.toList then .error .nulInName
  else if longestPath < (nameBytes text).length then .error .nameTooLong
  else .ok ()

/-- Goes from a place along the pieces of a name; each piece is looked up in a directory. -/
def walk (t : FileTree) (l : Location) : List String → Except FileFault Location
  | [] => .ok l
  | piece :: rest =>
    match t.lookup? l with
    | none => .error .missing
    | some (.file _) => .error .notDirectory
    | some .directory =>
      if piece = "" ∨ piece = "." then walk t l rest
      else if piece = ".." then walk t l.dropLast rest
      else if longestName < (nameBytes piece).length then .error .nameTooLong
      else walk t (l ++ [knownName piece]) rest

/-- The place that a name leads to, where nothing needs to stand. -/
def locate (t : FileTree) (p : Pathname) : Except FileFault Location := do
  checkText p.text
  t.walk (if p.isAbsolute then [] else t.here) p.parts

/-- What a name leads to. -/
def find (t : FileTree) (p : Pathname) : Except FileFault Entry := do
  match t.lookup? (← t.locate p) with
  | some e => .ok e
  | none => .error .missing

/-- Whether something stands where the text, as it is written, leads; a text that holds no path
cannot even be asked for. -/
def reaches (t : FileTree) (text : String) : Except FileFault Bool :=
  match checkText text with
  | .error .nameTooLong => .ok false
  | .error f => .error f
  | .ok () =>
    match t.walk (if text.toList.head? = some '/' then [] else t.here) (Pathname.pieces text) with
    | .ok l => .ok (text ≠ "" && (t.lookup? l).isSome)
    | .error _ => .ok false

def read (t : FileTree) (p : Pathname) : Except FileFault ByteArray := do
  match ← t.find p with
  | .file content => .ok content
  | .directory => .error .isDirectory

/-- Makes a directory, where nothing may stand yet. -/
def makeDirectory (t : FileTree) (p : Pathname) : Except FileFault FileTree := do
  let l ← t.locate p
  match t.lookup? l with
  | some _ => .error .taken
  | none => .ok (t.put l .directory)

def isDirectory (t : FileTree) (p : Pathname) : Bool :=
  match t.find p with
  | .ok .directory => true
  | _ => false

/-- A fault with the path that it was met at. -/
structure PathFault where
  fault : FileFault
  path : Pathname

def PathFault.message (f : PathFault) : String := f.fault.message f.path.text

/-- Makes a directory if it is not there. -/
def ensureDirectory (t : FileTree) (p : Pathname) : Except PathFault FileTree :=
  match t.makeDirectory p with
  | .ok t => .ok t
  | .error f => if t.isDirectory p then .ok t else .error ⟨f, p⟩

/-- How many directories are made at once: one call for each that is missing, from the command line
and the export of the classes down. -/
def mostMissing : Nat := levelsWithin 40 1

/-- Makes a directory with at most so many on the way to it; the parts are given last one first. -/
def ensureParts (t : FileTree) (slashes : Nat) : Nat → List String → Except PathFault FileTree
  | _, [] => .ok t
  | 0, parts => .error ⟨.tooDeep, ⟨slashes, parts.reverse⟩⟩
  | n + 1, part :: outer =>
    let p : Pathname := ⟨slashes, (part :: outer).reverse⟩
    match t.makeDirectory p with
    | .ok t => .ok t
    | .error .missing => do (← ensureParts t slashes n outer).ensureDirectory p
    | .error f => if t.isDirectory p then .ok t else .error ⟨f, p⟩

def ensureDirectories (t : FileTree) (p : Pathname) : Except PathFault FileTree :=
  t.ensureParts p.slashes mostMissing p.parts.reverse

/-- Puts a file in the place of one that is there. -/
def writeBytes (t : FileTree) (p : Pathname) (content : ByteArray) :
    Except PathFault FileTree :=
  match t.locate p with
  | .error f => .error ⟨f, p⟩
  | .ok l =>
    match t.lookup? l with
    | some .directory => .error ⟨.isDirectory, p⟩
    | _ => .ok (t.put l (.file content))

/-- Why a text is not in a file. -/
inductive WriteFault where
  | path (fault : PathFault)
  | text (fault : EncodingFault)

/-- Writes a text into a file; one that cannot be encoded leaves the file empty. -/
def write (t : FileTree) (p : Pathname) (text : String) : FileTree × Except WriteFault Unit :=
  let content := if (encodingFault? text).isSome then .empty else encodeText text
  match t.writeBytes p content with
  | .error f => (t, .error (.path f))
  | .ok t =>
    match encodingFault? text with
    | some f => (t, .error (.text f))
    | none => (t, .ok ())

end FileTree

end Gatehouse
