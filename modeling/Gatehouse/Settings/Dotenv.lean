import Gatehouse.Keyed
import Gatehouse.Text.Blank

namespace Gatehouse

namespace Dotenv

/-- A name, and its value if an equals sign follows the name. -/
structure Binding where
  key : String
  value : Option String

/-- A piece of a settings file. -/
inductive Statement where
  | comment
  | binding (b : Binding)
  | broken

def Statement.binding? : Statement → Option Binding
  | binding b => some b
  | _ => none

def isInlineBlank (c : Char) : Bool := isBlank c && c != '\n'

def dropBlanks (cs : List Char) : List Char := cs.dropWhile isInlineBlank

/-- Drops the word that marks a binding for a shell. -/
def dropMark (cs : List Char) : List Char :=
  let word := "export".toList
  let rest := cs.drop word.length
  if word.isPrefixOf cs && rest.head?.any isInlineBlank then dropBlanks rest else cs

/-- A name, and what follows it; a comment has none. -/
def readKey : List Char → Option (Option String × List Char)
  | '#' :: rest => some (none, '#' :: rest)
  | '\'' :: rest =>
    let key := rest.takeWhile (· ≠ '\'')
    match rest.dropWhile (· ≠ '\'') with
    | _ :: rest => if key = [] then none else some (some (String.ofList key), rest)
    | [] => none
  | cs =>
    let key := cs.takeWhile fun c => !(c == '=' || c == '#' || isBlank c)
    if key = [] then none else some (some (String.ofList key), cs.drop key.length)

/-- The text up to the closing quote; a character after a backslash does not close it, and a line
does not end behind one. -/
def quoted (quote : Char) : List Char → Option (List Char × List Char)
  | [] => none
  | '\\' :: c :: rest =>
    if c = '\n' then none
    else (quoted quote rest).map fun (text, rest) => ('\\' :: c :: text, rest)
  | c :: rest =>
    if c = quote then some ([], rest)
    else (quoted quote rest).map fun (text, rest) => (c :: text, rest)

def apostropheEscapes : List (Char × Char) := [('\\', '\\'), ('\'', '\'')]

def quoteEscapes : List (Char × Char) :=
  apostropheEscapes ++ [('"', '"'), ('a', '\x07'), ('b', '\x08'), ('f', '\x0c'), ('n', '\n'),
    ('r', '\r'), ('t', '\t'), ('v', '\x0b')]

def unescape (escapes : List (Char × Char)) : List Char → List Char
  | '\\' :: c :: rest =>
    match escapes.lookup c with
    | some d => d :: unescape escapes rest
    | none => '\\' :: unescape escapes (c :: rest)
  | c :: rest => c :: unescape escapes rest
  | [] => []

/-- The text before a blank and a number sign. -/
def beforeComment : List Char → List Char
  | [] => []
  | c :: rest =>
    if isBlank c && (rest.dropWhile isBlank).head? == some '#' then []
    else c :: beforeComment rest

/-- The value behind an equals sign, and what follows it. Without quotes, the blanks before it count
for a comment. -/
def readValue (cs : List Char) : Option (List Char × List Char) :=
  match dropBlanks cs with
  | '\'' :: rest =>
    (quoted '\'' rest).map fun (text, rest) => (unescape apostropheEscapes text, rest)
  | '"' :: rest => (quoted '"' rest).map fun (text, rest) => (unescape quoteEscapes text, rest)
  | _ =>
    let text := beforeComment (cs.takeWhile (· ≠ '\n'))
    some (trimEndChars (dropBlanks text), cs.dropWhile (· ≠ '\n'))

/-- The rest of a line, on which only a comment may stand. -/
def endLine (cs : List Char) : Option (List Char) :=
  let rest := dropBlanks cs
  let rest := if rest.head? = some '#' then rest.dropWhile (· ≠ '\n') else rest
  match rest with
  | [] => some []
  | c :: rest => if c = '\n' then some rest else none

/-- What is left when a line cannot be read from some place on. -/
def nextLine (cs : List Char) : List Char := (cs.dropWhile (· ≠ '\n')).drop 1

/-- Reads one statement; of a broken one the rest of its last line goes along with it. -/
def readStatement (cs : List Char) : Statement × List Char :=
  let cs := dropMark cs
  match readKey cs with
  | none => (.broken, nextLine cs)
  | some (key, rest) =>
    let rest := dropBlanks rest
    let value := match rest with
      | '=' :: rest =>
        (readValue rest).map fun (v, after) => (some (String.ofList v), after)
      | rest => some (none, rest)
    match value with
    | none => (.broken, nextLine rest)
    | some (value, rest) =>
      match endLine rest with
      | none => (.broken, nextLine rest)
      | some rest =>
        match key with
        | some key => (.binding ⟨key, value⟩, rest)
        | none => (.comment, rest)

def lineFeeds (cs : List Char) : Nat := cs.count '\n'

/-- Reads statements with the lines on which they start; the blanks before one belong to it. Each
takes at least one character. -/
def readStatements : Nat → Nat → List Char → List (Nat × Statement)
  | 0, _, _ => []
  | n + 1, line, cs =>
    match cs.dropWhile isBlank with
    | [] => []
    | c :: rest =>
      let (statement, rest) := readStatement (c :: rest)
      (line, statement) :: readStatements n (line + (lineFeeds cs - lineFeeds rest)) rest

/-- A name between a dollar sign with braces, maybe with a text for when it is not bound. -/
structure Reference where
  name : String
  fallback : String

/-- A reference at the start of a text, and what follows it. -/
def reference? : List Char → Option (Reference × List Char)
  | '$' :: '{' :: rest =>
    let name := rest.takeWhile fun c => c ≠ '}' && c ≠ ':'
    match rest.drop name.length with
    | '}' :: rest => some (⟨String.ofList name, ""⟩, rest)
    | ':' :: '-' :: rest =>
      let fallback := rest.takeWhile (· ≠ '}')
      match rest.drop fallback.length with
      | _ :: rest => some (⟨String.ofList name, String.ofList fallback⟩, rest)
      | [] => none
    | _ => none
  | _ => none

/-- Puts the texts that names are bound to in the place of references. -/
def expand (bound : String → Option String) : Nat → List Char → List Char
  | 0, cs => cs
  | _, [] => []
  | n + 1, c :: rest =>
    match reference? (c :: rest) with
    | some (r, rest) => ((bound r.name).getD r.fallback).toList ++ expand bound n rest
    | none => c :: expand bound n rest

/-- Binds a name; references go to the bindings before it, then to the environment. -/
def addBinding (env : List (String × String)) (m : Keyed (Option String)) (b : Binding) :
    Keyed (Option String) :=
  let bound (name : String) : Option String :=
    match m.get? name with
    | some v => some (v.getD "")
    | none => env.lookup name
  m.insert b.key (b.value.map fun v =>
    String.ofList (expand bound (v.length + 1) v.toList))

/-- A text without the mark that tells how it is encoded. -/
def withoutMark : List Char → List Char
  | '\ufeff' :: rest => rest
  | cs => cs

def statements (text : String) : List (Nat × Statement) :=
  let cs := withoutMark text.toList
  readStatements (cs.length + 1) 1 cs

/-- The bindings of a text; the last one of a name counts. -/
def bindings (env : List (String × String)) (text : String) : List (String × Option String) :=
  (((statements text).filterMap fun s => s.2.binding?).foldl (addBinding env) .empty).entries

/-- The lines on which broken statements start. -/
def brokenLines (text : String) : List Nat :=
  (statements text).filterMap fun
    | (line, .broken) => some line
    | _ => none

end Dotenv

end Gatehouse
