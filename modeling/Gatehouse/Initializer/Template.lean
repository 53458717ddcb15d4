import Gatehouse.Text.Blank
import Gatehouse.Text.Lines
import Gatehouse.Text.Quoted
import Gatehouse.Text.Search

namespace Gatehouse

/-- What a name in a template stands for: its text alone and inside another one, the words for what
it is, what it counts as where it is asked for, the values that it holds, and its parts by their
names. -/
inductive TemplateValue where
  | mk (text shown kind : String) (isTrue : Bool) (items : List TemplateValue)
    (parts : List (String × TemplateValue))

namespace TemplateValue

def text : TemplateValue → String
  | mk text _ _ _ _ _ => text

def shown : TemplateValue → String
  | mk _ shown _ _ _ _ => shown

def kind : TemplateValue → String
  | mk _ _ kind _ _ _ => kind

def isTrue : TemplateValue → Bool
  | mk _ _ _ isTrue _ _ => isTrue

def items : TemplateValue → List TemplateValue
  | mk _ _ _ _ items _ => items

def parts : TemplateValue → List (String × TemplateValue)
  | mk _ _ _ _ _ parts => parts

end TemplateValue

/-- What fills a slot: a name and the names of parts, or a text. -/
inductive TemplateWord where
  | name (path : List String)
  | text (s : String)
  deriving DecidableEq

/-- Text with slots that are filled when it is used, and with parts that are used once for each of
some values, or only if something holds. -/
inductive Template where
  | done
  | text (s : String) (rest : Template)
  | slot (word : TemplateWord) (rest : Template)
  | either (asked : List String) (yes no : TemplateWord) (rest : Template)
  | loop (name : String) (items : List String) (body rest : Template)
  | choice (asked : List String) (yes no rest : Template)
  deriving DecidableEq

/-- A name and the names of parts, between points with blanks around them. -/
def slotPath (cs : List Char) : List String :=
  (splitChars (· == '.') cs).map fun name => String.ofList (trimChars name)

/-- The text between double quotes, or else a name. -/
def TemplateWord.ofChars (cs : List Char) : TemplateWord :=
  match trimChars cs with
  | '"' :: rest => if rest.getLast? = some '"' then text (String.ofList rest.dropLast)
    else name (slotPath cs)
  | _ => name (slotPath cs)

/-- What stands before a piece of text and behind it. -/
def splitAround? (piece : List Char) : List Char → Option (List Char × List Char)
  | [] => none
  | c :: rest =>
    if piece.isPrefixOf (c :: rest) then some ([], (c :: rest).drop piece.length)
    else (splitAround? piece rest).map fun (before, behind) => (c :: before, behind)

/-- What stands between two pairs of braces: a word, or two of which one is chosen. -/
def Template.ofHole (cs : List Char) (rest : Template) : Template :=
  match splitAround? " if ".toList cs with
  | none => slot (.ofChars cs) rest
  | some (yes, behind) =>
    match splitAround? " else ".toList behind with
    | none => slot (.ofChars cs) rest
    | some (asked, no) => either (slotPath asked) (.ofChars yes) (.ofChars no) rest

inductive TemplateToken where
  | text (cs : List Char)
  | hole (inside : List Char)
  | tag (inside : List Char)
  deriving DecidableEq

/-- What kind of token is being read. -/
inductive TokenKind where
  | text
  | hole
  | tag

/-- Slots stand between two pairs of braces, and tags between braces with percent signs; after a
pair that is not closed yet, what follows it is kept, last character first. -/
def readTokens : TokenKind → List Char → List Char → List TemplateToken
  | .text, seen, [] => [.text seen.reverse]
  | .hole, seen, [] => [.text ('{' :: '{' :: seen.reverse)]
  | .tag, seen, [] => [.text ('{' :: '%' :: seen.reverse)]
  | .text, seen, '{' :: '{' :: rest => .text seen.reverse :: readTokens .hole [] rest
  | .text, seen, '{' :: '%' :: rest => .text seen.reverse :: readTokens .tag [] rest
  | .hole, seen, '}' :: '}' :: rest => .hole seen.reverse :: readTokens .text [] rest
  | .tag, seen, '%' :: '}' :: rest => .tag seen.reverse :: readTokens .text [] rest
  | kind, seen, c :: rest => readTokens kind (c :: seen) rest

/-- Blanks that a line starts with, at the end of a text, are dropped. -/
def trimIndent (startsLine : Bool) (cs : List Char) : List Char :=
  let indent := cs.reverse.takeWhile (· ≠ '\n')
  let before := cs.reverse.dropWhile (· ≠ '\n')
  if (startsLine || !before.isEmpty) && indent.all isBlank then before.reverse else cs

/-- A tag takes the blanks before it along if nothing else stands before it in its line, and the
line feed behind it. -/
def trimTokens (startsLine behindTag : Bool) : List TemplateToken → List TemplateToken
  | [] => []
  | .text cs :: rest =>
    let (startsLine, cs) := match behindTag, cs with
      | true, '\n' :: more => (true, more)
      | _, cs => (startsLine, cs)
    let isBeforeTag := match rest with
      | .tag _ :: _ => true
      | _ => false
    .text (if isBeforeTag then trimIndent startsLine cs else cs) :: trimTokens false false rest
  | .hole cs :: rest => .hole cs :: trimTokens false false rest
  | .tag cs :: rest => .tag cs :: trimTokens false true rest

/-- What follows parts of a template that are closed but whose openings are not read yet. -/
inductive TemplateEnd where
  | behind (rest : Template)
  | otherwise (no : Template)

/-- A tag and what follows it: an opening takes the part that it opens. A tag without the other ones
that belong to it says nothing, and one with other words is text. -/
def Template.ofTag (cs : List Char) (here : Template) (ends : List TemplateEnd) :
    Template × List TemplateEnd :=
  let words := (splitChars isBlank cs).filter (· ≠ [])
  match words.map String.ofList with
  | ["endfor"] | ["endif"] => (done, .behind here :: ends)
  | ["else"] => (done, .otherwise here :: ends)
  | ["for", name, "in", items] =>
    match ends with
    | .behind rest :: ends => (loop name (slotPath items.toList) here rest, ends)
    | _ => (here, ends)
  | ["if", asked] =>
    match ends with
    | .behind rest :: ends => (choice (slotPath asked.toList) here done rest, ends)
    | .otherwise no :: .behind rest :: ends =>
      (choice (slotPath asked.toList) here no rest, ends)
    | _ => (here, ends)
  | _ => (text (String.ofList ('{' :: '%' :: cs ++ ['%', '}'])) here, ends)

/-- The tokens are put together from the last one on, so each opening finds what it opens. -/
def Template.ofTokens : List TemplateToken → Template × List TemplateEnd
  | [] => (done, [])
  | token :: rest =>
    let (here, ends) := ofTokens rest
    match token with
    | .text [] => (here, ends)
    | .text cs => (text (String.ofList cs) here, ends)
    | .hole cs => (ofHole cs here, ends)
    | .tag cs => ofTag cs here ends

def Template.ofChars (cs : List Char) : Template :=
  (ofTokens (trimTokens true false (readTokens .text [] (normalizeNewlines cs)))).1

def Template.parse (s : String) : Template := ofChars s.toList

/-- Why a template cannot be filled. -/
inductive TemplateFault where
  | unknownName (name : String)
  | unknownPart (kind part : String)

def TemplateFault.message : TemplateFault → String
  | unknownName name => "'" ++ name ++ "' is undefined"
  | unknownPart kind part => "'" ++ kind ++ "' has no attribute '" ++ part ++ "'"

/-- What the names in a template stand for. -/
abbrev Slots := List (String × TemplateValue)

namespace TemplateValue

def ofText (s : String) : TemplateValue := mk s (displayText s) "str object" (s ≠ "") [] []

/-- A class by the way to its name, which leads through a module unless it is built in. -/
def ofClass (path : String) (parts : List (String × TemplateValue)) : TemplateValue :=
  let pieces := (splitChars (· == '.') path.toList).map String.ofList
  let home := if pieces.length = 1 then "builtins" else String.intercalate "." pieces.dropLast
  let name := pieces.getLast?.getD ""
  let shown := "<class '" ++ path ++ "'>"
  mk shown shown "type object" true []
    (parts ++ [("__name__", ofText name), ("__qualname__", ofText name),
      ("__module__", ofText home)])

/-- The class that a value belongs to, after the words for what the value is. -/
def classOf (v : TemplateValue) : TemplateValue :=
  if v.kind = "None" then ofClass "NoneType" []
  else ofClass (String.ofList (v.kind.toList.takeWhile (· ≠ ' '))) []

/-- Classes of values that hold others; what they hold may be named in brackets behind them. -/
def genericClasses : List String :=
  ["dict", "tuple", "type"].map fun name => "<class '" ++ name ++ "'>"

/-- A class of values that hold others, for what they are to hold. -/
def specialize (v : TemplateValue) (name : String) : TemplateValue :=
  let family := ((v.parts.lookup "__name__").map text).getD ""
  let shown := family ++ "[" ++ displayText name ++ "]"
  mk shown shown "types.GenericAlias object" true [] v.parts

/-- Goes from a value to a part of it. -/
def part (v : TemplateValue) (name : String) : Except TemplateFault TemplateValue :=
  match v.parts.lookup name with
  | some part => .ok part
  | none =>
    if name = "__class__" then .ok v.classOf
    else if genericClasses.contains v.shown then .ok (v.specialize name)
    else .error (.unknownPart v.kind name)

end TemplateValue

def Slots.find (slots : Slots) : List String → Except TemplateFault TemplateValue
  | [] => .error (.unknownName "")
  | name :: parts =>
    match slots.lookup name with
    | some v => parts.foldlM TemplateValue.part v
    | none => .error (.unknownName name)

def TemplateWord.fill (slots : Slots) : TemplateWord → Except TemplateFault String
  | name path => (slots.find path).map TemplateValue.text
  | text s => .ok s

/-- What fills a slot comes in as it is and is not read again. -/
def Template.fill : Template → Slots → Except TemplateFault String
  | done, _ => .ok ""
  | text s rest, slots => do
    let more ← rest.fill slots
    pure (s ++ more)
  | slot word rest, slots => do
    let filled ← word.fill slots
    let more ← rest.fill slots
    pure (filled ++ more)
  | either asked yes no rest, slots => do
    let answer ← slots.find asked
    let filled ← (if answer.isTrue then yes else no).fill slots
    let more ← rest.fill slots
    pure (filled ++ more)
  | loop name items body rest, slots => do
    let all ← slots.find items
    let filled ← all.items.mapM fun v => body.fill ((name, v) :: slots)
    let more ← rest.fill slots
    pure (String.join filled ++ more)
  | choice asked yes no rest, slots => do
    let answer ← slots.find asked
    let chosen := if answer.isTrue then yes.fill slots else no.fill slots
    let filled ← chosen
    let more ← rest.fill slots
    pure (filled ++ more)

end Gatehouse
