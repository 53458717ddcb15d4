import Gatehouse.Text.Encoding
import Gatehouse.Value
import Gatehouse.Yaml.Scalar

namespace Gatehouse

namespace Yaml

/-- A place where a key without a mark of its own may have begun, counted in tokens before it. -/
structure KeyStart where
  tokensBefore : Nat
  required : Bool
  index : Nat
  line : Nat
  column : Nat

/-- The state of reading tokens; the newest token stands first, and `count` is their number. -/
structure Scan where
  cursor : Cursor
  tokens : List Token
  count : Nat
  flowDepth : Nat
  indent : Int
  outerIndents : List Int
  allowsKey : Bool
  /-- for each depth of brackets the place where a key may have begun -/
  keyStarts : List (Nat × KeyStart)

namespace Scan

def start (text : List Char) : Scan :=
  let cursor := Cursor.start text
  ⟨if cursor.peek = byteOrderMark then cursor.advance else cursor, [], 0, 0, -1, [], true, []⟩

def inFlow (s : Scan) : Bool := s.flowDepth != 0

def push (s : Scan) (t : Token) : Scan :=
  { s with tokens := t :: s.tokens, count := s.count + 1 }

/-- Puts a token behind the first `n` that were read. -/
def insertAfter (s : Scan) (n : Nat) (t : Token) : Scan :=
  let k := s.count - n
  { s with tokens := s.tokens.take k ++ t :: s.tokens.drop k, count := s.count + 1 }

/-- Skips spaces, comments and line ends; after a line end outside brackets a key may begin. -/
def toNextToken : Nat → Scan → Scan
  | 0, s => s
  | n + 1, s =>
    let c := s.cursor.skipSpaces.skipComment
    match c.lineBreak? with
    | some (_, c) => toNextToken n { s with cursor := c, allowsKey := s.allowsKey || !s.inFlow }
    | none => { s with cursor := c }

/-- A key ends on its own line and within 1024 characters. -/
def isStale (c : Cursor) (k : KeyStart) : Bool :=
  k.line != c.line || decide (1024 < c.index - k.index)

def dropStaleKeys (s : Scan) : Except Fault Scan :=
  if s.keyStarts.any fun (_, k) => isStale s.cursor k && k.required then .error .malformed
  else .ok { s with keyStarts := s.keyStarts.filter fun (_, k) => !isStale s.cursor k }

/-- Gives up the key that may have begun at this depth. -/
def dropKey (s : Scan) : Except Fault Scan :=
  match s.keyStarts.lookup s.flowDepth with
  | some k =>
    if k.required then .error .malformed
    else .ok { s with keyStarts := s.keyStarts.filter fun (depth, _) => depth != s.flowDepth }
  | none => .ok s

/-- Notes that a key may begin here. -/
def noteKey (s : Scan) : Except Fault Scan :=
  if s.allowsKey then do
    let s ← s.dropKey
    let c := s.cursor
    let k : KeyStart := ⟨s.count, !s.inFlow && decide (s.indent = c.column), c.index,
      c.line, c.column⟩
    pure { s with keyStarts := (s.flowDepth, k) :: s.keyStarts }
  else .ok s

/-- Ends the blocks that are indented deeper than a column. -/
def unwind (column : Int) : List Int → Scan → Scan
  | [], s => { s with outerIndents := [] }
  | outer :: rest, s =>
    if column < s.indent then
      unwind column rest { s.push .blockEnd with indent := outer, outerIndents := rest }
    else { s with outerIndents := outer :: rest }

def unwindTo (s : Scan) (column : Int) : Scan :=
  if s.inFlow then s else unwind column s.outerIndents s

def indentTo (s : Scan) (column : Int) : Scan :=
  { s with indent := column, outerIndents := s.indent :: s.outerIndents }

/-- Opens a block at a column if it is indented deeper than the one around it. -/
def openBlock (s : Scan) (column : Nat) (t : Token) : Scan :=
  if s.indent < column then (s.indentTo column).push t else s

def skip (s : Scan) (n : Nat) : Scan := { s with cursor := s.cursor.skip n }

def endStream (s : Scan) : Except Fault Scan := do
  let s ← (s.unwindTo (-1)).dropKey
  pure { s with allowsKey := false, keyStarts := [] }

def documentMark (s : Scan) (t : Token) : Except Fault Scan := do
  let s ← (s.unwindTo (-1)).dropKey
  pure ({ s with allowsKey := false }.skip 3 |>.push t)

def openFlow (s : Scan) (t : Token) : Except Fault Scan := do
  let s ← s.noteKey
  pure ({ s with flowDepth := s.flowDepth + 1, allowsKey := true }.skip 1 |>.push t)

def closeFlow (s : Scan) (t : Token) : Except Fault Scan := do
  let s ← s.dropKey
  if s.flowDepth = 0 then .error .malformed
  else pure ({ s with flowDepth := s.flowDepth - 1, allowsKey := false }.skip 1 |>.push t)

def flowEntry (s : Scan) : Except Fault Scan := do
  let s ← s.dropKey
  pure ({ s with allowsKey := true }.skip 1 |>.push .flowEntry)

def blockEntry (s : Scan) : Except Fault Scan := do
  if !s.inFlow && !s.allowsKey then .error .malformed
  let s := if s.inFlow then s else s.openBlock s.cursor.column .blockSequenceStart
  let s ← s.dropKey
  pure ({ s with allowsKey := true }.skip 1 |>.push .blockEntry)

def explicitKey (s : Scan) : Except Fault Scan := do
  if !s.inFlow && !s.allowsKey then .error .malformed
  let s := if s.inFlow then s else s.openBlock s.cursor.column .blockMappingStart
  let s ← s.dropKey
  pure ({ s with allowsKey := !s.inFlow }.skip 1 |>.push .key)

/-- A colon ends the key that may have begun before it, or stands for an empty key. -/
def value (s : Scan) : Except Fault Scan :=
  match s.keyStarts.lookup s.flowDepth with
  | some k =>
    let s := { s with keyStarts := s.keyStarts.filter fun (depth, _) => depth != s.flowDepth }
    let s := s.insertAfter k.tokensBefore .key
    let s := if !s.inFlow && decide (s.indent < (k.column : Int)) then
      (s.indentTo k.column).insertAfter k.tokensBefore .blockMappingStart else s
    .ok ({ s with allowsKey := false }.skip 1 |>.push .value)
  | none => do
    if !s.inFlow && !s.allowsKey then .error .malformed
    let s := if s.inFlow then s else s.openBlock s.cursor.column .blockMappingStart
    let s ← s.dropKey
    pure ({ s with allowsKey := !s.inFlow }.skip 1 |>.push .value)

def isWordChar (c : Char) : Bool := c.isAlphanum || c == '-' || c == '_'

/-- The name after the mark of an anchor or of a reference to one. -/
def anchorName (s : Scan) (t : String → Token) : Except Fault Scan := do
  let s ← s.noteKey
  let c := s.cursor.advance
  let name := c.rest.takeWhile isWordChar
  let after := c.skip name.length
  if name = [] ∨ !(isGap after.peek || "?:,]\x7d%@`".toList.contains after.peek) then
    .error .malformed
  else pure ({ s with allowsKey := false, cursor := after }.push (t (String.ofList name)))

def isUriChar (c : Char) : Bool :=
  c.isAlphanum || "-;/?:@&=+$,_.!~*'()[]".toList.contains c

/-- Octets that are written as a percent sign and two digits each. -/
def uriOctets : Nat → List Char → Except Fault (List UInt8 × List Char)
  | n + 1, '%' :: a :: b :: rest =>
    match hexNumber? [a, b] with
    | some octet => do
      let (more, rest) ← uriOctets n rest
      pure (UInt8.ofNat octet :: more, rest)
    | none => .error .malformed
  | _, '%' :: _ => .error .malformed
  | _, rest => .ok ([], rest)

def uriChars : Nat → List Char → Except Fault (List Char × List Char)
  | 0, rest => .ok ([], rest)
  | n + 1, c :: rest =>
    if c = '%' then do
      let (octets, rest) ← uriOctets (rest.length + 1) (c :: rest)
      match decodeText? ⟨octets.toArray⟩ with
      | some s => do
        let (more, rest) ← uriChars n rest
        pure (s.toList ++ more, rest)
      | none => .error .malformed
    else if isUriChar c then do
      let (more, rest) ← uriChars n rest
      pure (c :: more, rest)
    else .ok ([], c :: rest)
  | _, [] => .ok ([], [])

/-- The address in a tag or a tag directive, which is never empty. -/
def readUri (c : Cursor) : Except Fault (String × Cursor) := do
  let (uri, rest) ← uriChars c.steps c.rest
  if uri = [] then .error .malformed
  else pure (String.ofList uri, c.skip (c.rest.length - rest.length))

/-- An exclamation mark, a word and another one; or the first mark alone before a space. -/
def readHandle (c : Cursor) : Except Fault (String × Cursor) :=
  if c.peek ≠ '!' then .error .malformed
  else if c.peekAt 1 = ' ' then .ok ("!", c.advance)
  else
    let word := c.advance.rest.takeWhile isWordChar
    let after := c.skip (word.length + 1)
    if after.peek = '!' then .ok (String.ofList ('!' :: word ++ ['!']), after.advance)
    else .error .malformed

/-- A space or a line end, but no tab. -/
def isSpaceOrEnd (c : Char) : Bool := c == ' ' || isBreakOrEnd c

def readTag (c : Cursor) : Except Fault (TagMark × Cursor) := do
  let next := c.peekAt 1
  let (mark, after) ←
    if next = '<' then do
      let (uri, after) ← readUri (c.skip 2)
      if after.peek = '>' then pure (TagMark.mk none uri, after.advance) else .error .malformed
    else if isGap next then pure (TagMark.mk none "!", c.advance)
    else do
      let word := (c.advance.rest).takeWhile fun ch => !isSpaceOrEnd ch
      let (handle, after) ← if word.contains '!' then readHandle c else pure ("!", c.advance)
      let (uri, after) ← readUri after
      pure (TagMark.mk (some handle) uri, after)
  if isSpaceOrEnd after.peek then pure (mark, after) else .error .malformed

def tag (s : Scan) : Except Fault Scan := do
  let s ← s.noteKey
  let (mark, after) ← readTag s.cursor
  pure ({ s with allowsKey := false, cursor := after }.push (.tag mark))

def decimalNumber (ds : List Char) : Nat := ds.foldl (fun n d => 10 * n + (d.toNat - 0x30)) 0

/-- One half of a version; zeros that lead it count among its digits. -/
def readVersionPart (c : Cursor) : Except Fault (Nat × Cursor) :=
  let digits := c.rest.takeWhile Char.isDigit
  if digits = [] then .error .malformed
  else if Value.mostDigits < digits.length then .error (.tooManyDigits digits.length)
  else .ok (decimalNumber digits, c.skip digits.length)

def readVersion (c : Cursor) : Except Fault (Token × Cursor) := do
  let (major, point) ← readVersionPart c.skipSpaces
  if point.peek ≠ '.' then .error .malformed
  let (_, after) ← readVersionPart point.advance
  if isSpaceOrEnd after.peek then pure (.version major, after) else .error .malformed

def readTagDirective (c : Cursor) : Except Fault (Token × Cursor) := do
  let (handle, after) ← readHandle c.skipSpaces
  if after.peek ≠ ' ' then .error .malformed
  let (expansion, after) ← readUri after.skipSpaces
  if isSpaceOrEnd after.peek then pure (.tagHandle handle expansion, after)
  else .error .malformed

def directive (s : Scan) : Except Fault Scan := do
  let s ← (s.unwindTo (-1)).dropKey
  let c := s.cursor.advance
  let name := c.rest.takeWhile isWordChar
  let after := c.skip name.length
  if name = [] ∨ !isSpaceOrEnd after.peek then .error .malformed
  let (t, after) ←
    if String.ofList name = "YAML" then readVersion after
    else if String.ofList name = "TAG" then readTagDirective after
    else pure (Token.otherDirective, after.skipWhile fun ch => !isBreak ch)
  let after ← endOfLine after
  pure ({ s with allowsKey := false, cursor := after }.push t)

def blockScalar (s : Scan) : Except Fault Scan := do
  let s ← s.dropKey
  let (text, after) ← readBlock s.indent s.cursor
  pure ({ s with allowsKey := true, cursor := after }.push (.scalar false (String.ofList text)))

def quoted (s : Scan) : Except Fault Scan := do
  let s ← s.noteKey
  let (text, after) ← readQuoted s.cursor
  pure ({ s with allowsKey := false, cursor := after }.push (.scalar false (String.ofList text)))

def plain (s : Scan) : Except Fault Scan := do
  let s ← s.noteKey
  let r := readPlain s.inFlow (s.indent + 1) s.cursor
  pure ({ s with allowsKey := r.crossesLine, cursor := r.after }.push
    (.scalar true (String.ofList r.text)))

/-- A mark at this place may begin a plain scalar. -/
def startsPlain (s : Scan) : Bool :=
  let c := s.cursor.peek
  !(isGap c || "-?:,[]\x7b\x7d#&*!|>'\"%@`".toList.contains c)
    || (!isGap (s.cursor.peekAt 1) && (c == '-' || (!s.inFlow && (c == '?' || c == ':'))))

/-- Reads the token that begins here. -/
def readToken (s : Scan) : Except Fault Scan :=
  let c := s.cursor
  let ch := c.peek
  let beforeGap := isGap (c.peekAt 1)
  if c.column = 0 ∧ ch = '%' then s.directive
  else if c.column = 0 ∧ c.startsWith '-' then s.documentMark .documentStart
  else if c.column = 0 ∧ c.startsWith '.' then s.documentMark .documentEnd
  else if ch = '[' then s.openFlow .flowSequenceStart
  else if ch = '{' then s.openFlow .flowMappingStart
  else if ch = ']' then s.closeFlow .flowSequenceEnd
  else if ch = '}' then s.closeFlow .flowMappingEnd
  else if ch = ',' then s.flowEntry
  else if ch = '-' ∧ beforeGap then s.blockEntry
  else if ch = '?' ∧ (s.inFlow ∨ beforeGap) then s.explicitKey
  else if ch = ':' ∧ (s.inFlow ∨ beforeGap) then s.value
  else if ch = '*' then s.anchorName .reference
  else if ch = '&' then s.anchorName .anchor
  else if ch = '!' then s.tag
  else if (ch = '|' ∨ ch = '>') ∧ !s.inFlow then s.blockScalar
  else if ch = '\'' ∨ ch = '"' then s.quoted
  else if s.startsPlain then s.plain
  else .error .malformed

/-- Takes the next token, or ends the text; tells whether the text goes on. -/
def step (s : Scan) : Except Fault (Bool × Scan) := do
  let s ← (toNextToken s.cursor.steps s).dropStaleKeys
  let s := s.unwindTo s.cursor.column
  if s.cursor.peek = endMark then return (false, ← s.endStream) else return (true, ← s.readToken)

/-- How many tokens are told from what follows them: those before a key that may have begun. -/
def settled (s : Scan) : Nat :=
  ((s.keyStarts.filter fun (_, k) => !isStale s.cursor k).map fun (_, k) => k.tokensBefore).foldl
    min s.count

/-- Takes tokens up to the end of the text or to the first fault, which hides the tokens that are
not settled before it; each step takes at least one character. -/
def run : Nat → Scan → List Token
  | 0, s => s.tokens.reverse
  | n + 1, s =>
    match s.step with
    | .ok (true, s) => run n s
    | .ok (false, s) => s.tokens.reverse
    | .error fault => s.tokens.reverse.take s.settled ++ [.broken fault]

end Scan

/-- Characters that a document may hold. -/
def isAllowed (c : Char) : Bool :=
  let n := singlePoint c
  n == 0x9 || n == 0xa || n == 0xd || decide (0x20 ≤ n ∧ n ≤ 0x7e) || n == 0x85
    || decide (0xa0 ≤ n ∧ n ≤ 0xd7ff) || decide (0xe000 ≤ n ∧ n ≤ 0xfffd) || decide (0x10000 ≤ n)

/-- The tokens of a text. -/
def scan (text : List Char) : List Token :=
  if text.all isAllowed then (Scan.start text).run (text.length + 1) else [.broken .malformed]

end Yaml

end Gatehouse
