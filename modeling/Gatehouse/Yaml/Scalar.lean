import Gatehouse.Text.CodePoint
import Gatehouse.Yaml.Cursor
import Gatehouse.Yaml.Token

namespace Gatehouse

namespace Yaml

/-- Line ends with the spaces around them; ends early at a document separator, which is told by
`none`. -/
def plainBreaks : Nat → Cursor → Option (List Char) × Cursor
  | 0, c => (some [], c)
  | n + 1, c =>
    if c.peek = ' ' then plainBreaks n c.advance
    else match c.lineBreak? with
      | some (brk, c) =>
        if c.atSeparator then (none, c)
        else
          let (more, c) := plainBreaks n c
          (more.map (brk :: ·), c)
      | none => (some [], c)

/-- Folds the end of a line and those after it: one line feed alone becomes a space. -/
def foldBreaks (first : Char) (more : List Char) : List Char :=
  if first ≠ '\n' then first :: more else if more.isEmpty then [' '] else more

/-- What stands between two parts of a plain scalar. -/
structure PlainGap where
  text : List Char
  crossesLine : Bool
  after : Cursor

def plainGap (c : Cursor) : PlainGap :=
  let spaces := c.rest.takeWhile (· == ' ')
  let c := c.skipSpaces
  match c.lineBreak? with
  | none => ⟨spaces, false, c⟩
  | some (first, c) =>
    if c.atSeparator then ⟨[], true, c⟩
    else match plainBreaks c.steps c with
      | (none, c) => ⟨[], true, c⟩
      | (some more, c) => ⟨foldBreaks first more, true, c⟩

/-- The text up to a gap, a colon before a gap, or inside brackets one of their marks. -/
def plainRun (inFlow : Bool) : List Char → List Char
  | [] => []
  | c :: rest =>
    let next := rest.headD endMark
    if isGap c || (c == ':' && (isGap next || (inFlow && ",[]\x7b\x7d".toList.contains next)))
        || (inFlow && ",?[]\x7b\x7d".toList.contains c) then []
    else c :: plainRun inFlow rest

/-- A scalar that has been read, whether its last part was followed by a line end, and the rest. -/
structure ScalarRead where
  text : List Char
  crossesLine : Bool
  after : Cursor

/-- The parts of a plain scalar from a place on, with the gap before it. -/
def plainScalar (inFlow : Bool) (indent : Int) : Nat → PlainGap → ScalarRead
  | 0, gap => ⟨[], gap.crossesLine, gap.after⟩
  | n + 1, gap =>
    let c := gap.after
    let run := plainRun inFlow c.rest
    if c.peek = '#' ∨ run = [] then ⟨[], gap.crossesLine, c⟩
    else
      let next := plainGap (c.skip run.length)
      if next.text.isEmpty || next.after.peek == '#'
          || (!inFlow && decide ((next.after.column : Int) < indent)) then
        ⟨gap.text ++ run, next.crossesLine, next.after⟩
      else
        let more := plainScalar inFlow indent n next
        { more with text := gap.text ++ run ++ more.text }

/-- Reads a plain scalar; its lines must be indented unless it stands in brackets. -/
def readPlain (inFlow : Bool) (indent : Int) (c : Cursor) : ScalarRead :=
  plainScalar inFlow indent c.steps ⟨[], false, c⟩

def quotedBreaks : Nat → Cursor → Except Fault (List Char × Cursor)
  | 0, _ => .error .malformed
  | n + 1, c =>
    if c.atSeparator then .error .malformed
    else
      let c := c.skipWhile fun ch => ch == ' ' || ch == '\t'
      match c.lineBreak? with
      | some (brk, c) => do
        let (more, c) ← quotedBreaks n c
        pure (brk :: more, c)
      | none => .ok ([], c)

/-- The characters that a backslash and a letter stand for. -/
def shortEscapes : List (Char × Char) :=
  [('0', '\x00'), ('a', '\x07'), ('b', '\x08'), ('t', '\t'), ('\t', '\t'), ('n', '\n'),
    ('v', '\x0b'), ('f', '\x0c'), ('r', '\r'), ('e', '\x1b'), (' ', ' '), ('"', '"'),
    ('\\', '\\'), ('/', '/'), ('N', '\u0085'), ('_', '\u00a0'), ('L', '\u2028'), ('P', '\u2029')]

def numericEscapes : List (Char × Nat) := [('x', 2), ('u', 4), ('U', 8)]

def hexValue? (c : Char) : Option Nat :=
  if c.isDigit then some (c.toNat - 0x30)
  else if 'a' ≤ c ∧ c ≤ 'f' then some (c.toNat - 0x57)
  else if 'A' ≤ c ∧ c ≤ 'F' then some (c.toNat - 0x37)
  else none

def hexNumber? (digits : List Char) : Option Nat :=
  digits.foldl (fun n d => do some (16 * (← n) + (← hexValue? d))) (some 0)

/-- What a backslash and the text after it stand for. -/
def readEscape (c : Cursor) : Except Fault (List Char × Cursor) :=
  match shortEscapes.lookup c.peek with
  | some ch => .ok ([ch], c.advance)
  | none =>
    match numericEscapes.lookup c.peek with
    | some width =>
      let digits := c.advance.rest.take width
      match if digits.length = width then hexNumber? digits else none with
      | some n =>
        if n < 0x110000 then .ok (spellPoint n, c.skip (width + 1)) else .error (.codePoint n)
      | none => .error .malformed
    | none =>
      match c.lineBreak? with
      | some (_, c) => quotedBreaks c.steps c
      | none => .error .malformed

/-- The spaces and line ends inside a quoted scalar. -/
def quotedGap (c : Cursor) : Except Fault (List Char × Cursor) :=
  let blanks := c.rest.takeWhile fun ch => ch == ' ' || ch == '\t'
  let c := c.skip blanks.length
  match c.lineBreak? with
  | some (first, c) => do
    let (more, c) ← quotedBreaks c.steps c
    pure (foldBreaks first more, c)
  | none => .ok (blanks, c)

/-- The text up to the closing quote. -/
def quotedScalar (isDouble : Bool) : Nat → Cursor → Except Fault (List Char × Cursor)
  | 0, _ => .error .malformed
  | n + 1, c =>
    let ch := c.peek
    let after (text : List Char) (c : Cursor) : Except Fault (List Char × Cursor) := do
      let (more, c) ← quotedScalar isDouble n c
      pure (text ++ more, c)
    if ch = endMark then .error .malformed
    else if !isDouble && ch == '\'' && c.peekAt 1 == '\'' then after ['\''] (c.skip 2)
    else if ch = (if isDouble then '"' else '\'') then .ok ([], c.advance)
    else if isDouble && ch == '\\' then do
      let (text, c) ← readEscape c.advance
      after text c
    else if isGap ch then do
      let (gap, c) ← quotedGap c
      after gap c
    else after [ch] c.advance

/-- Reads a scalar in quotes, from its first quote on. -/
def readQuoted (c : Cursor) : Except Fault (List Char × Cursor) :=
  quotedScalar (c.peek == '"') c.steps c.advance

/-- What is kept of the line ends after the last line of a block scalar. -/
inductive Chomp where
  | strip
  | clip
  | keep
  deriving DecidableEq

def chompOf? (c : Char) : Option Chomp :=
  if c = '+' then some .keep else if c = '-' then some .strip else none

def indentDigit? (c : Char) : Option Nat := if c.isDigit then some (c.toNat - 0x30) else none

/-- The marks after the head of a block scalar, in either order. -/
def blockMarks (c : Cursor) : Except Fault (Chomp × Option Nat × Cursor) := do
  let (chomp, width, c) :=
    match chompOf? c.peek with
    | some chomp =>
      match indentDigit? (c.peekAt 1) with
      | some width => (chomp, some width, c.skip 2)
      | none => (chomp, none, c.advance)
    | none =>
      match indentDigit? c.peek with
      | some width =>
        match chompOf? (c.peekAt 1) with
        | some chomp => (chomp, some width, c.skip 2)
        | none => (Chomp.clip, some width, c.advance)
      | none => (Chomp.clip, none, c)
  if width = some 0 ∨ !(c.peek == ' ' || isBreakOrEnd c.peek) then .error .malformed
  else .ok (chomp, width, c)

/-- The rest of a line on which only a comment may follow. -/
def endOfLine (c : Cursor) : Except Fault Cursor :=
  let c := c.skipSpaces.skipComment
  match c.lineBreak? with
  | some (_, c) => .ok c
  | none => if c.peek = endMark then .ok c else .error .malformed

/-- Empty lines before a block scalar, and the widest indentation found on the way. -/
def leadingBreaks : Nat → Nat → Cursor → List Char × Nat × Cursor
  | 0, width, c => ([], width, c)
  | n + 1, width, c =>
    if c.peek = ' ' then leadingBreaks n (max width c.advance.column) c.advance
    else match c.lineBreak? with
      | some (brk, c) =>
        let (more, width, c) := leadingBreaks n width c
        (brk :: more, width, c)
      | none => ([], width, c)

/-- Skips spaces up to a column. -/
def skipIndent (indent : Nat) (c : Cursor) : Cursor :=
  c.skip (min (indent - c.column) (c.rest.takeWhile (· == ' ')).length)

def blockBreaks (indent : Nat) : Nat → Cursor → List Char × Cursor
  | 0, c => ([], c)
  | n + 1, c =>
    let c := skipIndent indent c
    match c.lineBreak? with
    | some (brk, c) =>
      let (more, c) := blockBreaks indent n c
      (brk :: more, c)
    | none => ([], c)

def isSpaceOrTab (c : Char) : Bool := c == ' ' || c == '\t'

/-- The lines of a block scalar, the end of its last line and the empty lines after it. -/
structure BlockRead where
  text : List Char
  lineEnd : List Char
  breaks : List Char
  after : Cursor

/-- Reads the lines of a block scalar, which come behind empty ones. -/
def blockLines (folded : Bool) (indent : Nat) : Nat → List Char → Cursor → BlockRead
  | 0, breaks, c => ⟨[], [], breaks, c⟩
  | n + 1, breaks, c =>
    if c.column = indent ∧ c.peek ≠ endMark then
      let line := c.rest.takeWhile fun ch => !isBreak ch
      let (lineEnd, after) := match (c.skip line.length).lineBreak? with
        | some (brk, after) => ([brk], after)
        | none => ([], c.skip line.length)
      let (empty, after) := blockBreaks indent after.steps after
      if after.column = indent ∧ after.peek ≠ endMark then
        let isFolded := folded && lineEnd == ['\n'] && !isSpaceOrTab c.peek
          && !isSpaceOrTab after.peek
        let gap := if !isFolded then lineEnd else if empty.isEmpty then [' '] else []
        let more := blockLines folded indent n empty after
        { more with text := breaks ++ line ++ gap ++ more.text }
      else ⟨breaks ++ line, lineEnd, empty, after⟩
    else ⟨[], [], breaks, c⟩

/-- Reads a block scalar from its head on; `outer` is the indentation around it. -/
def readBlock (outer : Int) (c : Cursor) : Except Fault (List Char × Cursor) := do
  let (chomp, width, marked) ← blockMarks c.advance
  let start ← endOfLine marked
  let least := max (outer + 1).toNat 1
  let fuel := start.steps
  let (breaks, indent, body) :=
    match width with
    | none =>
      let (breaks, widest, body) := leadingBreaks fuel 0 start
      (breaks, max least widest, body)
    | some width =>
      let indent := least + width - 1
      let (breaks, body) := blockBreaks indent fuel start
      (breaks, indent, body)
  let r := blockLines (c.peek == '>') indent fuel breaks body
  pure (r.text ++ (if chomp = .strip then [] else r.lineEnd)
    ++ (if chomp = .keep then r.breaks else []), r.after)

end Yaml

end Gatehouse
