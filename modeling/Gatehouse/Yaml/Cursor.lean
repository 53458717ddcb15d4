import Gatehouse.Text.CodePoint

namespace Gatehouse

namespace Yaml

/-- What can end a line. -/
def isBreak (c : Char) : Bool :=
  c == '\n' || c == '\r' || c == '\u0085' || c == '\u2028' || c == '\u2029'

/-- The mark that stands for the end of the text, which cannot hold it. -/
def endMark : Char := '\x00'

def isBreakOrEnd (c : Char) : Bool := isBreak c || c == endMark

def isGap (c : Char) : Bool := c == ' ' || c == '\t' || isBreakOrEnd c

def byteOrderMark : Char := '\ufeff'

/-- The text that is left, and how far into which line it starts; `size` is the length of the whole
text. -/
structure Cursor where
  rest : List Char
  size : Nat
  index : Nat
  line : Nat
  column : Nat

namespace Cursor

def start (text : List Char) : Cursor := ⟨text, text.length, 0, 0, 0⟩

def peek (c : Cursor) : Char := c.rest.headD endMark

def peekAt (c : Cursor) (n : Nat) : Char := (c.rest.drop n).headD endMark

/-- More steps than any loop takes that uses up a character in each. -/
def steps (c : Cursor) : Nat := c.size + 1

/-- A carriage return before a line feed does not end the line by itself, and a character that
begins a pair does not count. -/
def advance (c : Cursor) : Cursor :=
  match c.rest with
  | [] => c
  | ch :: rest =>
    if isLead ch then { c with rest := rest }
    else if isBreak ch && !(ch == '\r' && rest.head? == some '\n') then
      { c with rest := rest, index := c.index + 1, line := c.line + 1, column := 0 }
    else
      { c with
        rest := rest
        index := c.index + 1
        column := if ch = byteOrderMark then c.column else c.column + 1 }

def skip (c : Cursor) : Nat → Cursor
  | 0 => c
  | n + 1 => c.advance.skip n

def skipWhile (c : Cursor) (p : Char → Bool) : Cursor := c.skip (c.rest.takeWhile p).length

def skipSpaces (c : Cursor) : Cursor := c.skipWhile (· == ' ')

/-- Skips what stands after a number sign, up to the end of the line. -/
def skipComment (c : Cursor) : Cursor :=
  if c.peek = '#' then c.skipWhile fun ch => !isBreak ch else c

/-- The end of a line as one character, and what follows it. -/
def lineBreak? (c : Cursor) : Option (Char × Cursor) :=
  if c.peek = '\r' ∧ c.peekAt 1 = '\n' then some ('\n', c.skip 2)
  else if c.peek = '\u2028' ∨ c.peek = '\u2029' then some (c.peek, c.advance)
  else if isBreak c.peek then some ('\n', c.advance)
  else none

/-- Three dashes or three points, on their own. -/
def startsWith (c : Cursor) (mark : Char) : Bool :=
  c.peek == mark && c.peekAt 1 == mark && c.peekAt 2 == mark && isGap (c.peekAt 3)

def atSeparator (c : Cursor) : Bool := c.startsWith '-' || c.startsWith '.'

end Cursor

end Yaml

end Gatehouse
