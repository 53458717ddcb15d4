import Gatehouse.Event

namespace Gatehouse

/-- The two surrogates of a code point that has them, or itself. -/
def halves (n : Nat) : List Nat :=
  if n < 0x10000 then [n]
  else [0xd800 + (n - 0x10000) / 0x400, 0xdc00 + (n - 0x10000) % 0x400]

def dataEscapes : List (Char × Char) :=
  [('"', '"'), ('\\', '\\'), ('\n', 'n'), ('\r', 'r'), ('\t', 't'), ('\x08', 'b'), ('\x0c', 'f')]

/-- A code point in a quoted text of a data line, which holds no others than the first 128. -/
def dataPoint (n : Nat) : List Char :=
  if 0x80 ≤ n then (halves n).flatMap fun unit => '\\' :: 'u' :: hexPadded 4 unit
  else match dataEscapes.lookup (Char.ofNat n) with
    | some letter => ['\\', letter]
    | none => if 0x20 ≤ n then [Char.ofNat n] else '\\' :: 'u' :: hexPadded 4 n

def dataText (s : String) : String :=
  "\"" ++ String.ofList ((points s.toList).flatMap dataPoint) ++ "\""

def dataFields (fields : List (String × String)) : String :=
  "\x7b" ++ commaSeparated (fields.map fun (name, v) => dataText name ++ ": " ++ v) ++ "\x7d"

mutual

/-- A value in a data line; what such a line has no form for is shown as a text. -/
def dataValue : Value → String
  | .null => "null"
  | .bool b => if b then "true" else "false"
  | .int i => toString i
  | .list xs => "[" ++ commaSeparated (dataItems xs) ++ "]"
  | .text s => dataText s
  | v => dataText v.display

def dataItems : List Value → List String
  | [] => []
  | v :: rest => dataValue v :: dataItems rest

end

namespace Event

/-- The event as one line of data. -/
def dataLine (e : Event) : String :=
  dataFields (e.fields.map (fun f => (f.1, dataValue f.2)) ++
    [("event", dataText e.name), ("logger", dataText e.source.logger),
      ("level", dataText e.level.name)])

/-- The event as one line for a reader. -/
def plainLine (e : Event) : String :=
  "[" ++ e.level.name ++ "] " ++ e.name ++ " [" ++ e.source.logger ++ "]"
    ++ String.join (e.fields.map fun f => " " ++ f.1 ++ "=" ++ f.2.display)

def line (asData : Bool) (e : Event) : String := if asData then e.dataLine else e.plainLine

end Event

end Gatehouse
