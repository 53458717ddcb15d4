import Gatehouse.Text.Encoding
import Gatehouse.Workflow.Basic
import Gatehouse.Workflow.Checked

namespace Gatehouse

/-- Three marks stand for each surrogate, one for each of its bytes. -/
def markHalves (s : String) : String :=
  String.ofList ((points s.toList).flatMap fun n =>
    if isHalf n then List.replicate 3 '\ufffd' else spellPoint n)

/-- The stage for a key: whole numbers that fit 64 bits count as positions, and truth values as
one and zero. -/
def Place.ofKey : Value → Place
  | .text s => key (markHalves s)
  | .int i =>
    if -Int.pow 2 63 ≤ i ∧ i < Int.pow 2 63 then index i
    else if Value.isLongNumber i then key "<unprintable int object>"
    else key (toString i)
  | .bool b => index (if b then 1 else 0)
  | v => key v.display

namespace Checked

/-- The text in bytes. -/
def ofBytes (fault : IssueKind) (bytes : List UInt8) : Checked String :=
  match decodeText? ⟨bytes.toArray⟩ with
  | some s => valid s
  | none => .fault fault

def ofText : Value → Checked String
  | .text s => valid s
  | .bytes bs => ofBytes .stringUnicode bs
  | _ => fault .stringType

def ofOptionalText : Value → Checked (Option String)
  | .null => valid none
  | v => (ofText v).map some

def ofItems {α : Type} (check : Value → Checked α) (xs : List Value) : Checked (List α) :=
  sequence (xs.zipIdx.map fun (x, i) => (check x).within (.index i))

def ofTexts (v : Value) : Checked (List String) :=
  match v.items? with
  | some xs => ofItems ofText xs
  | none => fault .listType

/-- The first of two ways to read a value that fits; a value that fits neither has the issues of
both. -/
def orElse {α : Type} : Checked α → Checked α → Checked α
  | valid a, _ => valid a
  | faulty _, valid a => valid a
  | faulty issues, faulty more => faulty (issues ++ more)

def ofNames : Value → Checked (Option Names)
  | .null => valid none
  | v => (((ofText v).map Names.one).within (.key "str")).orElse
      (((ofTexts v).map Names.many).within (.key "list[str]")) |>.map some

/-- A whole number; truth values count, and so do floats without a fraction that fit 64 bits. Bytes
are read as a number only if they are no text. -/
def ofWhole : Value → Checked Int
  | .int i => valid i
  | .bool b => valid (if b then 1 else 0)
  | .float (.finite negative mant exp) =>
    match (Binary64.finite negative mant exp).toInt? with
    | none => fault .intFromFloat
    | some i => if -Int.pow 2 63 < i ∧ i < Int.pow 2 63 then valid i else fault .intParsingSize
  | .float _ => fault .finiteNumber
  | .bytes _ => fault .intParsing
  | _ => fault .intType

def ofStepId : Value → Checked (Option StepId)
  | .null => valid none
  | v => (((ofText v).map StepId.text).within (.key "str")).orElse
      (((ofWhole v).map StepId.number).within (.key "int")) |>.map some

def ofOptions : Value → Checked (List Value)
  | .null => valid []
  | v =>
    match v.items? with
    | some xs => valid xs
    | none => fault .listType

/-- A key that must be a text. -/
def ofKey (key : Value) : Checked String :=
  ((ofText key).within (.key "[key]")).within (.ofKey key)

def ofCommentEntry (entry : Value × Value) : Checked (String × Value) :=
  (ofKey entry.1).map (·, entry.2)

def ofComments : Value → Checked (Keyed Value)
  | .null => valid Keyed.empty
  | v =>
    match v.entries? with
    | some entries => (sequence (entries.map ofCommentEntry)).map Keyed.ofList
    | none => fault .dictType

end Checked

end Gatehouse
