import Gatehouse.Calendar

namespace Gatehouse

namespace Yaml

/-- A written tag: a handle that a directive may define, if there is one, and what follows it. -/
structure TagMark where
  handle : Option String
  suffix : String
  deriving DecidableEq

/-- Why a text is no document. -/
inductive Fault where
  /-- a rule of the notation is broken -/
  | malformed
  /-- lists and maps stand too deep inside one another -/
  | tooDeep
  /-- an escape names a number that is no character -/
  | codePoint (n : Nat)
  /-- a word that is tagged as a truth value but is none, in small letters -/
  | notBool (word : String)
  | notInt (base : Nat) (word : String)
  | tooManyDigits (count : Nat)
  | notFloat (word : String)
  /-- a power of sixty that is no double -/
  | hugePower
  /-- a number without any character -/
  | emptyNumber
  | notTimestamp
  /-- a map that is tagged as a moment -/
  | timestampKind
  | calendar (fault : CalendarFault)
  deriving DecidableEq

/-- The pieces of a document, with the start and end of indented blocks made visible. -/
inductive Token where
  | version (major : Nat)
  | tagHandle (handle expansion : String)
  | otherDirective
  | documentStart
  | documentEnd
  | blockSequenceStart
  | blockMappingStart
  | blockEnd
  | flowSequenceStart
  | flowSequenceEnd
  | flowMappingStart
  | flowMappingEnd
  | blockEntry
  | flowEntry
  | key
  | value
  | reference (name : String)
  | anchor (name : String)
  | tag (mark : TagMark)
  | scalar (isPlain : Bool) (text : String)
  /-- from here on the text cannot be read -/
  | broken (fault : Fault)
  deriving DecidableEq

end Yaml

end Gatehouse
