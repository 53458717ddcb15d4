import Gatehouse.Value

namespace Gatehouse

/-- One stage of the way to a faulty part: a key or a position. -/
inductive Place where
  | key (name : String)
  | index (i : Int)
  deriving DecidableEq

inductive IssueKind where
  | missing
  | stringType
  | stringUnicode
  | listType
  | dictType
  | modelType
  | invalidKey
  | intType
  | intFromFloat
  | intParsing
  | intParsingSize
  | finiteNumber
  deriving DecidableEq

def IssueKind.name : IssueKind → String
  | missing => "missing"
  | stringType => "string_type"
  | stringUnicode => "string_unicode"
  | listType => "list_type"
  | dictType => "dict_type"
  | modelType => "model_type"
  | invalidKey => "invalid_key"
  | intType => "int_type"
  | intFromFloat => "int_from_float"
  | intParsing => "int_parsing"
  | intParsingSize => "int_parsing_size"
  | finiteNumber => "finite_number"

structure Issue where
  path : List Place
  kind : IssueKind
  deriving DecidableEq

/-- A checked value, or all that is wrong with it. -/
inductive Checked (α : Type) where
  | valid (a : α)
  | faulty (issues : List Issue)

namespace Checked

variable {α β : Type}

def fault (kind : IssueKind) : Checked α := faulty [⟨[], kind⟩]

def map (f : α → β) : Checked α → Checked β
  | valid a => valid (f a)
  | faulty issues => faulty issues

/-- Both parts are looked at; the issues of the first come first. -/
def apply (f : Checked (α → β)) (a : Checked α) : Checked β :=
  match f, a with
  | valid f, valid a => valid (f a)
  | valid _, faulty issues => faulty issues
  | faulty issues, valid _ => faulty issues
  | faulty issues, faulty more => faulty (issues ++ more)

instance : Applicative Checked where
  pure := valid
  map := map
  seq f a := apply f (a ())

/-- Puts one stage before the way of each issue. -/
def within (place : Place) : Checked α → Checked α
  | valid a => valid a
  | faulty issues => faulty (issues.map fun i => { i with path := place :: i.path })

/-- All values of a list, or all issues in its order. -/
def sequence : List (Checked α) → Checked (List α)
  | [] => valid []
  | c :: rest => apply (map List.cons c) (sequence rest)

end Checked

end Gatehouse
