namespace Gatehouse

inductive Comparison where
  | equals
  | notEquals
  | greaterThan
  | lessThan
  | greaterOrEqual
  | lessOrEqual
  | includes
  | notIncludes
  | present
  | blank
  | custom
  deriving DecidableEq

namespace Comparison

def all : List Comparison :=
  [equals, notEquals, greaterThan, lessThan, greaterOrEqual, lessOrEqual, includes, notIncludes,
    present, blank, custom]

def name : Comparison → String
  | equals => "equals"
  | notEquals => "not-equals"
  | greaterThan => "greater-than"
  | lessThan => "less-than"
  | greaterOrEqual => "greater-or-equal"
  | lessOrEqual => "less-or-equal"
  | includes => "includes"
  | notIncludes => "not-includes"
  | present => "present"
  | blank => "blank"
  | custom => "custom"

/-- Other spellings that stand for a comparison. -/
def aliases : List (String × Comparison) :=
  [("==", equals), ("!=", notEquals), (">", greaterThan), ("<", lessThan), (">=", greaterOrEqual),
    ("<=", lessOrEqual), ("greater-than-or-equal", greaterOrEqual),
    ("less-than-or-equal", lessOrEqual), ("contains", includes), ("not-contains", notIncludes)]

def parse? (s : String) : Option Comparison :=
  (aliases.lookup s).or (all.find? fun c => c.name == s)

/-- The operator of a comparison of size. -/
def ordering? : Comparison → Option String
  | greaterThan => some ">"
  | lessThan => some "<"
  | greaterOrEqual => some ">="
  | lessOrEqual => some "<="
  | _ => none

end Comparison

end Gatehouse
