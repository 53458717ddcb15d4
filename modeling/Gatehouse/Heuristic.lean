import Gatehouse.Text.Casing
import Gatehouse.Text.Search
import Gatehouse.Workflow.Basic

namespace Gatehouse

/-- What makes a step belong to a condition without naming it: who does it, or what it is called. -/
inductive Heuristic where
  | role (condition : String) (roles : List String)
  | phrase (condition : String) (phrase : String)

namespace Heuristic

def condition : Heuristic → String
  | role condition _ | phrase condition _ => condition

/-- The text has the words, in letters of either case. -/
def hasWords (text : Option String) (words : String) : Bool :=
  text.any fun t => t != "" && mentions (lowerText t) (lowerText words)

def applies (h : Heuristic) (s : Step) : Bool :=
  match h with
  | .role _ roles => s.role.any roles.contains
  | .phrase _ words => hasWords s.title words || hasWords s.description words

/-- The heuristics for the three kinds of school. -/
def defaults : List Heuristic :=
  [role "high_school" ["High School", "Counselor"], phrase "home_school" "home school",
    phrase "non_partner" "non partner"]

end Heuristic

end Gatehouse
