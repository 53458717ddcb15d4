import Gatehouse.Entity
import Gatehouse.Text.Search
import Gatehouse.Workflow.Basic

namespace Gatehouse

namespace Condition

def isCourseFlavored (c : Condition) : Bool :=
  let name := lowerText c.name
  let method := c.rubyMethod.getD ""
  mentions name "course" || mentions name "prereq" || mentions method "requisites"
    || mentions method "course_section"

def isTermFlavored (c : Condition) : Bool :=
  mentions (lowerText c.name) "term" || mentions (c.rubyMethod.getD "") "term"

/-- The target's initializer can reach what the condition is about: its entity is in scope, courses
and prerequisites belong to courses, and terms to terms. -/
def isRelevant (c : Condition) (target : Target) : Bool :=
  (match entityOf? c.entity with
    | some e => e.scope.contains target
    | none => true)
  && (!c.isCourseFlavored || target == .studentCourse)
  && (!c.isTermFlavored || target == .studentTerm)

end Condition

end Gatehouse
