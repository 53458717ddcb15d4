import Gatehouse.Logged
import Gatehouse.Text.Casing

namespace Gatehouse

/-- What a condition can be about. -/
inductive Entity where
  | student
  | highSchool
  | course
  | courseSection
  | term
  | instructor
  | college
  deriving DecidableEq

namespace Entity

def all : List Entity :=
  [student, highSchool, course, courseSection, term, instructor, college]

def name : Entity → String
  | student => "student"
  | highSchool => "high_school"
  | course => "course"
  | courseSection => "course_section"
  | term => "term"
  | instructor => "instructor"
  | college => "college"

def className : Entity → String
  | student => "Student"
  | highSchool => "HighSchool"
  | course => "Course"
  | courseSection => "CourseSection"
  | term => "Term"
  | instructor => "Instructor"
  | college => "College"

/-- Documents name an entity by its class or by its variable. -/
def ofDesignator? (s : String) : Option Entity :=
  all.find? fun e => e.className == s || e.name == s

/-- The expression that reaches the entity inside an initializer. -/
def accessor : Entity → String
  | highSchool => "student.high_school"
  | e => e.name

/-- The targets whose initializer can reach the entity. -/
def scope : Entity → List Target
  | student | highSchool | college => Target.all
  | course | courseSection | instructor => [.studentCourse]
  | term => [.studentTerm]

/-- Properties whose method has another name than theirs. -/
def methods : Entity → List (String × String)
  | student =>
    [("isMinor", "is_minor?"), ("is_minor", "is_minor?"),
      ("hasParentConsent", "has_parent_consent?"), ("has_parent_consent", "has_parent_consent?"),
      ("isHomeSchool", "high_school.is_home_school?"),
      ("is_home_school", "high_school.is_home_school?")]
  | highSchool =>
    [("isNonPartner", "is_non_partner?(college)"), ("is_non_partner", "is_non_partner?(college)"),
      ("isHomeSchool", "is_home_school?"), ("is_home_school", "is_home_school?")]
  | course =>
    [("hasPrerequisites", "has_requisites?"), ("has_prerequisites", "has_requisites?"),
      ("hasRequisites", "has_requisites?"), ("has_requisites", "has_requisites?"),
      ("hasCourseCategory", "has_course_category?"),
      ("has_course_category", "has_course_category?")]
  | courseSection =>
    [("isFull", "is_full?"), ("is_full", "is_full?"), ("isWishList", "is_wish_list?"),
      ("is_wish_list", "is_wish_list?")]
  | term | instructor | college => []

/-- The method for a property of the entity; other properties are methods themselves. -/
def method (e : Entity) (property : String) : String := (e.methods.lookup property).getD property

end Entity

/-- The entity that a designator stands for; an absent or empty one stands for none. -/
def entityOf? : Option String → Option Entity
  | some s => if s = "" then none else Entity.ofDesignator? s
  | none => none

/-- The expression that reaches what a designator stands for: a student if there is none, and an
unknown one is taken for a variable. -/
def accessorFor : Option String → Logged String
  | none => pure Entity.student.accessor
  | some s =>
    if s = "" then pure Entity.student.accessor
    else match Entity.ofDesignator? s with
      | some e => pure e.accessor
      | none => do
        Logged.note (.entityUnknown s (lowerText s))
        pure (lowerText s)

/-- The method for a property of what a designator stands for. -/
def methodFor (entity property : Option String) : Option String :=
  match property with
  | none => none
  | some p =>
    if p = "" then none
    else if entity.getD "" = "" then some (Entity.student.method p)
    else match entityOf? entity with
      | some e => some (e.method p)
      | none => some p

end Gatehouse
