namespace Gatehouse

/-- The kinds of record that an initializer attaches to. -/
inductive Target where
  | studentApplication
  | studentTerm
  | studentCourse
  deriving DecidableEq

namespace Target

def all : List Target := [studentApplication, studentTerm, studentCourse]

def name : Target → String
  | studentApplication => "CollegeStudentApplication"
  | studentTerm => "StudentTerm"
  | studentCourse => "StudentDeCourse"

/-- The name in capitals. -/
def label : Target → String
  | studentApplication => "COLLEGE_STUDENT_APPLICATION"
  | studentTerm => "STUDENT_TERM"
  | studentCourse => "STUDENT_DE_COURSE"

def ofName? (s : String) : Option Target := all.find? fun t => t.name == s

end Target

end Gatehouse
