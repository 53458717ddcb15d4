import Gatehouse.Entity
import Gatehouse.KnownCondition
import Gatehouse.Workflow.Basic

namespace Gatehouse

/-- A field that every class sets if a predicate holds, and another one that it may set if not. -/
structure FieldGuard where
  remark : String
  predicate : String
  field : String
  otherwise : Option String

/-- What tells the class for one target from the others. -/
structure Profile where
  target : Target
  classSuffix : String
  fileSuffix : String
  category : String
  heading : String
  entities : List Entity
  homeSchoolFields : List String
  nonPartnerFields : List String
  partnerFields : List String
  guardsBefore : List FieldGuard
  guardsAfter : List FieldGuard
  commonFields : List String
  /-- only steps of the category, and those without one, count -/
  filtersByCategory : Bool
  /-- the kind of school is asked for in place and not kept in variables -/
  asksInPlace : Bool

namespace Profile

def studentApplication : Profile where
  target := .studentApplication
  classSuffix := "CollegeStudentApplication"
  fileSuffix := "college_student_application"
  category := "One Time"
  heading := "One-time workflow initialization"
  entities := [.student, .college]
  homeSchoolFields := ["parent_consent_provided", "home_school", "mou_required"]
  nonPartnerFields := ["non_partner", "parent_consent_required"]
  partnerFields := ["high_school", "parent_consent_required", "partner_high_school"]
  guardsBefore := []
  guardsAfter := []
  commonFields := ["parent_consent_email"]
  filtersByCategory := true
  asksInPlace := false

def studentTerm : Profile where
  target := .studentTerm
  classSuffix := "StudentTerm"
  fileSuffix := "student_term"
  category := "Per Term"
  heading := "Per-term workflow initialization"
  entities := [.student, .college, .term]
  homeSchoolFields := ["home_school"]
  nonPartnerFields := ["non_partner"]
  partnerFields := ["high_school", "partner_high_school"]
  guardsBefore :=
    [⟨"Parent consent based on student age", KnownCondition.minor.expression,
      "parent_consent_required", some "parent_consent_provided"⟩]
  guardsAfter := []
  commonFields := ["parent_consent_email"]
  filtersByCategory := false
  asksInPlace := false

def studentCourse : Profile where
  target := .studentCourse
  classSuffix := "CourseRegistration"
  fileSuffix := "course_registration"
  category := "Per Course"
  heading := "Per-course workflow initialization"
  entities := [.student, .college, .course, .courseSection]
  homeSchoolFields := ["home_school"]
  nonPartnerFields := ["non_partner"]
  partnerFields := ["high_school", "hs_student"]
  guardsBefore := []
  guardsAfter :=
    [⟨"Set course prerequisites flag if applicable", KnownCondition.hasPrerequisites.expression,
        "has_prereqs", none⟩,
      ⟨"Set wish list flag if applicable", KnownCondition.wishList.expression, "wish_list", none⟩]
  commonFields := ["parent_consent_email"]
  filtersByCategory := false
  asksInPlace := true

def ofTarget : Target → Profile
  | .studentApplication => studentApplication
  | .studentTerm => studentTerm
  | .studentCourse => studentCourse

theorem target_ofTarget (target : Target) : (ofTarget target).target = target := by
  cases target <;> rfl

/-- The profile of a target that is given by its name. -/
def ofValue? : Value → Option Profile
  | .text s => (Target.ofName? s).map ofTarget
  | _ => none

def className (p : Profile) (college : String) : String :=
  "Initialize" ++ capitalize college ++ p.classSuffix ++ "Step"

def fileName (p : Profile) (college : String) : String :=
  "initialize_" ++ college ++ "_" ++ p.fileSuffix ++ "_step.rb"

/-- The variables that the class takes from its record. -/
def bindings (p : Profile) : List String := p.entities.map Entity.accessor

def counts (p : Profile) (s : Step) : Bool :=
  !p.filtersByCategory || s.category.getD "" == "" || s.category == some p.category

/-- The steps that count for the target. -/
def selectSteps (p : Profile) (w : Workflow) : List PlacedStep :=
  w.placedSteps.filter fun s => p.counts s.step

end Profile

end Gatehouse
