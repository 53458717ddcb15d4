namespace Gatehouse

/-- Conditions whose predicate is fixed. -/
inductive KnownCondition where
  | homeSchool
  | nonPartner
  | partnerHighSchool
  | hasPrerequisites
  | wishList
  | sectionFull
  | minor
  | parentConsent
  | onCampus
  | atHighSchool
  deriving DecidableEq

namespace KnownCondition

def all : List KnownCondition :=
  [homeSchool, nonPartner, partnerHighSchool, hasPrerequisites, wishList, sectionFull, minor,
    parentConsent, onCampus, atHighSchool]

def expression : KnownCondition → String
  | homeSchool => "student.high_school.is_home_school?"
  | nonPartner => "student.high_school.is_non_partner?(college)"
  | partnerHighSchool =>
    "!student.high_school.is_home_school? && !student.high_school.is_non_partner?(college)"
  | hasPrerequisites => "course.has_requisites?"
  | wishList => "course_section.is_wish_list?"
  | sectionFull => "course_section.is_full?"
  | minor => "student.is_minor?"
  | parentConsent => "student.has_parent_consent?"
  | onCampus => "course_section.location == 'College Campus'"
  | atHighSchool => "course_section.location == 'High School'"

/-- The names that stand for the condition. The partner school has none: it is only what is left
when the other two schools are ruled out. -/
def synonyms : KnownCondition → List String
  | homeSchool => ["home_school", "homeschool", "home_schooled", "is_home_school", "isHomeSchool"]
  | nonPartner => ["non_partner", "nonpartner", "is_non_partner", "isNonPartner"]
  | partnerHighSchool => []
  | hasPrerequisites =>
    ["has_prereqs", "hasPrerequisites", "has_prerequisites", "hasRequisites", "has_requisites",
      "prerequisites", "requisites"]
  | wishList => ["wish_list", "isWishList", "is_wish_list"]
  | sectionFull => ["section_full", "isSectionFull", "is_section_full", "course_full"]
  | minor => ["minor", "is_minor", "isMinor"]
  | parentConsent => ["has_parent_consent", "hasParentConsent", "parent_consent"]
  | onCampus => ["on_campus", "college_campus"]
  | atHighSchool => ["at_high_school"]

def ofName? (name : String) : Option KnownCondition := all.find? fun k => k.synonyms.contains name

end KnownCondition

/-- The expression of a name that stands for a known condition. -/
def registeredExpression? (name : String) : Option String :=
  (KnownCondition.ofName? name).map KnownCondition.expression

/-- The three kinds of school, of which a student's is one. -/
def schoolPartition : List (String × KnownCondition) :=
  [("high_school", .partnerHighSchool), ("home_school", .homeSchool), ("non_partner", .nonPartner)]

def schoolNames : List String := schoolPartition.map Prod.fst

end Gatehouse
