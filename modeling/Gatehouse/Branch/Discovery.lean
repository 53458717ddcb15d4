import Gatehouse.Branch.Basic
import Gatehouse.Heuristic
import Gatehouse.Logged

namespace Gatehouse

/-- The conditions that gate the steps: those that steps name go first, then those of the
heuristics that apply to a step. -/
def referencedNames (heuristics : List Heuristic) (steps : List PlacedStep) : List String :=
  let tagged := steps.foldl (fun names s => s.step.conditionNames.foldl addNew names) []
  heuristics.foldl
    (fun names h =>
      if steps.any fun s => h.applies s.step then addNew names h.condition else names)
    tagged

/-- The step names the condition, or a heuristic for it applies. -/
def isGatedBy (heuristics : List Heuristic) (condition : String) (s : PlacedStep) : Bool :=
  s.step.conditionNames.contains condition
    || heuristics.any fun h => h.condition == condition && h.applies s.step

/-- The step waits for the condition or for one of the fields. -/
def waitsOn (condition : String) (anchors : List String) (s : PlacedStep) : Bool :=
  s.step.dependencies.any fun field =>
    mentions field condition || anchors.any fun anchor => mentions field anchor

def linkDependent (condition : String) (anchors : List String) (b : Branch) (s : PlacedStep) :
    Logged Branch :=
  match b.add? s with
  | some b' =>
    if waitsOn condition anchors s then do
      Logged.note (.dependentStepLinked condition s.step.title)
      pure b'
    else pure b
  | none => pure b

def lowerTitle (s : PlacedStep) : String := lowerText (s.step.title.getD "")

/-- The step hands in an affidavit. -/
def uploadsAffidavit (s : PlacedStep) : Bool :=
  s.step.stepType == some "Upload" && mentions (lowerTitle s) "affidavit"

/-- The step reviews an affidavit. -/
def reviewsAffidavit (s : PlacedStep) : Bool :=
  s.step.stepType == some "Approval" && mentions (lowerTitle s) "review"
    && mentions (lowerTitle s) "affidavit"

def linkReview (condition : String) (b : Branch) (s : PlacedStep) : Logged Branch :=
  if reviewsAffidavit s then
    match b.add? s with
    | some b' => do
      Logged.note (.affidavitReviewLinked condition s.step.title)
      pure b'
    | none => pure b
  else pure b

def isHomeSchoolName (condition : String) : Bool :=
  condition == "homeschool" || mentions condition "home_school"

/-- Reviews belong to a home school branch that collects an affidavit. -/
def linkReviews (condition : String) (steps : List PlacedStep) (b : Branch) : Logged Branch :=
  if isHomeSchoolName condition && b.steps.any uploadsAffidavit then
    steps.foldlM (linkReview condition) b
  else pure b

/-- The branch of a condition: the steps that it gates, then those that wait on one of these, then
the reviews of an affidavit. Steps that wait on a waiting step do not belong. -/
def discoverBranch (heuristics : List Heuristic) (steps : List PlacedStep) (condition : String) :
    Logged Branch := do
  let seeds := (steps.filter (isGatedBy heuristics condition)).foldl Branch.add Branch.empty
  let anchors := seeds.steps.filterMap fun s => s.step.completionToken?
  let linked ← steps.foldlM (linkDependent condition anchors) seeds
  let branch ← linkReviews condition steps linked
  Logged.note (.branchDiscovered condition branch.titles branch.states)
  pure branch

/-- The branch of each condition that gates the steps. -/
def discoverBranches (heuristics : List Heuristic) (steps : List PlacedStep) :
    Logged (List (String × Branch)) :=
  (referencedNames heuristics steps).mapM fun condition => do
    let branch ← discoverBranch heuristics steps condition
    pure (condition, branch)

end Gatehouse
