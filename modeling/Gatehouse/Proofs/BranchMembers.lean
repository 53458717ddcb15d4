import Gatehouse.Proofs.BranchForm

namespace Gatehouse

theorem foldl_addNew_eq_append (more names : List String) :
    more.foldl addNew names = names ++ (more.filter fun x => x ∉ names).eraseDups := by
  induction more generalizing names with
  | nil => simp
  | cons name rest ih =>
    rw [List.foldl_cons, ih]
    by_cases h : name ∈ names
    · simp [addNew, h]
    · have later : (rest.filter fun x => x ∉ names ++ [name]) =
          (rest.filter fun x => x ∉ names).filter fun x => !(x == name) := by
        rw [List.filter_filter]
        apply List.filter_congr
        intro x _
        rw [Bool.eq_iff_iff]
        simp [and_comm]
      rw [addNew, if_neg h, later]
      simp [h, List.eraseDups_cons]

/-- Names that are put together one by one are the names without repetitions. -/
theorem foldl_addNew_eq_eraseDups (names : List String) :
    names.foldl addNew [] = names.eraseDups := by
  rw [foldl_addNew_eq_append, List.nil_append, List.filter_eq_self.mpr fun x _ => by simp]

/-- Taking the first of each key and choosing by keys can change places. -/
theorem firstOfKeys_filter (p : StepKey → Bool) (steps : List PlacedStep) :
    firstOfKeys (steps.filter fun s => p s.key) = (firstOfKeys steps).filter fun s => p s.key := by
  induction steps with
  | nil => rfl
  | cons s rest ih =>
    cases h : p s.key with
    | true =>
      simp only [List.filter_cons, h, if_true, firstOfKeys, ih, List.filter_filter]
      congr 1
      apply List.filter_congr
      intro t _
      exact Bool.and_comm _ _
    | false =>
      simp only [List.filter_cons, h, Bool.false_eq_true, if_false, firstOfKeys, ih,
        List.filter_filter]
      apply List.filter_congr
      intro t _
      by_cases eq : t.key = s.key
      · simp [eq, h]
      · simp [eq]

theorem firstOfKeys_eq_eraseDupsBy (steps : List PlacedStep) :
    firstOfKeys steps = steps.eraseDupsBy fun s t => s.key == t.key := by
  cases steps with
  | nil => rfl
  | cons s rest =>
    have keys : (rest.filter fun t => decide ((t.key == s.key) = false)) =
        rest.filter fun t => decide (t.key ≠ s.key) := by
      apply List.filter_congr
      intro t _
      simp
    rw [List.eraseDupsBy_cons, keys, ← firstOfKeys_eq_eraseDupsBy, firstOfKeys,
      firstOfKeys_filter fun k => decide (k ≠ s.key)]
termination_by steps.length
decreasing_by exact Nat.lt_succ_of_le (List.length_filter_le _ _)

/-- The step names the condition, or a heuristic for it applies. -/
def IsGated (heuristics : List Heuristic) (condition : String) (s : Step) : Prop :=
  condition ∈ s.conditionNames ∨ ∃ h ∈ heuristics, h.condition = condition ∧ h.applies s = true

/-- Some field that the step waits for has one of the texts in it. -/
def AwaitsOneOf (texts : List String) (s : Step) : Prop :=
  ∃ field ∈ s.dependencies, ∃ text ∈ texts, text.toList <:+: field.toList

def TitleMentions (word : String) (s : Step) : Prop :=
  word.toList <:+: (lowerText (s.title.getD "")).toList

def HandsInAffidavit (s : Step) : Prop :=
  s.stepType = some "Upload" ∧ TitleMentions "affidavit" s

def ReviewsAffidavit (s : Step) : Prop :=
  s.stepType = some "Approval" ∧ TitleMentions "review" s ∧ TitleMentions "affidavit" s

def IsHomeSchool (condition : String) : Prop :=
  condition = "homeschool" ∨ "home_school".toList <:+: condition.toList

instance (heuristics : List Heuristic) (condition : String) (s : Step) :
    Decidable (IsGated heuristics condition s) :=
  inferInstanceAs (Decidable (_ ∨ _))

instance (texts : List String) (s : Step) : Decidable (AwaitsOneOf texts s) :=
  inferInstanceAs (Decidable (∃ field ∈ s.dependencies, ∃ text ∈ texts, _))

instance (word : String) (s : Step) : Decidable (TitleMentions word s) :=
  inferInstanceAs (Decidable (_ <:+: _))

instance (s : Step) : Decidable (HandsInAffidavit s) := inferInstanceAs (Decidable (_ ∧ _))

instance (s : Step) : Decidable (ReviewsAffidavit s) := inferInstanceAs (Decidable (_ ∧ _))

instance (condition : String) : Decidable (IsHomeSchool condition) :=
  inferInstanceAs (Decidable (_ ∨ _))

/-- The steps that satisfy a predicate, in order and the first of each key. -/
def firstSuch (p : PlacedStep → Prop) [DecidablePred p] (steps : List PlacedStep) :
    List PlacedStep :=
  (steps.filter fun s => p s).eraseDupsBy fun s t => s.key == t.key

def tokensIn (steps : List PlacedStep) : List String :=
  steps.filterMap fun s => s.step.completionToken?

theorem mem_of_mem_firstSuch {p : PlacedStep → Prop} [DecidablePred p] {steps : List PlacedStep}
    {s : PlacedStep} (h : s ∈ firstSuch p steps) : s ∈ steps ∧ p s := by
  rw [firstSuch, ← firstOfKeys_eq_eraseDupsBy] at h
  have chosen := (sublist_firstOfKeys _).subset h
  simpa using chosen

theorem exists_key_firstSuch {p : PlacedStep → Prop} [DecidablePred p] {steps : List PlacedStep}
    {s : PlacedStep} (mem : s ∈ steps) (h : p s) : ∃ t ∈ firstSuch p steps, t.key = s.key := by
  rw [firstSuch, ← firstOfKeys_eq_eraseDupsBy]
  apply exists_key_firstOfKeys
  simpa using ⟨mem, h⟩

theorem mem_tokensIn {steps : List PlacedStep} {token : String} :
    token ∈ tokensIn steps ↔ ∃ s ∈ steps, s.step.completionToken? = some token :=
  List.mem_filterMap

section

variable (heuristics : List Heuristic) (steps : List PlacedStep) (condition : String)

def gatedSteps : List PlacedStep := firstSuch (fun s => IsGated heuristics condition s.step) steps

/-- The further steps that wait for the condition or for a gated step. -/
def waitingSteps : List PlacedStep :=
  let gated := gatedSteps heuristics steps condition
  firstSuch (fun s => AwaitsOneOf (condition :: tokensIn gated) s.step ∧
    s.key ∉ gated.map PlacedStep.key) steps

def linkedSteps : List PlacedStep :=
  gatedSteps heuristics steps condition ++ waitingSteps heuristics steps condition

/-- The further steps that review an affidavit, if one is handed in on the way of a home school. -/
def reviewingSteps : List PlacedStep :=
  let linked := linkedSteps heuristics steps condition
  if IsHomeSchool condition ∧ ∃ s ∈ linked, HandsInAffidavit s.step then
    firstSuch (fun s => ReviewsAffidavit s.step ∧ s.key ∉ linked.map PlacedStep.key) steps
  else []

def memberSteps : List PlacedStep :=
  linkedSteps heuristics steps condition ++ reviewingSteps heuristics steps condition

end

theorem isGatedBy_iff {heuristics : List Heuristic} {condition : String} {s : PlacedStep} :
    isGatedBy heuristics condition s = true ↔ IsGated heuristics condition s.step := by
  simp [isGatedBy, IsGated]

theorem waitsOn_iff {condition : String} {anchors : List String} {s : PlacedStep} :
    waitsOn condition anchors s = true ↔ AwaitsOneOf (condition :: anchors) s.step := by
  simp [waitsOn, AwaitsOneOf, mentions_iff]

theorem uploadsAffidavit_iff {s : PlacedStep} :
    uploadsAffidavit s = true ↔ HandsInAffidavit s.step := by
  simp [uploadsAffidavit, HandsInAffidavit, TitleMentions, lowerTitle, mentions_iff]

theorem reviewsAffidavit_iff {s : PlacedStep} :
    reviewsAffidavit s = true ↔ ReviewsAffidavit s.step := by
  simp [reviewsAffidavit, ReviewsAffidavit, TitleMentions, lowerTitle, mentions_iff, and_assoc]

theorem isHomeSchoolName_iff {condition : String} :
    isHomeSchoolName condition = true ↔ IsHomeSchool condition := by
  simp [isHomeSchoolName, IsHomeSchool, mentions_iff]

/-- What a walk adds to a branch: the steps of new keys, in order and the first of each key. -/
theorem Branch.steps_foldl_add_filter (q : PlacedStep → Bool) (p : PlacedStep → Prop)
    [DecidablePred p] (same : ∀ s, q s = true ↔ p s) (b : Branch) (steps : List PlacedStep) :
    ((steps.filter q).foldl Branch.add b).steps =
      b.steps ++ firstSuch (fun s => p s ∧ s.key ∉ b.steps.map PlacedStep.key) steps := by
  have chosen : (steps.filter fun s => decide (p s ∧ s.key ∉ b.steps.map PlacedStep.key)) =
      (steps.filter q).filter fun s => decide (s.key ∉ b.steps.map PlacedStep.key) := by
    rw [List.filter_filter]
    apply List.filter_congr
    intro s _
    rw [Bool.eq_iff_iff]
    simp [same, and_comm]
  have fresh : (fun s : PlacedStep => !b.contains s) =
      fun s => decide (s.key ∉ b.steps.map PlacedStep.key) := by
    funext s
    rw [Bool.eq_iff_iff]
    simp [Branch.contains]
  rw [Branch.steps_foldl_add, firstSuch, chosen, ← firstOfKeys_eq_eraseDupsBy, fresh,
    firstOfKeys_filter fun k => decide (k ∉ b.steps.map PlacedStep.key)]

section

variable (heuristics : List Heuristic) (steps : List PlacedStep) (condition : String)

theorem steps_seedBranch_eq :
    (seedBranch heuristics steps condition).steps = gatedSteps heuristics steps condition := by
  have start : Branch.empty.steps = [] := rfl
  rw [seedBranch, Branch.steps_foldl_add_filter _ _ fun s => isGatedBy_iff, start]
  simp [gatedSteps]

theorem steps_linkedBranch_eq :
    (linkedBranch heuristics steps condition).steps = linkedSteps heuristics steps condition := by
  have anchors : anchorsOf (seedBranch heuristics steps condition) =
      tokensIn (gatedSteps heuristics steps condition) := by
    rw [anchorsOf, steps_seedBranch_eq, tokensIn]
  rw [linkedBranch, Branch.steps_foldl_add_filter _ _ fun s => waitsOn_iff, anchors,
    steps_seedBranch_eq]
  rfl

theorem steps_branchOf_eq :
    (branchOf heuristics steps condition).steps = memberSteps heuristics steps condition := by
  have reviewed : (isHomeSchoolName condition &&
        (linkedBranch heuristics steps condition).steps.any uploadsAffidavit) = true ↔
      IsHomeSchool condition ∧
        ∃ s ∈ linkedSteps heuristics steps condition, HandsInAffidavit s.step := by
    rw [Bool.and_eq_true, isHomeSchoolName_iff, List.any_eq_true, steps_linkedBranch_eq]
    simp only [uploadsAffidavit_iff]
  by_cases h : IsHomeSchool condition ∧
      ∃ s ∈ linkedSteps heuristics steps condition, HandsInAffidavit s.step
  · rw [branchOf, reviewSteps, if_pos (reviewed.mpr h),
      Branch.steps_foldl_add_filter _ _ fun s => reviewsAffidavit_iff, steps_linkedBranch_eq,
      memberSteps, reviewingSteps, if_pos h]
  · rw [branchOf, reviewSteps, if_neg (mt reviewed.mp h), memberSteps, reviewingSteps, if_neg h,
      List.foldl_nil, steps_linkedBranch_eq, List.append_nil]

theorem states_branchOf_eq : (branchOf heuristics steps condition).states =
    (tokensIn (memberSteps heuristics steps condition)).eraseDups := by
  rw [settled_branchOf, tokensOf, steps_branchOf_eq, foldl_addNew_eq_eraseDups, tokensIn]

end

/-- Each condition that gates a step has one branch, in the order of the names: the steps that it
gates, then those that wait for it or for one of these, then the reviews of an affidavit. -/
theorem discoverBranches_eq_memberSteps (heuristics : List Heuristic) (steps : List PlacedStep) :
    (discoverBranches heuristics steps).result =
        (referencedNames heuristics steps).map (fun n => (n,
          { steps := memberSteps heuristics steps n
            states := (tokensIn (memberSteps heuristics steps n)).eraseDups })) ∧
      (referencedNames heuristics steps).Nodup := by
  refine ⟨?_, nodup_referencedNames heuristics steps⟩
  rw [result_discoverBranches]
  apply List.map_congr_left
  intro n _
  rw [← states_branchOf_eq, ← steps_branchOf_eq]

/-- Steps on the way of a home school: one names it, and two say it in their titles. -/
def homeSteps : List PlacedStep :=
  let plain (title : String) : Step :=
    ⟨none, some title, none, none, none, none, false, none, none, [], .empty, .empty⟩
  placeSteps [
    { plain "Affidavit" with
      stepType := some "Upload", conditional := true
      workflowCondition := some (.one "home_school"), id := some (.number 7) },
    { plain "Meeting" with softRequiredFields := some (.one "the affidavit_complete field") },
    { plain "Notes" with softRequiredFields := some (.one "meeting_complete") },
    { plain "Review of the affidavit" with stepType := some "Approval" },
    { plain "Home school talk" with id := some (.number 7) },
    plain "Home School visit"]

/-- What waits for a waiting step stays away, and so does a second step of an identifier. -/
theorem discoverBranches_homeSteps :
    (discoverBranches Heuristic.defaults homeSteps).result.map (fun found =>
        (found.1, found.2.steps.map PlacedStep.place, found.2.states)) =
      [("home_school", [0, 5, 1, 3], ["affidavit_complete", "home_school_visit_complete",
        "meeting_complete", "review_of_the_affidavit_yes"])] := by
  rw [(discoverBranches_eq_memberSteps Heuristic.defaults homeSteps).1, List.map_map]
  decide +kernel

end Gatehouse
