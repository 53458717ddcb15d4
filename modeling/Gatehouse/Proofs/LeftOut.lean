import Gatehouse.Proofs.ResolutionDomain

namespace Gatehouse

/-- The condition that an event tells to be left out. -/
def Event.leftOut? : Event → Option String
  | conditionSkipped name _ | conditionDropped name => some name
  | _ => none

def leftOut (events : List Event) : List String := events.filterMap Event.leftOut?

theorem leftOut_append (events more : List Event) :
    leftOut (events ++ more) = leftOut events ++ leftOut more := List.filterMap_append

theorem mem_leftOut {events : List Event} {n : String} :
    n ∈ leftOut events ↔
      ∃ e ∈ events, (∃ reason, e = .conditionSkipped n reason) ∨ e = .conditionDropped n := by
  have tells (e : Event) : e.leftOut? = some n ↔
      (∃ reason, e = .conditionSkipped n reason) ∨ e = .conditionDropped n := by
    cases e <;> simp [Event.leftOut?]
  simp only [leftOut, List.mem_filterMap, tells]

namespace Logged

variable {α β : Type}

/-- No condition is told to be left out. -/
def IsQuiet (x : Logged α) : Prop := leftOut x.events = []

theorem isQuiet_pure (a : α) : (pure a : Logged α).IsQuiet := rfl

theorem isQuiet_note {e : Event} (h : e.leftOut? = none) : (note e).IsQuiet := by
  simp [IsQuiet, leftOut, h]

theorem isQuiet_note_pure {e : Event} (h : e.leftOut? = none) (a : α) :
    (note e >>= fun _ => pure a).IsQuiet := by
  simp [IsQuiet, leftOut, h]

theorem IsQuiet.bind {x : Logged α} {f : α → Logged β} (hx : x.IsQuiet)
    (hf : (f x.result).IsQuiet) : (x >>= f).IsQuiet := by
  rw [IsQuiet, events_bind, leftOut_append, hx, hf]
  rfl

theorem isQuiet_foldlM {f : β → α → Logged β} (hf : ∀ b a, (f b a).IsQuiet) (b : β)
    (xs : List α) : (xs.foldlM f b).IsQuiet := by
  induction xs generalizing b with
  | nil => exact isQuiet_pure b
  | cons x rest ih =>
    rw [List.foldlM_cons]
    exact (hf b x).bind (ih _)

theorem isQuiet_mapM {f : α → Logged β} (hf : ∀ a, (f a).IsQuiet) (xs : List α) :
    (xs.mapM f).IsQuiet := by
  induction xs with
  | nil => exact isQuiet_pure []
  | cons x rest ih =>
    rw [List.mapM_cons]
    exact (hf x).bind (ih.bind (isQuiet_pure _))

end Logged

theorem isQuiet_linkDependent (condition : String) (anchors : List String) (b : Branch)
    (s : PlacedStep) : (linkDependent condition anchors b s).IsQuiet := by
  unfold linkDependent
  split
  next =>
    split
    next => exact Logged.isQuiet_note_pure rfl _
    next => exact Logged.isQuiet_pure _
  next => exact Logged.isQuiet_pure _

theorem isQuiet_linkReview (condition : String) (b : Branch) (s : PlacedStep) :
    (linkReview condition b s).IsQuiet := by
  unfold linkReview
  split
  next =>
    split
    next => exact Logged.isQuiet_note_pure rfl _
    next => exact Logged.isQuiet_pure _
  next => exact Logged.isQuiet_pure _

/-- The search for branches tells of steps that are linked and of branches that are found only. -/
theorem isQuiet_discoverBranches (heuristics : List Heuristic) (steps : List PlacedStep) :
    (discoverBranches heuristics steps).IsQuiet := by
  have reviews (condition : String) (b : Branch) :
      (linkReviews condition steps b).IsQuiet := by
    unfold linkReviews
    split
    next => exact Logged.isQuiet_foldlM (isQuiet_linkReview condition) b steps
    next => exact Logged.isQuiet_pure b
  refine Logged.isQuiet_mapM (fun condition => ?_) _
  refine Logged.IsQuiet.bind ?_ (Logged.isQuiet_pure _)
  unfold discoverBranch
  exact (Logged.isQuiet_foldlM (isQuiet_linkDependent condition _) _ _).bind
    ((reviews condition _).bind (Logged.isQuiet_note_pure rfl _))

theorem isQuiet_accessorFor (designator : Option String) : (accessorFor designator).IsQuiet := by
  unfold accessorFor
  split
  next => exact Logged.isQuiet_pure _
  next =>
    split
    next => exact Logged.isQuiet_pure _
    next =>
      split
      next => exact Logged.isQuiet_pure _
      next => exact Logged.isQuiet_note_pure rfl _

namespace Condition

variable (c : Condition)

theorem isQuiet_compileCustom : c.compileCustom.IsQuiet := by
  unfold compileCustom
  split
  next =>
    split
    next => exact Logged.isQuiet_pure _
    next => exact Logged.isQuiet_note_pure rfl _
  next => exact Logged.isQuiet_note_pure rfl _

theorem leftOut_compileCall : leftOut c.compileCall.events = [] := by
  have accessor : leftOut (accessorFor c.entity).events = [] := isQuiet_accessorFor c.entity
  unfold compileCall
  rw [Compiling.events_bind_ok (Compiling.outcome_lift _), Compiling.events_lift, leftOut_append,
    accessor]
  split
  next =>
    split
    next => rfl
    next => rfl
  next => rfl

/-- Compiling a condition never tells that a condition is left out; whoever asks for the expression
does. -/
theorem leftOut_compile : leftOut c.compile.events = [] := by
  unfold compile
  split
  next =>
    rw [Compiling.events_lift]
    exact c.isQuiet_compileCustom
  next =>
    split
    next =>
      rw [Compiling.events_bind_ok (Compiling.outcome_lift _), Compiling.events_lift,
        leftOut_append, isQuiet_accessorFor c.entity]
      rfl
    next =>
      split
      next => rfl
      next =>
        split
        next => rfl
        next => exact c.leftOut_compileCall

end Condition

/-- The declared names that are left out: those that gate no step, those out of reach and those
without an expression. -/
def Workflow.namesLeftOut (w : Workflow) (referenced : List String) (target : Target) :
    List String :=
  (w.conditions.entries.filter fun e => ¬IsTakenIn referenced target e).map Prod.fst

/-- Each declared name is taken in or left out. -/
theorem Workflow.mem_keys_iff (w : Workflow) (referenced : List String) (target : Target)
    (n : String) :
    n ∈ w.conditions.keys ↔
      n ∈ w.declaredNames referenced target ∨ n ∈ w.namesLeftOut referenced target := by
  simp only [Keyed.keys, declaredNames, namesLeftOut, List.mem_map, List.mem_filter,
    decide_eq_true_eq]
  constructor
  · rintro ⟨e, he, rfl⟩
    by_cases taken : IsTakenIn referenced target e
    · exact Or.inl ⟨e, ⟨he, taken⟩, rfl⟩
    · exact Or.inr ⟨e, ⟨he, taken⟩, rfl⟩
  · rintro (⟨e, ⟨he, -⟩, rfl⟩ | ⟨e, ⟨he, -⟩, rfl⟩)
    · exact ⟨e, he, rfl⟩
    · exact ⟨e, he, rfl⟩

namespace Resolution

/-- A name is compiled, or one of the events tells that it is left out. -/
def Accounts (r : Resolution) (events : List Event) (n : String) : Prop :=
  n ∈ r.compiled.keys ∨
    ∃ e ∈ events, (∃ reason, e = .conditionSkipped n reason) ∨ e = .conditionDropped n

theorem accounts_iff {r : Resolution} {events : List Event} {n : String} :
    r.Accounts events n ↔ n ∈ r.compiled.keys ∨ n ∈ leftOut events := by
  rw [Accounts, mem_leftOut]

variable {branches : List (String × Branch)} {referenced : List String} {target : Target}

theorem isQuiet_register (r : Resolution) (name expression : String) (fields : List String) :
    (r.register branches name expression fields).IsQuiet :=
  Logged.isQuiet_note_pure rfl _

theorem isQuiet_registerGuess (r : Resolution) (name : String) :
    (registerGuess branches r name).IsQuiet := isQuiet_register r name _ _

theorem isQuiet_registerSchool (r : Resolution) (school : String × KnownCondition) :
    (registerSchool branches referenced r school).IsQuiet := by
  simp only [registerSchool]
  split
  next => exact (Logged.isQuiet_note rfl).bind (isQuiet_register r _ _ _)
  next => exact Logged.isQuiet_pure r

theorem leftOut_registerDeclared (r : Resolution) {e : String × Condition} {found : Option String}
    (h : declaredExpression referenced target e = .ok found) :
    leftOut (registerDeclared branches referenced target r e).events =
      if found.isSome = true then [] else [e.1] := by
  obtain ⟨name, c⟩ := e
  unfold declaredExpression at h
  unfold registerDeclared
  by_cases gated : name ∈ referenced
  · cases relevant : c.isRelevant target with
    | false =>
      rw [if_neg (by simp [relevant])] at h
      cases Except.ok.inj h
      simp only [gated, relevant]
      rfl
    | true =>
      rw [if_pos ⟨gated, relevant⟩] at h
      simp only [gated, relevant, not_true_eq_false, if_false, Bool.not_true, Bool.false_eq_true]
      rw [Compiling.events_bind_ok h, leftOut_append, c.leftOut_compile]
      cases found with
      | none => rfl
      | some x =>
        rw [Compiling.events_lift, isQuiet_register r name x c.fields]
        rfl
  · rw [if_neg (fun taken => gated taken.1)] at h
    cases Except.ok.inj h
    simp only [gated]
    rfl

theorem leftOut_foldlM_registerDeclared {entries : List (String × Condition)}
    {found : List (String × Compiled)}
    (h : declaredEntries referenced target entries = .ok found) (r : Resolution) :
    leftOut (Compiling.events (entries.foldlM (registerDeclared branches referenced target) r)) =
      (entries.filter fun e => ¬IsTakenIn referenced target e).map Prod.fst := by
  -- what is noted of an entry does not depend on what is taken in before it
  induction entries generalizing r found with
  | nil => rfl
  | cons e rest ih =>
    obtain ⟨expression, more, he, hr, -⟩ := declaredEntries_cons_eq_ok h
    have next : ∃ s, (registerDeclared branches referenced target r e).outcome = .ok s := by
      rw [outcome_registerDeclared, he]
      exact ⟨_, rfl⟩
    obtain ⟨s, hs⟩ := next
    rw [List.foldlM_cons, Compiling.events_bind_ok hs, leftOut_append,
      leftOut_registerDeclared r he, ih hr, List.filter_cons]
    have taken := isSome_of_declaredExpression he
    by_cases found : expression.isSome = true
    · simp [found, taken.mp found]
    · simp [found, mt taken.mpr found]

variable {heuristics : List Heuristic} {w : Workflow} {steps : List PlacedStep} {r : Resolution}

/-- A resolution tells of each declared name that it leaves out, in order, and of no other name. -/
theorem leftOut_resolve (h : (resolve heuristics w steps target).outcome = .ok r) :
    leftOut (resolve heuristics w steps target).events =
      w.namesLeftOut (referencedNames heuristics steps) target := by
  unfold resolve
  simp only
  rw [Compiling.events_bind_ok (Compiling.outcome_lift _), Compiling.events_lift, leftOut_append,
    isQuiet_discoverBranches, Compiling.events_bind_ok (Compiling.outcome_lift _),
    Compiling.events_lift, leftOut_append]
  by_cases guessed : w.conditions.entries = []
  · rw [if_pos guessed, Compiling.events_lift, Logged.isQuiet_foldlM isQuiet_registerGuess,
      Workflow.namesLeftOut, guessed]
    rfl
  · have entries := (resolve_eq_ok h).1
    unfold resolvedEntries at entries
    simp only [if_neg guessed] at entries
    obtain ⟨declared, hd⟩ := exists_map_ok_iff.mp ⟨_, entries⟩
    have walk := (Compiling.outcome_foldlM
      (registerDeclared (discoverBranches heuristics steps).result
        (referencedNames heuristics steps) target) empty w.conditions.entries).trans
      (foldlM_registerDeclared _ _ _ _ _)
    rw [hd] at walk
    rw [if_neg guessed, Compiling.events_bind_ok walk, Compiling.events_lift, leftOut_append,
      leftOut_foldlM_registerDeclared hd, Logged.isQuiet_foldlM isQuiet_registerSchool]
    simp [leftOut, Event.leftOut?, Workflow.namesLeftOut]

end Resolution

/-- A name that gates a step is accounted for exactly if no condition is declared at all, it is
declared itself, or it is a kind of school. -/
theorem resolve_accounts_iff {heuristics : List Heuristic} {w : Workflow} {steps : List PlacedStep}
    {target : Target} {r : Resolution}
    (h : (resolve heuristics w steps target).outcome = .ok r) {n : String}
    (gates : n ∈ referencedNames heuristics steps) :
    r.Accounts (resolve heuristics w steps target).events n ↔
      w.conditions.entries = [] ∨ n ∈ w.conditions.keys ∨ n ∈ schoolNames := by
  rw [Resolution.accounts_iff, Resolution.leftOut_resolve h,
    Resolution.mem_keys_compiled_iff h gates,
    w.mem_keys_iff (referencedNames heuristics steps) target n]
  tauto

/-- A condition that is compiled, one that is out of reach for a term, and one that asks nothing. -/
def mixedWorkflow : Workflow where
  conditions := .ofList [("minor", ⟨"minor", none, none, none, none, .null, ["minor"], .empty⟩),
    ("has_prereqs", ⟨"has_prereqs", some "Course", some "hasPrerequisites", none, none, .null,
      ["has_prereqs"], .empty⟩),
    ("mystery", ⟨"mystery", none, none, none, none, .null, ["mystery"], .empty⟩)]
  steps := []
  extra := .empty

/-- Steps for what is declared, for a kind of school, and for a name that stands for nothing. -/
def mixedSteps : List PlacedStep :=
  placeSteps [gatedStep "Form" "minor", gatedStep "Check" "has_prereqs", gatedStep "Odd" "mystery",
    gatedStep "Affidavit" "home_school", gatedStep "Letter" "transfer"]

theorem resolve_accounts_mixed :
    let run := resolve [] mixedWorkflow mixedSteps .studentTerm
    ∃ r, run.outcome = .ok r ∧
      (∀ n ∈ ["minor", "has_prereqs", "mystery", "home_school"], r.Accounts run.events n) ∧
      ¬r.Accounts run.events "transfer" := by
  intro run
  obtain ⟨r, resolved, -⟩ := exists_ok_of_map (f := fun _ => ()) (x := run.outcome) (b := ())
    (by decide +kernel)
  have names : referencedNames [] mixedSteps =
      ["minor", "has_prereqs", "mystery", "home_school", "transfer"] := by decide +kernel
  have accounted := fun n hn => resolve_accounts_iff (n := n) resolved (names ▸ hn)
  refine ⟨r, resolved, fun n hn => ?_, ?_⟩
  · refine (accounted n (by simp at hn ⊢; tauto)).mpr (Or.inr ?_)
    revert n
    decide
  · rw [accounted "transfer" (by simp)]
    decide

/-- A name that gates a step, is not declared and is no kind of school is lost without a word. -/
theorem transfer_not_accounted :
    let run := resolve [] mixedWorkflow mixedSteps .studentTerm
    "transfer" ∈ referencedNames [] mixedSteps ∧
      ∃ r, run.outcome = .ok r ∧ ¬r.Accounts run.events "transfer" := by
  intro run
  obtain ⟨r, resolved, keys⟩ := exists_ok_of_map (f := fun r => r.compiled.keys)
    (x := run.outcome) (b := ["minor", "home_school"]) (by decide +kernel)
  have out : leftOut run.events = ["has_prereqs", "mystery"] := by decide +kernel
  refine ⟨by decide +kernel, r, resolved, ?_⟩
  rw [Resolution.accounts_iff, keys, out]
  decide

end Gatehouse
