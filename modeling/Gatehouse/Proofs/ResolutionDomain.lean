import Gatehouse.Proofs.StepChange

namespace Gatehouse

/-- The expression of a condition; one whose value cannot be written has none. -/
def Condition.expression? (c : Condition) : Option String := c.compile.outcome.toOption.join

/-- A declared condition gates a step, is within reach of the target and has an expression. -/
def IsTakenIn (referenced : List String) (target : Target) (e : String × Condition) : Prop :=
  e.1 ∈ referenced ∧ e.2.isRelevant target = true ∧ e.2.expression?.isSome = true

instance (referenced : List String) (target : Target) :
    DecidablePred (IsTakenIn referenced target) :=
  fun e => inferInstanceAs (Decidable (e.1 ∈ referenced ∧ _ ∧ _))

/-- The declared names that are taken in, in the order in which they are declared. -/
def Workflow.declaredNames (w : Workflow) (referenced : List String) (target : Target) :
    List String :=
  (w.conditions.entries.filter fun e => IsTakenIn referenced target e).map Prod.fst

/-- The kinds of school that gate a step and are not among the names. -/
def schoolsBeside (referenced names : List String) : List String :=
  schoolNames.filter fun n => n ∈ referenced ∧ n ∉ names

theorem Condition.expression?_eq_some_iff {c : Condition} {e : String} :
    c.expression? = some e ↔ c.compile.outcome = .ok (some e) := by
  unfold expression?
  cases c.compile.outcome with
  | error fault => simp [Except.toOption]
  | ok found => simp [Except.toOption]

theorem declaredExpression_eq_ok {referenced : List String} {target : Target}
    {e : String × Condition} {found : Option String}
    (h : declaredExpression referenced target e = .ok found) :
    found = if e.1 ∈ referenced ∧ e.2.isRelevant target = true then e.2.expression? else none := by
  unfold declaredExpression at h
  split at h
  next taken =>
    rw [if_pos taken, Condition.expression?, h]
    rfl
  next passed =>
    rw [if_neg passed]
    exact (Except.ok.inj h).symm

theorem isSome_of_declaredExpression {referenced : List String} {target : Target}
    {e : String × Condition} {found : Option String}
    (h : declaredExpression referenced target e = .ok found) :
    found.isSome = true ↔ IsTakenIn referenced target e := by
  rw [declaredExpression_eq_ok h]
  split
  next reached => exact ⟨fun some => ⟨reached.1, reached.2, some⟩, fun taken => taken.2.2⟩
  next missed =>
    simp only [Option.isSome_none, Bool.false_eq_true, false_iff]
    exact fun taken => missed ⟨taken.1, taken.2.1⟩

theorem declaredExpression_eq_error_iff {referenced : List String} {target : Target}
    {e : String × Condition} {fault : ValueFault} :
    declaredExpression referenced target e = .error fault ↔
      e.1 ∈ referenced ∧ e.2.isRelevant target = true ∧ e.2.compile.outcome = .error fault := by
  unfold declaredExpression
  split
  next taken => simp [taken]
  next passed =>
    simp only [reduceCtorEq, false_iff]
    exact fun h => passed ⟨h.1, h.2.1⟩

theorem exists_declaredExpression_iff {referenced : List String} {target : Target}
    {e : String × Condition} :
    (∃ found, declaredExpression referenced target e = .ok found) ↔
      (e.1 ∈ referenced → e.2.isRelevant target = true →
        ∃ found, e.2.compile.outcome = .ok found) := by
  cases h : declaredExpression referenced target e with
  | error fault =>
    obtain ⟨gated, relevant, failed⟩ := declaredExpression_eq_error_iff.mp h
    simp [gated, relevant, failed]
  | ok found =>
    refine ⟨fun _ gated relevant => ⟨found, ?_⟩, fun _ => ⟨found, rfl⟩⟩
    rwa [declaredExpression, if_pos ⟨gated, relevant⟩] at h

/-- The names of the entries, by what is declared and not by what is compiled on the way. -/
theorem names_declaredEntries_eq {referenced : List String} {target : Target}
    {entries : List (String × Condition)} {found : List (String × Compiled)}
    (h : declaredEntries referenced target entries = .ok found) :
    found.map Prod.fst = (entries.filter fun e => IsTakenIn referenced target e).map Prod.fst := by
  induction entries generalizing found with
  | nil =>
    cases Except.ok.inj h
    rfl
  | cons e rest ih =>
    obtain ⟨expression, more, he, hr, rfl⟩ := declaredEntries_cons_eq_ok h
    rw [List.map_append, ih hr]
    have taken := isSome_of_declaredExpression he
    cases expression with
    | none =>
      have passed : ¬IsTakenIn referenced target e := fun t => by simpa using taken.mpr t
      simp [passed]
    | some x => simp [taken.mp rfl]

/-- The first declared condition that cannot be compiled ends the walk. -/
theorem exists_first_of_declaredEntries_error {referenced : List String} {target : Target}
    {entries : List (String × Condition)} {fault : ValueFault}
    (h : declaredEntries referenced target entries = .error fault) :
    ∃ before e after, entries = before ++ e :: after ∧
      declaredExpression referenced target e = .error fault ∧
      ∃ found, declaredEntries referenced target before = .ok found := by
  induction entries with
  | nil => cases h
  | cons e rest ih =>
    rw [declaredEntries] at h
    cases he : declaredExpression referenced target e with
    | error other =>
      rw [he] at h
      cases Except.error.inj h
      exact ⟨[], e, rest, rfl, he, [], rfl⟩
    | ok expression =>
      cases hr : declaredEntries referenced target rest with
      | error other =>
        rw [he, hr] at h
        cases Except.error.inj h
        obtain ⟨before, d, after, rfl, failed, found, hb⟩ := ih hr
        exact ⟨e :: before, d, after, rfl, failed, _, by rw [declaredEntries, he, hb]; rfl⟩
      | ok more =>
        rw [he, hr] at h
        cases h

theorem compiledAs_fields_ne (name expression : String) (fields : List String) :
    (compiledAs name expression fields).fields ≠ [] := by
  by_cases none : fields = []
  · simp [compiledAs, none]
  · simp [compiledAs, none]

namespace Workflow

variable {w : Workflow} {target : Target} {n : String} {k : Compiled}

/-- Whatever a name stands for sets a field. -/
theorem fields_ne_of_meaning (h : w.meaning target n = .ok (some k)) : k.fields ≠ [] := by
  rcases meaning_cases h with ⟨c, e, -, -, rfl⟩ | ⟨known, rfl⟩ | rfl
  · exact compiledAs_fields_ne n _ _
  · exact compiledAs_fields_ne n _ _
  · exact compiledAs_fields_ne n _ _

theorem mem_declaredNames_iff {referenced : List String} :
    n ∈ w.declaredNames referenced target ↔
      n ∈ referenced ∧ ∃ k, w.declaredMeaning target n = .ok (some k) := by
  simp only [declaredNames, List.mem_map, List.mem_filter, decide_eq_true_eq, Prod.exists,
    exists_and_right, exists_eq_right, ← Keyed.get?_eq_some_iff]
  constructor
  · rintro ⟨c, declared, gated, relevant, compiles⟩
    obtain ⟨e, he⟩ := Option.isSome_iff_exists.mp compiles
    refine ⟨gated, compiledAs n e c.fields, ?_⟩
    simp only [declaredMeaning, declared, Condition.meaning, if_pos relevant,
      Condition.expression?_eq_some_iff.mp he, Except.map, Option.map_some]
  · rintro ⟨gated, k, hk⟩
    cases declared : w.conditions.get? n with
    | none =>
      rw [declaredMeaning, declared] at hk
      cases hk
    | some c =>
      simp only [declaredMeaning, declared, Condition.meaning] at hk
      split at hk
      next relevant =>
        cases compiled : c.compile.outcome with
        | error fault =>
          rw [compiled] at hk
          cases hk
        | ok found =>
          rw [compiled] at hk
          obtain ⟨e, rfl, -⟩ := Option.map_eq_some_iff.mp (Except.ok.inj hk)
          refine ⟨c, rfl, gated, relevant, Option.isSome_iff_exists.mpr ⟨e, ?_⟩⟩
          exact Condition.expression?_eq_some_iff.mpr compiled
      next => cases Except.ok.inj hk

/-- A kind of school that is not declared to anything stands for itself. -/
theorem meaning_of_school (declares : w.conditions.entries ≠ []) {s : String × KnownCondition}
    (school : s ∈ schoolPartition) (undeclared : ¬∃ k, w.declaredMeaning target s.1 = .ok (some k))
    (definite : ∃ m, w.meaning target s.1 = .ok m) :
    w.meaning target s.1 = .ok (some ⟨s.2.expression, [s.1]⟩) := by
  have known : schoolMeaning? s.1 = some ⟨s.2.expression, [s.1]⟩ := by
    have entry : schools.get? s.1 = some s.2 := Keyed.get?_eq_some_iff.mpr school
    rw [schoolMeaning?, entry]
    rfl
  rw [meaning, if_neg declares] at definite ⊢
  obtain ⟨found, hf⟩ := exists_map_ok_iff.mp definite
  cases found with
  | none =>
    rw [hf, Except.map, Option.none_or, known]
  | some k => exact absurd ⟨k, hf⟩ undeclared

end Workflow

theorem names_schoolEntries (referenced names : List String) :
    (schoolEntries referenced names schoolPartition).map Prod.fst =
      schoolsBeside referenced names := by
  rw [schoolEntries, schoolsBeside, schoolNames, List.filter_map, List.map_map]
  rfl

namespace Resolution

variable {heuristics : List Heuristic} {w : Workflow} {steps : List PlacedStep} {target : Target}
  {r : Resolution} {fault : ValueFault}

/-- The names that are compiled, in order. -/
theorem keys_compiled (h : (resolve heuristics w steps target).outcome = .ok r) :
    r.compiled.keys =
      let referenced := referencedNames heuristics steps
      if w.conditions.entries = [] then referenced
      else w.declaredNames referenced target
        ++ schoolsBeside referenced (w.declaredNames referenced target) := by
  have entries := (resolve_eq_ok h).1
  unfold resolvedEntries at entries
  simp only
  split
  next none =>
    rw [if_pos none] at entries
    rw [Keyed.keys, ← Except.ok.inj entries]
    simp [guessedEntries, Function.comp_def]
  next some =>
    rw [if_neg some] at entries
    cases hd : declaredEntries (referencedNames heuristics steps) target w.conditions.entries with
    | error other =>
      rw [hd] at entries
      cases entries
    | ok declared =>
      rw [hd] at entries
      have names : declared.map Prod.fst =
          w.declaredNames (referencedNames heuristics steps) target := names_declaredEntries_eq hd
      rw [Keyed.keys, ← Except.ok.inj entries, List.map_append, names_schoolEntries, names]

/-- Each declared condition that gates a step and is within reach is compiled to something. -/
theorem exists_compile_of_ok (h : (resolve heuristics w steps target).outcome = .ok r) :
    ∀ e ∈ w.conditions.entries, e.1 ∈ referencedNames heuristics steps →
      e.2.isRelevant target = true → ∃ found, e.2.compile.outcome = .ok found := by
  rintro ⟨n, c⟩ he gated relevant
  exact Workflow.exists_meaning_iff.mp (exists_resolve_iff.mp ⟨r, h⟩ n gated) c
    (Keyed.get?_eq_some_iff.mpr he) relevant

/-- Only a declared condition that cannot be compiled ends a resolution, and the first one does. -/
theorem exists_first_of_error (h : (resolve heuristics w steps target).outcome = .error fault) :
    ∃ before e after, w.conditions.entries = before ++ e :: after ∧
      e.1 ∈ referencedNames heuristics steps ∧ e.2.isRelevant target = true ∧
      e.2.compile.outcome = .error fault ∧
      ∀ d ∈ before, d.1 ∈ referencedNames heuristics steps → d.2.isRelevant target = true →
        ∃ found, d.2.compile.outcome = .ok found := by
  have entries := resolve_eq_error h
  unfold resolvedEntries at entries
  simp only at entries
  split at entries
  next => cases entries
  next =>
    cases hd : declaredEntries (referencedNames heuristics steps) target w.conditions.entries with
    | ok found =>
      rw [hd] at entries
      cases entries
    | error other =>
      rw [hd] at entries
      cases Except.error.inj entries
      obtain ⟨before, e, after, split, failed, clear⟩ := exists_first_of_declaredEntries_error hd
      obtain ⟨gated, relevant, failed⟩ := declaredExpression_eq_error_iff.mp failed
      refine ⟨before, e, after, split, gated, relevant, failed, fun d hd => ?_⟩
      exact exists_declaredExpression_iff.mp (exists_declaredEntries_iff.mp clear d hd)

/-- What a resolution for a target holds, said of the declared conditions, the names that gate a
step and the branches. -/
structure HasDomain (heuristics : List Heuristic) (w : Workflow) (steps : List PlacedStep)
    (target : Target) (r : Resolution) : Prop where
  compiles : ∀ e ∈ w.conditions.entries, e.1 ∈ referencedNames heuristics steps →
    e.2.isRelevant target = true → ∃ found, e.2.compile.outcome = .ok found
  keys : r.compiled.keys =
    let referenced := referencedNames heuristics steps
    if w.conditions.entries = [] then referenced
    else w.declaredNames referenced target
      ++ schoolsBeside referenced (w.declaredNames referenced target)
  declared : ∀ n ∈ w.declaredNames (referencedNames heuristics steps) target,
    ∃ c e, w.conditions.get? n = some c ∧ c.compile.outcome = .ok (some e) ∧
      r.compiled.get? n = some ⟨e, if c.fields = [] then [n] else c.fields⟩
  schools : w.conditions.entries ≠ [] → ∀ s ∈ schoolPartition,
    s.1 ∈ referencedNames heuristics steps →
    s.1 ∉ w.declaredNames (referencedNames heuristics steps) target →
    r.compiled.get? s.1 = some ⟨s.2.expression, [s.1]⟩
  states : r.states.keys = r.compiled.keys
  tokens : ∀ n ∈ r.compiled.keys, ∃ b,
    (discoverBranches heuristics steps).result.lookup n = some b ∧
      r.states.get? n = some b.states
  fields : ∀ n c, r.compiled.get? n = some c → c.fields ≠ []
  members : ∀ n ∈ schoolNames, n ∈ referencedNames heuristics steps → n ∈ r.compiled.keys

/-- Of the names that gate a step, all are compiled if none is declared; else those that are taken
in and the kinds of school are. -/
theorem mem_keys_compiled_iff (h : (resolve heuristics w steps target).outcome = .ok r)
    {n : String} (gates : n ∈ referencedNames heuristics steps) :
    n ∈ r.compiled.keys ↔ w.conditions.entries = [] ∨
      n ∈ w.declaredNames (referencedNames heuristics steps) target ∨ n ∈ schoolNames := by
  rw [keys_compiled h]
  simp only
  split
  next guessed => simp [guessed, gates]
  next declares =>
    by_cases taken : n ∈ w.declaredNames (referencedNames heuristics steps) target
    · simp [taken]
    · simp [declares, taken, schoolsBeside, gates]

theorem hasDomain_of_ok (h : (resolve heuristics w steps target).outcome = .ok r) :
    r.HasDomain heuristics w steps target where
  compiles := exists_compile_of_ok h
  keys := keys_compiled h
  declared := by
    intro n hn
    obtain ⟨⟨m, c⟩, hc, rfl⟩ := List.mem_map.mp hn
    obtain ⟨hc, gated, relevant, compiles⟩ := by simpa using hc
    obtain ⟨e, he⟩ := Option.isSome_iff_exists.mp compiles
    have compiled := Condition.expression?_eq_some_iff.mp he
    have declared := Keyed.get?_eq_some_iff.mpr hc
    exact ⟨c, e, declared, compiled, (get?_compiled_iff h).mpr
      ⟨gated, Workflow.meaning_of_declared declared relevant compiled⟩⟩
  schools := by
    intro declares s school gated undeclared
    have own : ¬∃ k, w.declaredMeaning target s.1 = .ok (some k) :=
      fun found => undeclared (Workflow.mem_declaredNames_iff.mpr ⟨gated, found⟩)
    have definite := exists_resolve_iff.mp ⟨r, h⟩ s.1 gated
    exact (get?_compiled_iff h).mpr
      ⟨gated, Workflow.meaning_of_school declares school own definite⟩
  states := by
    rw [Keyed.keys, (resolve_eq_ok h).2.states, List.map_map]
    exact List.map_id _
  tokens := by
    intro n hn
    refine ⟨branchOf heuristics steps n, ?_, by rw [get?_states h, if_pos hn]⟩
    rw [lookup_discoverBranches, if_pos ((resolve_eq_ok h).2.gates n hn)]
  fields := fun n c hc => Workflow.fields_ne_of_meaning ((get?_compiled_iff h).mp hc).2
  members := fun _ school gates => (mem_keys_compiled_iff h gates).mpr (Or.inr (Or.inr school))

end Resolution

/-- The exact domain of a resolution. It fails to be there only if a declared condition that gates a
step and is within reach cannot be compiled, and the first such condition tells the fault. -/
theorem resolve_domain (heuristics : List Heuristic) (w : Workflow) (steps : List PlacedStep)
    (target : Target) :
    (∀ r, (resolve heuristics w steps target).outcome = .ok r →
      r.HasDomain heuristics w steps target) ∧
    ∀ fault, (resolve heuristics w steps target).outcome = .error fault →
      ∃ before e after, w.conditions.entries = before ++ e :: after ∧
        e.1 ∈ referencedNames heuristics steps ∧ e.2.isRelevant target = true ∧
        e.2.compile.outcome = .error fault ∧
        ∀ d ∈ before, d.1 ∈ referencedNames heuristics steps → d.2.isRelevant target = true →
          ∃ found, d.2.compile.outcome = .ok found :=
  ⟨fun _ => Resolution.hasDomain_of_ok, fun _ => Resolution.exists_first_of_error⟩

/-- A number that is too long ends the resolution although a home school gates a step; without the
step for the number both other names are compiled, the undeclared one last. -/
theorem resolve_domain_longNumber :
    let run := fun steps => (resolve [] longNumberWorkflow (placeSteps steps) .studentTerm).outcome
    let kept := [gatedStep "Affidavit" "home_school", gatedStep "Form" "minor"]
    "home_school" ∈ referencedNames [] (placeSteps (gatedStep "Exam" "gpa" :: kept)) ∧
      (¬∃ r, run (gatedStep "Exam" "gpa" :: kept) = .ok r) ∧
      ∃ r, run kept = .ok r ∧ r.compiled.keys = ["minor", "home_school"] ∧
        r.states.keys = ["minor", "home_school"] ∧
        r.compiled.get? "home_school" =
          some ⟨"student.high_school.is_home_school?", ["home_school"]⟩ := by
  intro run kept
  have domain := fun steps =>
    (resolve_domain [] longNumberWorkflow (placeSteps steps) .studentTerm).1
  refine ⟨by decide +kernel, ?_, ?_⟩
  · rintro ⟨r, resolved⟩
    have compiles := (domain (gatedStep "Exam" "gpa" :: kept) r resolved).compiles
    have fails : ∃ e ∈ longNumberWorkflow.conditions.entries,
        e.1 ∈ referencedNames [] (placeSteps (gatedStep "Exam" "gpa" :: kept)) ∧
        e.2.isRelevant .studentTerm = true ∧ e.2.compile.outcome.toOption = none := by
      decide +kernel
    obtain ⟨e, he, gated, relevant, failed⟩ := fails
    obtain ⟨found, compiled⟩ := compiles e he gated relevant
    rw [compiled] at failed
    cases failed
  · obtain ⟨r, resolved, -⟩ := exists_ok_of_map (f := fun _ => ()) (x := run kept) (b := ())
      (by decide +kernel)
    have exactly := domain kept r resolved
    have keys : r.compiled.keys = ["minor", "home_school"] := by
      rw [exactly.keys]
      decide +kernel
    refine ⟨r, resolved, keys, by rw [exactly.states, keys], ?_⟩
    exact exactly.schools (by decide +kernel) ("home_school", .homeSchool) (by decide)
      (by decide +kernel) (by decide +kernel)

end Gatehouse
