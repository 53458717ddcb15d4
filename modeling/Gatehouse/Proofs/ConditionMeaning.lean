import Gatehouse.Proofs.ResolutionForm

namespace Gatehouse

/-- What a declared condition is compiled to for a target; nothing if the target cannot reach it or
it has no expression. -/
def Condition.meaning (target : Target) (name : String) (c : Condition) :
    Except ValueFault (Option Compiled) :=
  if c.isRelevant target = true then
    c.compile.outcome.map fun found => found.map fun e => compiledAs name e c.fields
  else .ok none

def schools : Keyed KnownCondition := ⟨schoolPartition, by decide⟩

def schoolMeaning? (name : String) : Option Compiled :=
  (schools.get? name).map fun known => compiledAs name known.expression [name]

def Workflow.declaredMeaning (w : Workflow) (target : Target) (name : String) :
    Except ValueFault (Option Compiled) :=
  match w.conditions.get? name with
  | some c => c.meaning target name
  | none => .ok none

/-- What a name stands for if it gates a step: what it is declared as, else the kind of school of
that name; where nothing is declared, a guess. -/
def Workflow.meaning (w : Workflow) (target : Target) (name : String) :
    Except ValueFault (Option Compiled) :=
  if w.conditions.entries = [] then .ok (some (compiledAs name (guessExpression name) [name]))
  else (w.declaredMeaning target name).map fun declared => declared.or (schoolMeaning? name)

theorem exists_map_ok_iff {ε α β : Type} {x : Except ε α} {f : α → β} :
    (∃ b, x.map f = .ok b) ↔ ∃ a, x = .ok a := by
  cases x with
  | error fault => simp [Except.map]
  | ok a => simp [Except.map]

theorem declaredExpression_of_gated {referenced : List String} {target : Target} {name : String}
    (gated : name ∈ referenced) (c : Condition) :
    c.meaning target name = (declaredExpression referenced target (name, c)).map fun found =>
      found.map fun e => compiledAs name e c.fields := by
  cases h : c.isRelevant target with
  | true => simp [Condition.meaning, declaredExpression, gated, h]
  | false => simp [Condition.meaning, declaredExpression, h, Except.map]

theorem Workflow.meaning_of_declared {w : Workflow} {target : Target} {name : String}
    {c : Condition} (declared : w.conditions.get? name = some c)
    (relevant : c.isRelevant target = true) {e : String}
    (compiles : c.compile.outcome = .ok (some e)) :
    w.meaning target name = .ok (some (compiledAs name e c.fields)) := by
  have some : w.conditions.entries ≠ [] :=
    List.ne_nil_of_mem (Keyed.get?_eq_some_iff.mp declared)
  simp only [Workflow.meaning, if_neg some, Workflow.declaredMeaning, declared, Condition.meaning,
    relevant, if_true, compiles, Except.map, Option.map_some, Option.some_or]

/-- A name stands for the condition that it is declared as, for a kind of school, or for a guess. -/
theorem Workflow.meaning_cases {w : Workflow} {target : Target} {name : String} {k : Compiled}
    (h : w.meaning target name = .ok (some k)) :
    (∃ c e, w.conditions.get? name = some c ∧ c.compile.outcome = .ok (some e) ∧
        k = compiledAs name e c.fields) ∨
      (∃ known : KnownCondition, k = compiledAs name known.expression [name]) ∨
      k = compiledAs name (guessExpression name) [name] := by
  have school (found : schoolMeaning? name = some k) :
      ∃ known : KnownCondition, k = compiledAs name known.expression [name] := by
    obtain ⟨known, -, rfl⟩ := Option.map_eq_some_iff.mp found
    exact ⟨known, rfl⟩
  unfold meaning at h
  split at h
  next => exact Or.inr (Or.inr (Option.some.inj (Except.ok.inj h)).symm)
  next =>
    rw [declaredMeaning] at h
    cases hc : w.conditions.get? name with
    | none =>
      rw [hc] at h
      exact Or.inr (Or.inl (school (Except.ok.inj h)))
    | some c =>
      simp only [hc, Condition.meaning] at h
      split at h
      next =>
        cases compiles : c.compile.outcome with
        | error fault =>
          rw [compiles] at h
          cases h
        | ok found =>
          rw [compiles] at h
          cases found with
          | none => exact Or.inr (Or.inl (school (Except.ok.inj h)))
          | some e => exact Or.inl ⟨c, e, rfl, compiles, (Option.some.inj (Except.ok.inj h)).symm⟩
      next => exact Or.inr (Or.inl (school (Except.ok.inj h)))

/-- Only a declared condition that the target can reach may fail to mean anything definite. -/
theorem Workflow.exists_meaning_iff {w : Workflow} {target : Target} {name : String} :
    (∃ m, w.meaning target name = .ok m) ↔ ∀ c, w.conditions.get? name = some c →
      c.isRelevant target = true → ∃ e, c.compile.outcome = .ok e := by
  by_cases hw : w.conditions.entries = []
  · have undeclared : w.conditions.get? name = none := by
      rw [Keyed.get?, hw]
      rfl
    simp [Workflow.meaning, hw, undeclared]
  · rw [Workflow.meaning, if_neg hw, exists_map_ok_iff, Workflow.declaredMeaning]
    cases w.conditions.get? name with
    | none => simp
    | some c =>
      simp only [Condition.meaning, Option.some.injEq, forall_eq']
      split
      next relevant => simp [relevant, exists_map_ok_iff]
      next irrelevant => simp [irrelevant]

theorem declaredExpression_congr {referenced others : List String}
    (same : ∀ n, n ∈ referenced ↔ n ∈ others) (target : Target) (e : String × Condition) :
    declaredExpression referenced target e = declaredExpression others target e := by
  simp only [declaredExpression, same]

/-- Only which names gate a step counts, not in which order they are met. -/
theorem declaredEntries_congr {referenced others : List String}
    (same : ∀ n, n ∈ referenced ↔ n ∈ others) (target : Target)
    (entries : List (String × Condition)) :
    declaredEntries referenced target entries = declaredEntries others target entries := by
  induction entries with
  | nil => rfl
  | cons e rest ih => rw [declaredEntries, declaredEntries, ih, declaredExpression_congr same]

theorem exists_declaredEntries_iff {referenced : List String} {target : Target}
    {entries : List (String × Condition)} :
    (∃ found, declaredEntries referenced target entries = .ok found) ↔
      ∀ e ∈ entries, ∃ expression, declaredExpression referenced target e = .ok expression := by
  induction entries with
  | nil => simp [declaredEntries]
  | cons e rest ih =>
    constructor
    · rintro ⟨found, h⟩
      obtain ⟨expression, more, he, hr, -⟩ := declaredEntries_cons_eq_ok h
      intro d hd
      rcases List.mem_cons.mp hd with rfl | hd
      · exact ⟨expression, he⟩
      · exact ih.mp ⟨more, hr⟩ d hd
    · intro h
      obtain ⟨expression, he⟩ := h e List.mem_cons_self
      obtain ⟨more, hr⟩ := ih.mpr fun d hd => h d (List.mem_cons_of_mem _ hd)
      exact ⟨_, by rw [declaredEntries, he, hr]; rfl⟩

theorem exists_declaredMeaning_iff {w : Workflow} {referenced : List String} {target : Target} :
    (∃ found, declaredEntries referenced target w.conditions.entries = .ok found) ↔
      ∀ n ∈ referenced, ∃ m, w.declaredMeaning target n = .ok m := by
  rw [exists_declaredEntries_iff]
  constructor
  · intro h n hn
    cases hc : w.conditions.get? n with
    | none => exact ⟨none, by rw [Workflow.declaredMeaning, hc]⟩
    | some c =>
      obtain ⟨expression, he⟩ := h (n, c) (Keyed.get?_eq_some_iff.mp hc)
      refine ⟨expression.map fun e => compiledAs n e c.fields, ?_⟩
      simp only [Workflow.declaredMeaning, hc, declaredExpression_of_gated hn, he, Except.map]
  · rintro h ⟨n, c⟩ hc
    by_cases hn : n ∈ referenced
    · obtain ⟨m, hm⟩ := h n hn
      simp only [Workflow.declaredMeaning, Keyed.get?_eq_some_iff.mpr hc,
        declaredExpression_of_gated hn] at hm
      cases he : declaredExpression referenced target (n, c) with
      | ok expression => exact ⟨expression, rfl⟩
      | error fault => simp [he, Except.map] at hm
    · exact ⟨none, by simp [declaredExpression, hn]⟩

theorem mem_declaredEntries_iff_meaning {w : Workflow} {referenced : List String} {target : Target}
    {found : List (String × Compiled)}
    (h : declaredEntries referenced target w.conditions.entries = .ok found) {n : String}
    {k : Compiled} :
    (n, k) ∈ found ↔ n ∈ referenced ∧ w.declaredMeaning target n = .ok (some k) := by
  rw [mem_declaredEntries h]
  constructor
  · rintro ⟨c, e, hc, he, rfl⟩
    have gated : n ∈ referenced := gated_of_declaredExpression he
    refine ⟨gated, ?_⟩
    simp only [Workflow.declaredMeaning, Keyed.get?_eq_some_iff.mpr hc,
      declaredExpression_of_gated gated, he, Except.map, Option.map_some]
  · rintro ⟨gated, hm⟩
    cases hc : w.conditions.get? n with
    | none => simp [Workflow.declaredMeaning, hc] at hm
    | some c =>
      simp only [Workflow.declaredMeaning, hc, declaredExpression_of_gated gated] at hm
      cases he : declaredExpression referenced target (n, c) with
      | error fault => simp [he, Except.map] at hm
      | ok expression =>
        simp only [he, Except.map, Except.ok.injEq, Option.map_eq_some_iff] at hm
        obtain ⟨e, rfl, rfl⟩ := hm
        exact ⟨c, e, Keyed.get?_eq_some_iff.mp hc, he, rfl⟩

theorem mem_schoolEntries {referenced compiled : List String} {n : String} {k : Compiled} :
    (n, k) ∈ schoolEntries referenced compiled schoolPartition ↔
      n ∈ referenced ∧ n ∉ compiled ∧ schoolMeaning? n = some k := by
  have school : ∀ known, schools.get? n = some known ↔ (n, known) ∈ schoolPartition :=
    fun known => Keyed.get?_eq_some_iff
  simp only [schoolEntries, schoolMeaning?, List.mem_map, List.mem_filter, decide_eq_true_eq,
    Option.map_eq_some_iff, school]
  constructor
  · rintro ⟨⟨m, known⟩, ⟨hm, gated, new⟩, eq⟩
    cases eq
    exact ⟨gated, new, known, hm, rfl⟩
  · rintro ⟨gated, new, known, hm, rfl⟩
    exact ⟨(n, known), ⟨hm, gated, new⟩, rfl⟩

theorem mem_resolvedEntries {heuristics : List Heuristic} {w : Workflow} {steps : List PlacedStep}
    {target : Target} {entries : List (String × Compiled)}
    (h : resolvedEntries heuristics w steps target = .ok entries) {n : String} {k : Compiled} :
    (n, k) ∈ entries ↔ n ∈ referencedNames heuristics steps ∧ w.meaning target n = .ok (some k) := by
  unfold resolvedEntries at h
  split at h
  next hw =>
    cases Except.ok.inj h
    simp only [guessedEntries, List.mem_map, Prod.mk.injEq, Workflow.meaning, if_pos hw,
      Except.ok.injEq, Option.some.injEq]
    constructor
    · rintro ⟨m, gated, rfl, rfl⟩
      exact ⟨gated, rfl⟩
    · rintro ⟨gated, rfl⟩
      exact ⟨n, gated, rfl, rfl⟩
  next hw =>
    cases hd : declaredEntries (referencedNames heuristics steps) target w.conditions.entries with
    | error fault => simp [hd, Except.map] at h
    | ok found =>
      simp only [hd, Except.map, Except.ok.injEq] at h
      subst h
      rw [List.mem_append, mem_schoolEntries, mem_declaredEntries_iff_meaning hd, Workflow.meaning,
        if_neg hw]
      by_cases gated : n ∈ referencedNames heuristics steps
      · obtain ⟨m, hm⟩ := exists_declaredMeaning_iff.mp ⟨found, hd⟩ n gated
        have taken : n ∈ found.map Prod.fst ↔ ∃ d, m = some d := by
          constructor
          · intro hn
            obtain ⟨⟨n, d⟩, hd', rfl⟩ := List.mem_map.mp hn
            have declared := ((mem_declaredEntries_iff_meaning hd).mp hd').2
            exact ⟨d, Except.ok.inj (hm.symm.trans declared)⟩
          · rintro ⟨d, rfl⟩
            have entry := (mem_declaredEntries_iff_meaning hd).mpr ⟨gated, hm⟩
            exact List.mem_map_of_mem entry
        cases m with
        | none => simp [gated, hm, taken, Except.map]
        | some d => simp [gated, hm, taken, Except.map]
      · simp [gated]

namespace Resolution

variable {heuristics : List Heuristic} {w : Workflow} {steps : List PlacedStep} {target : Target}
  {r : Resolution}

/-- A name is compiled if it gates a step and stands for something, whatever the steps are else. -/
theorem get?_compiled_iff (h : (resolve heuristics w steps target).outcome = .ok r) {n : String}
    {k : Compiled} : r.compiled.get? n = some k ↔
      n ∈ referencedNames heuristics steps ∧ w.meaning target n = .ok (some k) := by
  rw [Keyed.get?_eq_some_iff]
  exact mem_resolvedEntries (resolve_eq_ok h).1

/-- A compiled name that is declared, and whose condition is relevant and has an expression, stands
for this expression. -/
theorem get?_compiled_of_declared (h : (resolve heuristics w steps target).outcome = .ok r)
    {n : String} (entry : n ∈ r.compiled.keys) {c : Condition}
    (declared : w.conditions.get? n = some c) (relevant : c.isRelevant target = true)
    {e : String} (compiles : c.compile.outcome = .ok (some e)) :
    r.compiled.get? n = some (compiledAs n e c.fields) :=
  (get?_compiled_iff h).mpr ⟨(resolve_eq_ok h).2.gates n entry,
    Workflow.meaning_of_declared declared relevant compiles⟩

/-- A class is resolved if each name that gates a step has a meaning. -/
theorem exists_resolve_iff : (∃ r, (resolve heuristics w steps target).outcome = .ok r) ↔
    ∀ n ∈ referencedNames heuristics steps, ∃ m, w.meaning target n = .ok m := by
  rw [outcome_resolve, exists_map_ok_iff]
  by_cases hw : w.conditions.entries = []
  · simp [resolvedEntries, Workflow.meaning, hw]
  · simp only [resolvedEntries, Workflow.meaning, if_neg hw, exists_map_ok_iff]
    exact exists_declaredMeaning_iff

/-- The completion fields of a compiled name are those of its branch. -/
theorem get?_states (h : (resolve heuristics w steps target).outcome = .ok r) (n : String) :
    r.states.get? n =
      if n ∈ r.compiled.keys then some (branchOf heuristics steps n).states else none := by
  rw [Keyed.get?, (resolve_eq_ok h).2.states, lookup_map_pair]

end Resolution

end Gatehouse
