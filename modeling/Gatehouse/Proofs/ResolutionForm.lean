import Gatehouse.Proofs.BranchForm
import Gatehouse.Resolution

namespace Gatehouse

/-- What a name is compiled to; without fields it sets the one of its own name. -/
def compiledAs (name expression : String) (fields : List String) : Compiled :=
  ⟨expression, if fields = [] then [name] else fields⟩

/-- The expression of a declared condition, if a step is gated by it and the target can reach
it. -/
def declaredExpression (referenced : List String) (target : Target) (e : String × Condition) :
    Except ValueFault (Option String) :=
  if e.1 ∈ referenced ∧ e.2.isRelevant target = true then e.2.compile.outcome else .ok none

def declaredEntries (referenced : List String) (target : Target) :
    List (String × Condition) → Except ValueFault (List (String × Compiled))
  | [] => .ok []
  | e :: rest => do
    let expression ← declaredExpression referenced target e
    let more ← declaredEntries referenced target rest
    pure ((expression.map fun x => (e.1, compiledAs e.1 x e.2.fields)).toList ++ more)

/-- The kinds of school that gate a step, as far as they are not compiled yet. -/
def schoolEntries (referenced compiled : List String) (schools : List (String × KnownCondition)) :
    List (String × Compiled) :=
  (schools.filter fun s => s.1 ∈ referenced ∧ s.1 ∉ compiled).map fun s =>
    (s.1, compiledAs s.1 s.2.expression [s.1])

def guessedEntries (referenced : List String) : List (String × Compiled) :=
  referenced.map fun n => (n, compiledAs n (guessExpression n) [n])

/-- The compiled conditions of a workflow for a target, in order. -/
def resolvedEntries (heuristics : List Heuristic) (w : Workflow) (steps : List PlacedStep)
    (target : Target) : Except ValueFault (List (String × Compiled)) :=
  let referenced := referencedNames heuristics steps
  if w.conditions.entries = [] then .ok (guessedEntries referenced)
  else (declaredEntries referenced target w.conditions.entries).map fun declared =>
    declared ++ schoolEntries referenced (declared.map Prod.fst) schoolPartition

theorem declaredEntries_cons_eq_ok {referenced : List String} {target : Target}
    {e : String × Condition} {rest : List (String × Condition)} {found : List (String × Compiled)}
    (h : declaredEntries referenced target (e :: rest) = .ok found) :
    ∃ expression more, declaredExpression referenced target e = .ok expression ∧
      declaredEntries referenced target rest = .ok more ∧
      found = (expression.map fun x => (e.1, compiledAs e.1 x e.2.fields)).toList ++ more := by
  simp only [declaredEntries] at h
  cases he : declaredExpression referenced target e with
  | error fault => simp [he, bind, Except.bind] at h
  | ok expression =>
    cases hr : declaredEntries referenced target rest with
    | error fault => simp [he, hr, bind, Except.bind] at h
    | ok more =>
      simp only [he, hr, bind, Except.bind, pure, Except.pure, Except.ok.injEq] at h
      exact ⟨expression, more, rfl, rfl, h.symm⟩

theorem mem_declaredEntries {referenced : List String} {target : Target}
    {entries : List (String × Condition)} {found : List (String × Compiled)}
    (h : declaredEntries referenced target entries = .ok found) {name : String} {k : Compiled} :
    (name, k) ∈ found ↔ ∃ c x, (name, c) ∈ entries ∧
      declaredExpression referenced target (name, c) = .ok (some x) ∧
      k = compiledAs name x c.fields := by
  induction entries generalizing found with
  | nil =>
    cases Except.ok.inj h
    simp
  | cons e rest ih =>
    obtain ⟨expression, more, he, hr, rfl⟩ := declaredEntries_cons_eq_ok h
    rw [List.mem_append, ih hr]
    constructor
    · rintro (head | ⟨c, x, hc, hx, rfl⟩)
      · obtain ⟨x, rfl, hx⟩ := Option.map_eq_some_iff.mp (Option.mem_toList.mp head)
        cases hx
        exact ⟨e.2, x, List.mem_cons_self, he, rfl⟩
      · exact ⟨c, x, List.mem_cons_of_mem _ hc, hx, rfl⟩
    · rintro ⟨c, x, hc, hx, rfl⟩
      rcases List.mem_cons.mp hc with rfl | hc
      · rw [he] at hx
        cases Except.ok.inj hx
        exact Or.inl (by simp)
      · exact Or.inr ⟨c, x, hc, hx, rfl⟩

theorem names_declaredEntries {referenced : List String} {target : Target}
    {entries : List (String × Condition)} {found : List (String × Compiled)}
    (h : declaredEntries referenced target entries = .ok found) :
    (found.map Prod.fst).Sublist (entries.map Prod.fst) := by
  induction entries generalizing found with
  | nil =>
    cases Except.ok.inj h
    exact List.Sublist.slnil
  | cons e rest ih =>
    obtain ⟨expression, more, -, hr, rfl⟩ := declaredEntries_cons_eq_ok h
    cases expression with
    | none => exact (ih hr).cons e.1
    | some x => exact (ih hr).cons_cons e.1

theorem gated_of_declaredExpression {referenced : List String} {target : Target}
    {e : String × Condition} {x : String}
    (h : declaredExpression referenced target e = .ok (some x)) : e.1 ∈ referenced := by
  unfold declaredExpression at h
  split at h
  next hg => exact hg.1
  next => cases h

theorem gated_declaredEntries {referenced : List String} {target : Target}
    {entries : List (String × Condition)} {found : List (String × Compiled)}
    (h : declaredEntries referenced target entries = .ok found) :
    ∀ n ∈ found.map Prod.fst, n ∈ referenced := by
  intro n hn
  obtain ⟨⟨m, k⟩, hk, rfl⟩ := List.mem_map.mp hn
  obtain ⟨c, x, -, hx, -⟩ := (mem_declaredEntries h).mp hk
  exact gated_of_declaredExpression hx

/-- The compiled conditions have distinct names, each of which gates a step. -/
theorem names_resolvedEntries {heuristics : List Heuristic} {w : Workflow}
    {steps : List PlacedStep} {target : Target} {entries : List (String × Compiled)}
    (h : resolvedEntries heuristics w steps target = .ok entries) :
    (entries.map Prod.fst).Nodup ∧
      ∀ n ∈ entries.map Prod.fst, n ∈ referencedNames heuristics steps := by
  unfold resolvedEntries at h
  split at h
  next =>
    cases Except.ok.inj h
    simp [guessedEntries, Function.comp_def, nodup_referencedNames]
  next =>
    cases hd : declaredEntries (referencedNames heuristics steps) target w.conditions.entries with
    | error fault => simp [hd, Except.map] at h
    | ok declared =>
      simp only [hd, Except.map, Except.ok.injEq] at h
      subst h
      have schools : (schoolEntries (referencedNames heuristics steps)
          (declared.map Prod.fst) schoolPartition).map Prod.fst =
          (schoolPartition.filter fun s => s.1 ∈ referencedNames heuristics steps ∧
            s.1 ∉ declared.map Prod.fst).map Prod.fst := by
        simp [schoolEntries, Function.comp_def]
      have distinct : (schoolPartition.map Prod.fst).Nodup := by decide
      rw [List.map_append, schools]
      constructor
      · refine List.nodup_append.mpr ⟨w.conditions.distinct.sublist (names_declaredEntries hd),
          distinct.sublist (List.filter_sublist.map _), ?_⟩
        intro n hn m hm eq
        obtain ⟨s, hs, rfl⟩ := List.mem_map.mp hm
        have := (List.mem_filter.mp hs).2
        simp only [decide_eq_true_eq] at this
        exact this.2 (eq ▸ hn)
      · intro n hn
        rcases List.mem_append.mp hn with hn | hn
        · exact gated_declaredEntries hd n hn
        · obtain ⟨s, hs, rfl⟩ := List.mem_map.mp hn
          have := (List.mem_filter.mp hs).2
          simp only [decide_eq_true_eq] at this
          exact this.1

namespace Resolution

/-- Takes in one compiled condition with the completion fields of its branch. -/
def enter (branches : List (String × Branch)) (r : Resolution) (e : String × Compiled) :
    Resolution :=
  ⟨r.compiled.insert e.1 e.2,
    match branches.lookup e.1 with
    | some b => r.states.insert e.1 b.states
    | none => r.states⟩

theorem result_register (branches : List (String × Branch)) (r : Resolution)
    (name expression : String) (fields : List String) :
    (r.register branches name expression fields).result =
      r.enter branches (name, compiledAs name expression fields) := rfl

theorem outcome_registerDeclared (branches : List (String × Branch)) (referenced : List String)
    (target : Target) (r : Resolution) (e : String × Condition) :
    (registerDeclared branches referenced target r e).outcome =
      (declaredExpression referenced target e).map fun
        | some x => r.enter branches (e.1, compiledAs e.1 x e.2.fields)
        | none => r := by
  obtain ⟨name, c⟩ := e
  by_cases hn : name ∈ referenced
  · cases hr : c.isRelevant target with
    | false => simp [registerDeclared, declaredExpression, hn, hr, Except.map]
    | true =>
      simp only [registerDeclared, declaredExpression, hn, hr, not_true_eq_false, if_false,
        Bool.not_true, Bool.false_eq_true, Compiling.outcome_bind, and_self, if_true]
      cases c.compile.outcome with
      | error fault => rfl
      | ok found =>
        cases found with
        | none => rfl
        | some x => rfl
  · simp [registerDeclared, declaredExpression, hn, Except.map]

theorem foldlM_registerDeclared (branches : List (String × Branch)) (referenced : List String)
    (target : Target) (entries : List (String × Condition)) (r : Resolution) :
    entries.foldlM (fun r e => (registerDeclared branches referenced target r e).outcome) r =
      (declaredEntries referenced target entries).map fun found =>
        found.foldl (enter branches) r := by
  induction entries generalizing r with
  | nil => rfl
  | cons e rest ih =>
    rw [List.foldlM_cons, outcome_registerDeclared, declaredEntries]
    cases declaredExpression referenced target e with
    | error fault => rfl
    | ok expression =>
      simp only [Except.map, bind, Except.bind]
      rw [ih]
      cases declaredEntries referenced target rest with
      | error fault => rfl
      | ok more =>
        cases expression with
        | none => rfl
        | some x => rfl

theorem foldl_registerSchool (branches : List (String × Branch)) (referenced : List String)
    (schools : List (String × KnownCondition)) (r : Resolution)
    (distinct : (schools.map Prod.fst).Nodup) :
    schools.foldl (fun r s => (registerSchool branches referenced r s).result) r =
      (schoolEntries referenced r.compiled.keys schools).foldl (enter branches) r := by
  induction schools generalizing r with
  | nil => rfl
  | cons s rest ih =>
    have hd := List.nodup_cons.mp distinct
    rw [List.foldl_cons, ih _ hd.2]
    by_cases hs : s.1 ∈ referenced ∧ s.1 ∉ r.compiled.keys
    · have taken : (registerSchool branches referenced r s).result =
          r.enter branches (s.1, compiledAs s.1 s.2.expression [s.1]) := by
        have hc : r.compiled.contains s.1 = false := by simpa [Keyed.contains] using hs.2
        simp [registerSchool, hs.1, hc, result_register]
      have keys : (r.enter branches (s.1, compiledAs s.1 s.2.expression [s.1])).compiled.keys =
          r.compiled.keys ++ [s.1] := by
        simp [enter, Keyed.keys_insert, hs.2]
      -- a school that is taken in does not change which of the later ones are
      have same : schoolEntries referenced (r.compiled.keys ++ [s.1]) rest =
          schoolEntries referenced r.compiled.keys rest := by
        unfold schoolEntries
        congr 1
        apply List.filter_congr
        intro t ht
        have hne : t.1 ≠ s.1 := fun eq => hd.1 (eq ▸ List.mem_map_of_mem ht)
        simp [hne]
      rw [taken, keys, same]
      simp [schoolEntries, hs]
    · have passed : (registerSchool branches referenced r s).result = r := by
        have hc : ¬(s.1 ∈ referenced ∧ !r.compiled.contains s.1) := by
          simpa [Keyed.contains] using hs
        simp only [registerSchool, if_neg hc, Logged.result_pure]
      rw [passed]
      simp [schoolEntries, hs]

/-- Each compiled name gates a step, and its completion fields are those of its branch. -/
structure Settled (heuristics : List Heuristic) (steps : List PlacedStep) (r : Resolution) : Prop
    where
  gates : ∀ n ∈ r.compiled.keys, n ∈ referencedNames heuristics steps
  states : r.states.entries = r.compiled.keys.map fun n => (n, (branchOf heuristics steps n).states)

variable {heuristics : List Heuristic} {w : Workflow} {steps : List PlacedStep} {target : Target}
  {r : Resolution}

theorem settled_empty : empty.Settled heuristics steps :=
  ⟨fun n hn => by simp [empty, Keyed.empty, Keyed.keys] at hn, rfl⟩

theorem Settled.mem_keys_of_states (h : r.Settled heuristics steps) {n : String}
    {tokens : List String} (hs : r.states.get? n = some tokens) : n ∈ r.compiled.keys := by
  rw [Keyed.get?_eq_some_iff, h.states] at hs
  obtain ⟨m, hm, eq⟩ := List.mem_map.mp hs
  cases eq
  exact hm

theorem Settled.enter (h : r.Settled heuristics steps) {e : String × Compiled}
    (gated : e.1 ∈ referencedNames heuristics steps) (new : e.1 ∉ r.compiled.keys) :
    (r.enter (discoverBranches heuristics steps).result e).compiled.entries =
        r.compiled.entries ++ [e] ∧
      (r.enter (discoverBranches heuristics steps).result e).Settled heuristics steps := by
  have entries : (r.enter (discoverBranches heuristics steps).result e).compiled.entries =
      r.compiled.entries ++ [e] := Keyed.insertEntry_of_new _ _ new
  have keys : (r.enter (discoverBranches heuristics steps).result e).compiled.keys =
      r.compiled.keys ++ [e.1] := by
    rw [Keyed.keys, entries, List.map_append]
    rfl
  refine ⟨entries, ?_, ?_⟩
  · intro n hn
    rw [keys, List.mem_append, List.mem_singleton] at hn
    rcases hn with hn | rfl
    · exact h.gates n hn
    · exact gated
  · have fresh : e.1 ∉ r.states.entries.map Prod.fst := by simpa [h.states] using new
    have states : (r.enter (discoverBranches heuristics steps).result e).states.entries =
        r.states.entries ++ [(e.1, (branchOf heuristics steps e.1).states)] := by
      simp only [Resolution.enter, lookup_discoverBranches, if_pos gated]
      exact Keyed.insertEntry_of_new _ _ fresh
    rw [states, keys, h.states, List.map_append]
    rfl

theorem Settled.foldl_enter (h : r.Settled heuristics steps) {entries : List (String × Compiled)}
    (distinct : (r.compiled.keys ++ entries.map Prod.fst).Nodup)
    (gated : ∀ n ∈ entries.map Prod.fst, n ∈ referencedNames heuristics steps) :
    (entries.foldl (Resolution.enter (discoverBranches heuristics steps).result) r).compiled.entries
        = r.compiled.entries ++ entries ∧
      (entries.foldl (Resolution.enter (discoverBranches heuristics steps).result) r).Settled
        heuristics steps := by
  induction entries generalizing r with
  | nil => exact ⟨by simp, h⟩
  | cons e rest ih =>
    have new : e.1 ∉ r.compiled.keys := by
      intro hm
      exact (List.nodup_append.mp distinct).2.2 e.1 hm e.1 (by simp) rfl
    obtain ⟨entries, settled⟩ := h.enter (gated e.1 (by simp)) new
    have keys : (r.enter (discoverBranches heuristics steps).result e).compiled.keys =
        r.compiled.keys ++ [e.1] := by
      rw [Keyed.keys, entries, List.map_append]
      rfl
    have hrest := ih settled (by simpa [keys] using distinct)
      (fun n hn => gated n (List.mem_cons_of_mem _ hn))
    rw [List.foldl_cons]
    exact ⟨by rw [hrest.1, entries, List.append_assoc]; rfl, hrest.2⟩

theorem outcome_resolve (heuristics : List Heuristic) (w : Workflow) (steps : List PlacedStep)
    (target : Target) :
    (resolve heuristics w steps target).outcome =
      (resolvedEntries heuristics w steps target).map fun entries =>
        entries.foldl (enter (discoverBranches heuristics steps).result) empty := by
  by_cases hw : w.conditions.entries = []
  · simp only [resolve, resolvedEntries, hw, if_true, Compiling.outcome_bind,
      Compiling.outcome_lift, Logged.result_foldlM, registerGuess, result_register, Except.map,
      guessedEntries, List.foldl_map]
    rfl
  · simp only [resolve, resolvedEntries, hw, if_false, Compiling.outcome_bind,
      Compiling.outcome_lift, Compiling.outcome_foldlM, foldlM_registerDeclared,
      Logged.result_foldlM]
    cases hd : declaredEntries (referencedNames heuristics steps) target w.conditions.entries with
    | error fault => rfl
    | ok declared =>
      have keys : (declared.foldl (enter (discoverBranches heuristics steps).result)
          empty).compiled.keys = declared.map Prod.fst := by
        have names := w.conditions.distinct.sublist (names_declaredEntries hd)
        have start : empty.Settled heuristics steps := settled_empty
        have form := start.foldl_enter (by simpa [empty, Keyed.empty, Keyed.keys] using names)
          (gated_declaredEntries hd)
        rw [Keyed.keys, form.1]
        rfl
      simp only [Except.map, bind, Except.bind]
      rw [foldl_registerSchool _ _ _ _ (by decide), keys, List.foldl_append]

theorem resolve_eq_error {fault : ValueFault}
    (h : (resolve heuristics w steps target).outcome = .error fault) :
    resolvedEntries heuristics w steps target = .error fault := by
  rw [outcome_resolve] at h
  cases hr : resolvedEntries heuristics w steps target with
  | error other =>
    rw [hr] at h
    exact congrArg _ (Except.error.inj h)
  | ok entries =>
    rw [hr] at h
    cases h

/-- Where resolving ends well, each compiled condition is there, with the completion fields of its
branch. -/
theorem resolve_eq_ok (h : (resolve heuristics w steps target).outcome = .ok r) :
    resolvedEntries heuristics w steps target = .ok r.compiled.entries ∧
      r.Settled heuristics steps := by
  rw [outcome_resolve] at h
  cases he : resolvedEntries heuristics w steps target with
  | error fault => simp [he, Except.map] at h
  | ok entries =>
    obtain ⟨distinct, gated⟩ := names_resolvedEntries he
    have start : empty.Settled heuristics steps := settled_empty
    have form := start.foldl_enter (by simpa [empty, Keyed.empty, Keyed.keys] using distinct) gated
    simp only [he, Except.map, Except.ok.injEq] at h
    subst h
    exact ⟨by rw [form.1]; rfl, form.2⟩

end Resolution

theorem exists_ok_of_map {ε α β : Type} {x : Except ε α} {f : α → β} {b : β}
    (h : (x.map f).toOption = some b) : ∃ a, x = .ok a ∧ f a = b := by
  cases x with
  | error fault => cases h
  | ok a => exact ⟨a, rfl, Option.some.inj h⟩

/-- A step of the given title that a condition gates. -/
def gatedStep (title condition : String) : Step :=
  ⟨none, some title, none, none, none, none, true, some (.one condition), none, [], .empty, .empty⟩

end Gatehouse
