import Gatehouse.Proofs.BranchMembers
import Gatehouse.Proofs.CompletionEffect
import Gatehouse.Proofs.ConditionMeaning

namespace Gatehouse

/-- The completion fields under a name; none if there is no entry. -/
def statesUnder (states : Keyed (List String)) (name : String) : List String :=
  (states.get? name).getD []

/-- The fields that the blocks of a path through the partition set. -/
def pathFields (partition : List String) (compiled : Keyed Compiled)
    (states : Keyed (List String)) (path : String) : List String :=
  ((mergeBlocks partition compiled states).filter fun b => b.remark = "Path taken: " ++ path).flatMap
    GuardedBlock.fields

/-- The members of a partition that are compiled. -/
def compiledPaths (partition : List String) (compiled : Keyed Compiled) : List String :=
  partition.filter (· ∈ compiled.keys)

/-- No path sets a field of its own branch. -/
def LeavesOwnFields (partition : List String) (compiled : Keyed Compiled)
    (states : Keyed (List String)) : Prop :=
  ∀ path, (pathFields partition compiled states path).Disjoint (statesUnder states path)

theorem mem_statesUnder {states : Keyed (List String)} {name t : String} :
    t ∈ statesUnder states name ↔ ∃ tokens, states.get? name = some tokens ∧ t ∈ tokens := by
  unfold statesUnder
  cases states.get? name with
  | none => simp
  | some tokens => simp

theorem mem_compiledPaths {partition : List String} {compiled : Keyed Compiled} {x : String} :
    x ∈ compiledPaths partition compiled ↔ x ∈ partition ∧ x ∈ compiled.keys := by
  simp [compiledPaths]

theorem pathRemark_inj {x y : String} : "Path taken: " ++ x = "Path taken: " ++ y ↔ x = y := by
  rw [String.ext_iff, String.toList_append, String.toList_append, List.append_right_inj,
    ← String.ext_iff]

section

variable {partition : List String} {compiled : Keyed Compiled} {states : Keyed (List String)}

/-- A path sets the fields of the other compiled paths, whatever its own ones are. -/
theorem mem_pathFields {x t : String} : t ∈ pathFields partition compiled states x ↔
    x ∈ compiledPaths partition compiled ∧
      ∃ y ∈ compiledPaths partition compiled, y ≠ x ∧ t ∈ statesUnder states y := by
  simp only [pathFields, List.mem_flatMap, List.mem_filter, decide_eq_true_eq, mem_mergeBlocks]
  constructor
  · rintro ⟨b, ⟨⟨y, hy, c, hc, -, rfl⟩, remark⟩, ht⟩
    obtain rfl := pathRemark_inj.mp remark
    obtain ⟨z, hz, ne, tokens, hs, ht⟩ := mem_otherStates.mp ht
    exact ⟨mem_compiledPaths.mpr (mem_of_mem_mergedPaths hy), z,
      mem_compiledPaths.mpr (mem_of_mem_mergedPaths hz), ne, mem_statesUnder.mpr ⟨tokens, hs, ht⟩⟩
  · rintro ⟨hx, y, hy, ne, ht⟩
    obtain ⟨xp, xk⟩ := mem_compiledPaths.mp hx
    obtain ⟨yp, yk⟩ := mem_compiledPaths.mp hy
    obtain ⟨px, py⟩ := mem_mergedPaths_of_ne xp yp xk yk ne.symm
    obtain ⟨c, hc⟩ := Keyed.mem_keys_iff.mp xk
    obtain ⟨tokens, hs, ht⟩ := mem_statesUnder.mp ht
    have other : t ∈ otherStates states (mergedPaths partition compiled) x :=
      mem_otherStates.mpr ⟨y, py, ne, tokens, hs, ht⟩
    exact ⟨_, ⟨⟨x, px, c, hc, List.ne_nil_of_mem other, rfl⟩, rfl⟩, other⟩

theorem leavesOwnFields_iff : LeavesOwnFields partition compiled states ↔
    ∀ x ∈ compiledPaths partition compiled, ∀ y ∈ compiledPaths partition compiled, y ≠ x →
      (statesUnder states y).Disjoint (statesUnder states x) := by
  constructor
  · intro leaves x hx y hy ne t ht own
    exact leaves x (mem_pathFields.mpr ⟨hx, y, hy, ne, ht⟩) own
  · intro apart x t set own
    obtain ⟨hx, y, hy, ne, ht⟩ := mem_pathFields.mp set
    exact apart x hx y hy ne ht own

end

theorem Resolution.mem_statesUnder_iff {heuristics : List Heuristic} {w : Workflow}
    {steps : List PlacedStep} {target : Target} {r : Resolution}
    (h : (resolve heuristics w steps target).outcome = .ok r) {n : String}
    (compiled : n ∈ r.compiled.keys) {t : String} :
    t ∈ statesUnder r.states n ↔
      ∃ s ∈ memberSteps heuristics steps n, s.step.completionToken? = some t := by
  rw [statesUnder, get?_states h, if_pos compiled, Option.getD_some, states_branchOf_eq,
    List.mem_eraseDups, mem_tokensIn]

/-- A path sets the fields of the other compiled paths. It leaves those of its own branch alone as
long as no two paths share a field; where the conditions of a workflow are compiled, as long as no
steps of two branches, and no step of both, set the same field. -/
theorem leavesOwnFields_iff_apart (partition : List String) (compiled : Keyed Compiled)
    (states : Keyed (List String)) :
    (mergeCode partition compiled states).result =
        headedBlocks "Merge completion states across mutually exclusive high school paths"
          (mergeBlocks partition compiled states) ∧
      (∀ path t, t ∈ pathFields partition compiled states path ↔
        path ∈ compiledPaths partition compiled ∧
          ∃ other ∈ compiledPaths partition compiled, other ≠ path ∧
            t ∈ statesUnder states other) ∧
      (LeavesOwnFields partition compiled states ↔
        ∀ path ∈ compiledPaths partition compiled, ∀ other ∈ compiledPaths partition compiled,
          other ≠ path → (statesUnder states other).Disjoint (statesUnder states path)) ∧
      ∀ heuristics w steps target,
        (resolve heuristics w steps target).outcome = .ok ⟨compiled, states⟩ →
        (LeavesOwnFields partition compiled states ↔
          ∀ path ∈ compiledPaths partition compiled,
            ∀ other ∈ compiledPaths partition compiled, other ≠ path →
              ∀ s ∈ memberSteps heuristics steps other, ∀ own ∈ memberSteps heuristics steps path,
                ∀ t, s.step.completionToken? = some t → own.step.completionToken? ≠ some t) := by
  refine ⟨?_, fun path t => mem_pathFields, leavesOwnFields_iff, ?_⟩
  · simp only [mergeCode]
    split
    next => rfl
    next => rfl
  · intro heuristics w steps target resolved
    have tokens {n : String} (hn : n ∈ compiledPaths partition compiled) {t : String} :
        t ∈ statesUnder states n ↔
          ∃ s ∈ memberSteps heuristics steps n, s.step.completionToken? = some t :=
      Resolution.mem_statesUnder_iff resolved (mem_compiledPaths.mp hn).2
    rw [leavesOwnFields_iff]
    constructor
    · intro apart path hp other ho ne s hs own hown t sets same
      exact apart path hp other ho ne ((tokens ho).mpr ⟨s, hs, sets⟩)
        ((tokens hp).mpr ⟨own, hown, same⟩)
    · intro apart path hp other ho ne t hot hpt
      obtain ⟨s, hs, sets⟩ := (tokens ho).mp hot
      obtain ⟨own, hown, same⟩ := (tokens hp).mp hpt
      exact apart path hp other ho ne s hs own hown t sets same

/-- A transcript that both a home school and one without agreement hand in. -/
def sharedTranscript : Workflow where
  conditions := .ofList [("minor", ⟨"minor", none, none, none, none, .null, ["minor"], .empty⟩)]
  steps := [{ gatedStep "Transcript" "" with
      workflowCondition := some (.many ["home_school", "non_partner"]) },
    gatedStep "MOU" "non_partner"]
  extra := .empty

/-- On the path of a home school the transcript counts as complete at once, and so it does on the
other one. -/
theorem leavesOwnFields_transcript :
    let steps := Profile.studentTerm.selectSteps sharedTranscript
    ∃ r, (resolve Heuristic.defaults sharedTranscript steps .studentTerm).outcome = .ok r ∧
      "transcript_complete" ∈ statesUnder r.states "home_school" ∧
      "transcript_complete" ∈ pathFields schoolNames r.compiled r.states "home_school" ∧
      ¬LeavesOwnFields schoolNames r.compiled r.states := by
  intro steps
  obtain ⟨r, resolved, eq⟩ := exists_ok_of_map
    (f := fun r => (r.compiled.keys, r.states.entries))
    (x := (resolve Heuristic.defaults sharedTranscript steps .studentTerm).outcome)
    (b := (["home_school", "non_partner"], [("home_school", ["transcript_complete"]),
      ("non_partner", ["transcript_complete", "mou_complete"])])) (by decide +kernel)
  obtain ⟨keys, entries⟩ := Prod.mk.inj eq
  obtain ⟨-, sets, -, leaves⟩ := leavesOwnFields_iff_apart schoolNames r.compiled r.states
  have paths : compiledPaths schoolNames r.compiled = ["home_school", "non_partner"] := by
    rw [compiledPaths, keys]
    decide
  have home : statesUnder r.states "home_school" = ["transcript_complete"] := by
    rw [statesUnder, Keyed.get?, entries]
    rfl
  have other : statesUnder r.states "non_partner" = ["transcript_complete", "mou_complete"] := by
    rw [statesUnder, Keyed.get?, entries]
    rfl
  refine ⟨r, resolved, by simp [home], (sets _ _).mpr ⟨by simp [paths], "non_partner",
    by simp [paths], by decide, by simp [other]⟩, ?_⟩
  rw [leaves Heuristic.defaults sharedTranscript steps .studentTerm resolved]
  intro apart
  have member : ∀ n ∈ ["home_school", "non_partner"],
      ∃ s ∈ memberSteps Heuristic.defaults steps n,
        s.step.completionToken? = some "transcript_complete" := by decide +kernel
  obtain ⟨s, hs, handed⟩ := member "non_partner" (by simp)
  obtain ⟨t, ht, same⟩ := member "home_school" (by simp)
  exact apart "home_school" (by simp [paths]) "non_partner" (by simp [paths]) (by decide) s hs t ht
    _ handed same

end Gatehouse
