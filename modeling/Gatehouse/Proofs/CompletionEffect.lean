import Gatehouse.Proofs.ClassText
import Gatehouse.Proofs.CodeRun

namespace Gatehouse

variable {partition : List String} {compiled : Keyed Compiled} {states : Keyed (List String)}

def autoCompleteLines (compiled : Keyed Compiled) (states : Keyed (List String)) : List String :=
  headedLines "Set completion states for students who don't meet condition criteria"
    (autoCompleteBlocks compiled states)

/-- The lines that complete what a record does not go through: the branches that it does not
enter, then the paths that it does not take. -/
def completionLines (partition : List String) (compiled : Keyed Compiled)
    (states : Keyed (List String)) : List String :=
  autoCompleteLines compiled states
    ++ headedLines "Merge completion states across mutually exclusive high school paths"
      (mergeBlocks partition compiled states)

theorem completionCode_eq_unlines (partition : List String) (compiled : Keyed Compiled)
    (states : Keyed (List String)) :
    (completionCode partition compiled states).result =
      unlines (completionLines partition compiled states) := by
  rw [result_completionCode, completionLines, unlines_append, autoCompleteLines,
    ← headedBlocks_eq_unlines, ← headedBlocks_eq_unlines]
  rfl

theorem autoCompleteCode_eq_unlines (compiled : Keyed Compiled) (states : Keyed (List String)) :
    autoCompleteCode compiled states = unlines (autoCompleteLines compiled states) := by
  rw [autoCompleteLines, ← headedBlocks_eq_unlines]
  rfl

theorem fieldsSet_autoCompleteLines (truth : String → Bool) (compiled : Keyed Compiled)
    (states : Keyed (List String)) :
    fieldsSet truth (autoCompleteLines compiled states) =
      setBy truth (autoCompleteBlocks compiled states) := by
  rw [fieldsSet, autoCompleteLines, Running.run_headedLines truth rfl]
  rfl

theorem fieldsSet_completionLines (truth : String → Bool) (partition : List String)
    (compiled : Keyed Compiled) (states : Keyed (List String)) :
    fieldsSet truth (completionLines partition compiled states) =
      setBy truth (autoCompleteBlocks compiled states)
        ++ setBy truth (mergeBlocks partition compiled states) := by
  rw [fieldsSet, completionLines, Running.run_append, autoCompleteLines,
    Running.run_headedLines truth (r := Running.start) rfl, Running.run_headedLines truth rfl]
  rfl

theorem mem_autoCompleteBlocks {b : GuardedBlock} :
    b ∈ autoCompleteBlocks compiled states ↔ ∃ n c tokens, compiled.get? n = some c ∧
      states.get? n = some tokens ∧ tokens ≠ [] ∧
      b = ⟨"Auto-complete steps for students who don't qualify for " ++ n, true, c.expression,
        tokens⟩ := by
  simp only [autoCompleteBlocks, List.mem_filterMap, Prod.exists, ← Keyed.get?_eq_some_iff]
  constructor
  · rintro ⟨n, tokens, hs, hb⟩
    split at hb
    next c hc =>
      split at hb
      next => cases hb
      next filled =>
        cases hb
        exact ⟨n, c, tokens, hc, hs, filled, rfl⟩
    next => cases hb
  · rintro ⟨n, c, tokens, hc, hs, filled, rfl⟩
    exact ⟨n, tokens, hs, by simp [hc, filled]⟩

/-- A field is completed for the branches that a record does not enter. -/
theorem mem_setBy_autoCompleteBlocks {truth : String → Bool} {t : String} :
    t ∈ setBy truth (autoCompleteBlocks compiled states) ↔ ∃ n c tokens,
      compiled.get? n = some c ∧ states.get? n = some tokens ∧ t ∈ tokens ∧
      truth c.expression = false := by
  simp only [mem_setBy, mem_autoCompleteBlocks]
  constructor
  · rintro ⟨b, ⟨n, c, tokens, hc, hs, -, rfl⟩, taken, ht⟩
    exact ⟨n, c, tokens, hc, hs, ht, by simpa [GuardedBlock.isTaken] using taken⟩
  · rintro ⟨n, c, tokens, hc, hs, ht, false_⟩
    exact ⟨_, ⟨n, c, tokens, hc, hs, List.ne_nil_of_mem ht, rfl⟩,
      by simp [GuardedBlock.isTaken, false_], ht⟩

theorem mem_otherStates {present : List String} {taken t : String} :
    t ∈ otherStates states present taken ↔ ∃ other ∈ present, other ≠ taken ∧ ∃ tokens,
      states.get? other = some tokens ∧ t ∈ tokens := by
  have collected : otherStates states present taken =
      ((present.filter (· ≠ taken)).flatMap fun other => (states.get? other).getD []).foldl
        addNew [] := by
    rw [otherStates, List.foldl_flatMap]
  simp only [collected, mem_foldl_addNew, List.not_mem_nil, false_or, List.mem_flatMap,
    List.mem_filter, decide_eq_true_eq]
  constructor
  · rintro ⟨other, ⟨hp, hne⟩, ht⟩
    cases hs : states.get? other with
    | none => simp [hs] at ht
    | some tokens => exact ⟨other, hp, hne, tokens, hs, by simpa [hs] using ht⟩
  · rintro ⟨other, hp, hne, tokens, hs, ht⟩
    exact ⟨other, ⟨hp, hne⟩, by simpa [hs] using ht⟩

theorem mem_mergedPaths_of_ne {x y : String} (hx : x ∈ partition) (hy : y ∈ partition)
    (hcx : x ∈ compiled.keys) (hcy : y ∈ compiled.keys) (ne : x ≠ y) :
    x ∈ mergedPaths partition compiled ∧ y ∈ mergedPaths partition compiled := by
  have px : x ∈ partition.filter compiled.contains :=
    List.mem_filter.mpr ⟨hx, Keyed.contains_iff.mpr hcx⟩
  have py : y ∈ partition.filter compiled.contains :=
    List.mem_filter.mpr ⟨hy, Keyed.contains_iff.mpr hcy⟩
  have two : ¬(partition.filter compiled.contains).length < 2 := by
    intro short
    generalize partition.filter compiled.contains = present at px py short
    match present, short with
    | [], _ => cases px
    | [z], _ =>
      rw [List.mem_singleton] at px py
      exact ne (px.trans py.symm)
  simp only [mergedPaths, if_neg two]
  exact ⟨px, py⟩

theorem mem_of_mem_mergedPaths {x : String} (h : x ∈ mergedPaths partition compiled) :
    x ∈ partition ∧ x ∈ compiled.keys := by
  simp only [mergedPaths] at h
  split at h
  next => cases h
  next =>
    obtain ⟨hx, hc⟩ := List.mem_filter.mp h
    exact ⟨hx, Keyed.contains_iff.mp hc⟩

theorem mem_mergeBlocks {b : GuardedBlock} :
    b ∈ mergeBlocks partition compiled states ↔ ∃ x ∈ mergedPaths partition compiled, ∃ c,
      compiled.get? x = some c ∧ otherStates states (mergedPaths partition compiled) x ≠ [] ∧
      b = ⟨"Path taken: " ++ x, false, c.expression,
        otherStates states (mergedPaths partition compiled) x⟩ := by
  simp only [mergeBlocks, List.mem_filterMap]
  constructor
  · rintro ⟨x, hx, hb⟩
    split at hb
    next c hc =>
      split at hb
      next => cases hb
      next filled =>
        cases hb
        exact ⟨x, hx, c, hc, filled, rfl⟩
    next => cases hb
  · rintro ⟨x, hx, c, hc, filled, rfl⟩
    exact ⟨x, hx, by simp [hc, filled]⟩

/-- On a path that is taken the fields of each other compiled path are set. -/
theorem mem_setBy_mergeBlocks {truth : String → Bool} {t : String} :
    t ∈ setBy truth (mergeBlocks partition compiled states) ↔ ∃ x ∈ partition, ∃ y ∈ partition,
      y ≠ x ∧ ∃ c d tokens, compiled.get? x = some c ∧ compiled.get? y = some d ∧
        states.get? y = some tokens ∧ t ∈ tokens ∧ truth c.expression = true := by
  simp only [mem_setBy, mem_mergeBlocks]
  constructor
  · rintro ⟨b, ⟨x, hx, c, hc, -, rfl⟩, taken, ht⟩
    obtain ⟨y, hy, hne, tokens, hs, ht⟩ := mem_otherStates.mp ht
    obtain ⟨hxp, -⟩ := mem_of_mem_mergedPaths hx
    obtain ⟨hyp, hyc⟩ := mem_of_mem_mergedPaths hy
    obtain ⟨d, hd⟩ := Keyed.mem_keys_iff.mp hyc
    exact ⟨x, hxp, y, hyp, hne, c, d, tokens, hc, hd, hs, ht,
      by simpa [GuardedBlock.isTaken] using taken⟩
  · rintro ⟨x, hx, y, hy, hne, c, d, tokens, hc, hd, hs, ht, taken⟩
    obtain ⟨px, py⟩ := mem_mergedPaths_of_ne hx hy (Keyed.mem_keys_iff.mpr ⟨c, hc⟩)
      (Keyed.mem_keys_iff.mpr ⟨d, hd⟩) hne.symm
    have other : t ∈ otherStates states (mergedPaths partition compiled) x :=
      mem_otherStates.mpr ⟨y, py, hne, tokens, hs, ht⟩
    exact ⟨_, ⟨x, px, c, hc, List.ne_nil_of_mem other, rfl⟩,
      by simp [GuardedBlock.isTaken, taken], other⟩

/-- At most one compiled member of the partition has a true expression. -/
def AtMostOneTaken (partition : List String) (compiled : Keyed Compiled)
    (truth : String → Bool) : Prop :=
  ∀ x ∈ partition, ∀ y ∈ partition, ∀ c d, compiled.get? x = some c → compiled.get? y = some d →
    truth c.expression = true → truth d.expression = true → x = y

/-- The names, expressions and tokens do not run over the end of a line. -/
structure HasOneLineCompletion (compiled : Keyed Compiled) (states : Keyed (List String)) :
    Prop where
  names : ∀ e ∈ compiled.entries, IsOneLine e.1
  expressions : ∀ e ∈ compiled.entries, IsOneLine e.2.expression
  tokens : ∀ e ∈ states.entries, ∀ t ∈ e.2, IsOneLine t

theorem GuardedBlock.isOneLine_setLine {field : String} (h : IsOneLine field) :
    IsOneLine (setLine field) := by
  simp only [setLine, isOneLine_append]
  exact ⟨⟨by decide, h⟩, by decide⟩

theorem GuardedBlock.isOneLine_lines {b : GuardedBlock} (remark : IsOneLine b.remark)
    (predicate : IsOneLine b.predicate) (fields : ∀ f ∈ b.fields, IsOneLine f) :
    ∀ line ∈ b.lines, IsOneLine line := by
  intro line hline
  simp only [lines, List.mem_append, List.mem_cons, List.mem_map, List.not_mem_nil,
    or_false] at hline
  rcases hline with ((rfl | rfl) | ⟨f, hf, rfl⟩) | rfl | rfl
  · exact isOneLine_append.mpr ⟨by decide, remark⟩
  · have word : IsOneLine ("    " ++ b.guardWord) := by
      cases h : b.negated <;> simp only [guardWord, h] <;> decide
    exact isOneLine_append.mpr ⟨isOneLine_append.mpr ⟨word, by decide⟩, predicate⟩
  · exact isOneLine_setLine (fields f hf)
  · decide
  · decide

theorem isOneLine_headedLines {heading : String} {blocks : List GuardedBlock}
    (h : IsOneLine heading) (hb : ∀ b ∈ blocks, ∀ line ∈ b.lines, IsOneLine line) :
    ∀ line ∈ headedLines heading blocks, IsOneLine line := by
  intro line hline
  unfold headedLines at hline
  split at hline
  next => cases hline
  next =>
    rcases List.mem_cons.mp hline with rfl | hline
    · exact isOneLine_append.mpr ⟨by decide, h⟩
    · obtain ⟨b, hmem, hl⟩ := List.mem_flatMap.mp hline
      exact hb b hmem line hl

theorem isOneLine_autoCompleteLines (oneLine : HasOneLineCompletion compiled states) :
    ∀ line ∈ autoCompleteLines compiled states, IsOneLine line := by
  refine isOneLine_headedLines (isOneLine_ofList.mpr (by decide)) fun b hb => ?_
  obtain ⟨n, c, tokens, hc, hs, -, rfl⟩ := mem_autoCompleteBlocks.mp hb
  have named := Keyed.get?_eq_some_iff.mp hc
  exact GuardedBlock.isOneLine_lines
    (isOneLine_append.mpr ⟨isOneLine_ofList.mpr (by decide), oneLine.names _ named⟩)
    (oneLine.expressions _ named) (oneLine.tokens _ (Keyed.get?_eq_some_iff.mp hs))

theorem isOneLine_completionLines (oneLine : HasOneLineCompletion compiled states)
    (partition : List String) :
    ∀ line ∈ completionLines partition compiled states, IsOneLine line := by
  intro line hline
  rcases List.mem_append.mp hline with hline | hline
  · exact isOneLine_autoCompleteLines oneLine line hline
  · refine isOneLine_headedLines (isOneLine_ofList.mpr (by decide)) (fun b hb => ?_) line hline
    obtain ⟨x, -, c, hc, -, rfl⟩ := mem_mergeBlocks.mp hb
    have named := Keyed.get?_eq_some_iff.mp hc
    refine GuardedBlock.isOneLine_lines
      (isOneLine_append.mpr ⟨isOneLine_ofList.mpr (by decide), oneLine.names _ named⟩)
      (oneLine.expressions _ named) fun f hf => ?_
    obtain ⟨y, -, -, tokens, hs, ht⟩ := mem_otherStates.mp hf
    exact oneLine.tokens _ (Keyed.get?_eq_some_iff.mp hs) f ht

theorem fieldsSet_linesOf_unlines (truth : String → Bool) {lines : List String}
    (oneLine : ∀ line ∈ lines, IsOneLine line) :
    fieldsSet truth (linesOf (unlines lines)) = fieldsSet truth lines := by
  rw [linesOf_unlines oneLine, fieldsSet, Running.run_append]
  rfl

/-- As long as at most one path is taken, what the paths add is there already. -/
theorem mem_setBy_of_mergeBlocks {truth : String → Bool}
    (exclusive : AtMostOneTaken partition compiled truth) {t : String}
    (ht : t ∈ setBy truth (mergeBlocks partition compiled states)) :
    t ∈ setBy truth (autoCompleteBlocks compiled states) := by
  obtain ⟨x, hx, y, hy, hne, c, d, tokens, hc, hd, hs, ht, taken⟩ := mem_setBy_mergeBlocks.mp ht
  have untaken : truth d.expression = false := by
    cases h : truth d.expression with
    | false => rfl
    | true => exact absurd (exclusive x hx y hy c d hc hd taken h) hne.symm
  exact mem_setBy_autoCompleteBlocks.mpr ⟨y, d, tokens, hd, hs, ht, untaken⟩

/-- As long as at most one path is taken and no name, expression or token runs over the end of a
line, the completion code sets the fields of the branches that are not entered: no other than its
first part sets alone. -/
theorem completion_sets_iff (partition : List String) (compiled : Keyed Compiled)
    (states : Keyed (List String)) (truth : String → Bool)
    (exclusive : AtMostOneTaken partition compiled truth)
    (oneLine : HasOneLineCompletion compiled states) (t : String) :
    let whole := fieldsSet truth (linesOf (completionCode partition compiled states).result)
    (t ∈ whole ↔ ∃ n c tokens, compiled.get? n = some c ∧ states.get? n = some tokens ∧
        t ∈ tokens ∧ truth c.expression = false) ∧
      (t ∈ whole ↔ t ∈ fieldsSet truth (linesOf (autoCompleteCode compiled states))) := by
  have run : fieldsSet truth (linesOf (completionCode partition compiled states).result) =
      setBy truth (autoCompleteBlocks compiled states)
        ++ setBy truth (mergeBlocks partition compiled states) := by
    rw [completionCode_eq_unlines, fieldsSet_linesOf_unlines truth
      (isOneLine_completionLines oneLine partition), fieldsSet_completionLines]
  have first : fieldsSet truth (linesOf (autoCompleteCode compiled states)) =
      setBy truth (autoCompleteBlocks compiled states) := by
    rw [autoCompleteCode_eq_unlines, fieldsSet_linesOf_unlines truth
      (isOneLine_autoCompleteLines oneLine), fieldsSet_autoCompleteLines]
  have absorbed : t ∈ fieldsSet truth
        (linesOf (completionCode partition compiled states).result) ↔
      t ∈ setBy truth (autoCompleteBlocks compiled states) := by
    rw [run, List.mem_append]
    exact ⟨fun ht => ht.elim id (mem_setBy_of_mergeBlocks exclusive), Or.inl⟩
  exact ⟨absorbed.trans mem_setBy_autoCompleteBlocks, by rw [first, absorbed]⟩

/-- A record of a home school: the other school's agreement is completed, the affidavit is not. -/
theorem completion_sets_home_school :
    let compiled : Keyed Compiled := .ofList [("home_school", ⟨"a", ["home_school"]⟩),
      ("non_partner", ⟨"b", ["non_partner"]⟩)]
    let states : Keyed (List String) := .ofList [("home_school", ["affidavit_complete"]),
      ("non_partner", ["agreement_yes"])]
    AtMostOneTaken schoolNames compiled (· == "a") ∧ HasOneLineCompletion compiled states ∧
      "agreement_yes" ∈ fieldsSet (· == "a")
        (linesOf (completionCode schoolNames compiled states).result) ∧
      "affidavit_complete" ∉ fieldsSet (· == "a")
        (linesOf (completionCode schoolNames compiled states).result) := by
  intro compiled states
  have entries : compiled.entries = [("home_school", ⟨"a", ["home_school"]⟩),
      ("non_partner", ⟨"b", ["non_partner"]⟩)] := rfl
  have tokens : states.entries = [("home_school", ["affidavit_complete"]),
      ("non_partner", ["agreement_yes"])] := rfl
  have exclusive : AtMostOneTaken schoolNames compiled (· == "a") := by
    intro x _ y _ c d hc hd tc td
    rw [Keyed.get?_eq_some_iff, entries] at hc hd
    simp only [List.mem_cons, Prod.mk.injEq, List.not_mem_nil, or_false] at hc hd
    rcases hc with ⟨rfl, rfl⟩ | ⟨rfl, rfl⟩
    · rcases hd with ⟨rfl, rfl⟩ | ⟨rfl, rfl⟩
      · rfl
      · exact absurd td (by decide)
    · exact absurd tc (by decide)
  have oneLine : HasOneLineCompletion compiled states := ⟨by decide, by decide, by decide⟩
  have sets := completion_sets_iff schoolNames compiled states (· == "a") exclusive oneLine
  refine ⟨exclusive, oneLine, ?_, fun ht => ?_⟩
  · exact (sets _).1.mpr
      ⟨"non_partner", ⟨"b", ["non_partner"]⟩, ["agreement_yes"], rfl, rfl, by simp, by decide⟩
  · obtain ⟨n, c, ts, hc, hs, ht, untaken⟩ := (sets _).1.mp ht
    rw [Keyed.get?_eq_some_iff, entries] at hc
    rw [Keyed.get?_eq_some_iff, tokens] at hs
    simp only [List.mem_cons, Prod.mk.injEq, List.not_mem_nil, or_false] at hc hs
    rcases hs with ⟨rfl, rfl⟩ | ⟨rfl, rfl⟩
    · rcases hc with ⟨-, rfl⟩ | ⟨h, -⟩
      · exact absurd untaken (by decide)
      · exact absurd h (by decide)
    · exact absurd (List.mem_singleton.mp ht) (by decide)

/-- A name that runs over the end of a line sets a field of its own, in every record. -/
theorem completion_sets_brokenName :
    let name := "a\n    fields[\"x\"] = true"
    let compiled : Keyed Compiled := .ofList [(name, ⟨"e", [name]⟩)]
    let states : Keyed (List String) := .ofList [(name, ["t"])]
    let truth : String → Bool := fun _ => true
    AtMostOneTaken schoolNames compiled truth ∧
      "x" ∈ fieldsSet truth (linesOf (completionCode schoolNames compiled states).result) ∧
      ¬∃ n c tokens, compiled.get? n = some c ∧ states.get? n = some tokens ∧ "x" ∈ tokens ∧
        truth c.expression = false := by
  intro name compiled states truth
  have text : (completionCode schoolNames compiled states).result =
      unlines ["    # Set completion states for students who don't meet condition criteria",
        "    # Auto-complete steps for students who don't qualify for a",
        "    fields[\"x\"] = true", "    unless e", GuardedBlock.setLine "t", "    end", ""] := by
    decide +kernel
  refine ⟨fun x _ y _ c d hc hd _ _ => ?_, ?_, ?_⟩
  · rw [Keyed.get?_eq_some_iff] at hc hd
    exact (Prod.mk.inj (List.mem_singleton.mp hc)).1.trans
      (Prod.mk.inj (List.mem_singleton.mp hd)).1.symm
  · rw [text, fieldsSet_linesOf_unlines truth (by decide +kernel)]
    decide +kernel
  · rintro ⟨n, c, tokens, -, -, -, untaken⟩
    cases untaken

end Gatehouse
