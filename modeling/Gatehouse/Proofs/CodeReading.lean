import Gatehouse.Proofs.BranchMembers
import Gatehouse.Proofs.CompletionEffect

namespace Gatehouse

/-- Fields that are set if a predicate holds, or unless it does, as a reader of a class finds
them. -/
structure FieldRule where
  negated : Bool
  predicate : String
  fields : List String
  deriving DecidableEq

/-- Blank lines and remarks, at any depth, are passed over. -/
def isSilent (line : String) : Bool :=
  match line.toList.dropWhile (· == ' ') with
  | [] => true
  | c :: _ => c == '#'

/-- The rules that are read to their ends, and the one that is open. -/
structure RuleReader where
  done : List FieldRule
  opened : Option FieldRule

namespace RuleReader

def start : RuleReader := ⟨[], none⟩

/-- A guard opens a rule, field lines stand inside one, and an end closes it. Any other line, and
any of these in another place, is refused. -/
def step (r : RuleReader) (line : String) : Option RuleReader :=
  if isSilent line then some r
  else match r.opened, Line.ofText line with
  | none, .guard negated predicate => some { r with opened := some ⟨negated, predicate, []⟩ }
  | some rule, .set field =>
    some { r with opened := some { rule with fields := rule.fields ++ [field] } }
  | some rule, .close => some ⟨r.done ++ [rule], none⟩
  | _, _ => none

def read (r : RuleReader) (lines : List String) : Option RuleReader := lines.foldlM step r

/-- The rules of a text in which each rule is closed. -/
def finish (r : RuleReader) : Option (List FieldRule) :=
  match r.opened with
  | none => some r.done
  | some _ => none

end RuleReader

def readRules (text : String) : Option (List FieldRule) :=
  (RuleReader.start.read (linesOf text)).bind RuleReader.finish

theorem isSilent_blank : isSilent "" = true := rfl

theorem isSilent_remark (s : String) : isSilent ("    # " ++ s) = true := by
  simp [isSilent]

theorem isSilent_guard (b : GuardedBlock) :
    isSilent ("    " ++ b.guardWord ++ " " ++ b.predicate) = false := by
  cases h : b.negated with
  | false => simp [isSilent, GuardedBlock.guardWord, h]
  | true => simp [isSilent, GuardedBlock.guardWord, h]

theorem isSilent_setLine (field : String) : isSilent (GuardedBlock.setLine field) = false := by
  simp [isSilent, GuardedBlock.setLine]

def GuardedBlock.rule (b : GuardedBlock) : FieldRule := ⟨b.negated, b.predicate, b.fields⟩

namespace RuleReader

variable {done : List FieldRule}

theorem read_append (r : RuleReader) (lines more : List String) :
    r.read (lines ++ more) = (r.read lines).bind fun r => r.read more := List.foldlM_append

theorem read_cons (r : RuleReader) (line : String) (rest : List String) :
    r.read (line :: rest) = (r.step line).bind fun r => r.read rest := rfl

theorem step_of_silent {line : String} (silent : isSilent line = true) (r : RuleReader) :
    r.step line = some r := if_pos silent

theorem step_guard (b : GuardedBlock) :
    (RuleReader.mk done none).step ("    " ++ b.guardWord ++ " " ++ b.predicate) =
      some ⟨done, some ⟨b.negated, b.predicate, []⟩⟩ := by
  simp only [step, isSilent_guard, Line.ofText_guard]
  rfl

theorem step_end (rule : FieldRule) :
    (RuleReader.mk done (some rule)).step "    end" = some ⟨done ++ [rule], none⟩ := by
  have spoken : isSilent "    end" = false := by decide
  simp only [step, spoken, Line.ofText_end]
  rfl

/-- Field lines are gathered by the rule that is open. -/
theorem read_setLines (negated : Bool) (predicate : String) (before fields : List String) :
    (RuleReader.mk done (some ⟨negated, predicate, before⟩)).read
        (fields.map GuardedBlock.setLine) =
      some ⟨done, some ⟨negated, predicate, before ++ fields⟩⟩ := by
  -- the fields that the rule has gathered before are general, since each line adds to them
  induction fields generalizing before with
  | nil => simp [read]
  | cons field rest ih =>
    have first : (RuleReader.mk done (some ⟨negated, predicate, before⟩)).step
        (GuardedBlock.setLine field) =
        some ⟨done, some ⟨negated, predicate, before ++ [field]⟩⟩ := by
      simp only [step, isSilent_setLine, Line.ofText_setLine]
      rfl
    rw [List.map_cons, read_cons, first, Option.bind_some, ih, List.append_assoc]
    rfl

theorem read_block (done : List FieldRule) (b : GuardedBlock) :
    (RuleReader.mk done none).read b.lines = some ⟨done ++ [b.rule], none⟩ := by
  have opens : (RuleReader.mk done none).read
      ["    # " ++ b.remark, "    " ++ b.guardWord ++ " " ++ b.predicate] =
      some ⟨done, some ⟨b.negated, b.predicate, []⟩⟩ := by
    rw [read_cons, step_of_silent (isSilent_remark _), Option.bind_some, read_cons, step_guard]
    rfl
  have closes : (RuleReader.mk done (some b.rule)).read ["    end", ""] =
      some ⟨done ++ [b.rule], none⟩ := by
    rw [read_cons, step_end, Option.bind_some, read_cons, step_of_silent isSilent_blank]
    rfl
  rw [GuardedBlock.lines, read_append, read_append, opens, Option.bind_some, read_setLines]
  exact closes

theorem read_headedLines (done : List FieldRule) (heading : String) (blocks : List GuardedBlock) :
    (RuleReader.mk done none).read (headedLines heading blocks) =
      some ⟨done ++ blocks.map GuardedBlock.rule, none⟩ := by
  have inner (bs : List GuardedBlock) (done : List FieldRule) :
      (RuleReader.mk done none).read (bs.flatMap GuardedBlock.lines) =
        some ⟨done ++ bs.map GuardedBlock.rule, none⟩ := by
    induction bs generalizing done with
    | nil => simp [read]
    | cons b rest ih =>
      rw [List.flatMap_cons, read_append, read_block, Option.bind_some, ih]
      simp
  unfold headedLines
  split
  next empty =>
    rw [List.isEmpty_iff.mp empty]
    exact inner [] done
  next =>
    rw [read_cons, step_of_silent (isSilent_remark heading), Option.bind_some]
    exact inner blocks done

end RuleReader

/-- What each compiled condition says of its fields; one without fields sets the one of its
name. -/
def conditionRules (compiled : Keyed Compiled) : List FieldRule :=
  compiled.entries.map fun e =>
    ⟨false, e.2.expression, if e.2.fields = [] then [e.1] else e.2.fields⟩

/-- The tokens of each branch are set unless its condition holds. -/
def branchRules (compiled : Keyed Compiled) (states : Keyed (List String)) : List FieldRule :=
  states.entries.filterMap fun e =>
    if e.2 = [] then none else (compiled.get? e.1).map fun c => ⟨true, c.expression, e.2⟩

/-- The tokens of all members but one, each where it is first found. -/
def tokensBeside (states : Keyed (List String)) (members : List String) (member : String) :
    List String :=
  ((members.filter (· ≠ member)).flatMap fun other => (states.get? other).getD []).eraseDups

/-- Each of at least two compiled members of the partition sets the tokens of the others. -/
def pathRules (partition : List String) (compiled : Keyed Compiled)
    (states : Keyed (List String)) : List FieldRule :=
  let members := partition.filter (· ∈ compiled.keys)
  if members.length < 2 then []
  else members.filterMap fun m =>
    if tokensBeside states members m = [] then none
    else (compiled.get? m).map fun c => ⟨false, c.expression, tokensBeside states members m⟩

/-- No name, expression, field or token runs over the end of a line. -/
structure HasOneLineCode (compiled : Keyed Compiled) (states : Keyed (List String)) : Prop
    extends HasOneLineCompletion compiled states where
  fields : ∀ e ∈ compiled.entries, ∀ f ∈ e.2.fields, IsOneLine f

section

variable {partition : List String} {compiled : Keyed Compiled} {states : Keyed (List String)}

theorem rules_conditionalBlocks (compiled : Keyed Compiled) :
    (conditionalBlocks compiled).map GuardedBlock.rule = conditionRules compiled := by
  rw [conditionalBlocks, List.map_map]
  rfl

theorem rules_autoCompleteBlocks (compiled : Keyed Compiled) (states : Keyed (List String)) :
    (autoCompleteBlocks compiled states).map GuardedBlock.rule = branchRules compiled states := by
  rw [autoCompleteBlocks, branchRules, List.map_filterMap]
  congr 1
  funext e
  obtain ⟨name, tokens⟩ := e
  cases hc : compiled.get? name with
  | none => simp [hc]
  | some c =>
    by_cases empty : tokens = []
    · simp [hc, empty]
    · simp [hc, empty, GuardedBlock.rule]

theorem otherStates_eq_tokensBeside (states : Keyed (List String)) (members : List String)
    (member : String) : otherStates states members member = tokensBeside states members member := by
  rw [otherStates, tokensBeside, ← foldl_addNew_eq_eraseDups, List.foldl_flatMap]

theorem rules_mergeBlocks (partition : List String) (compiled : Keyed Compiled)
    (states : Keyed (List String)) :
    (mergeBlocks partition compiled states).map GuardedBlock.rule =
      pathRules partition compiled states := by
  have present : partition.filter compiled.contains = partition.filter (· ∈ compiled.keys) := by
    apply List.filter_congr
    intro x _
    rw [Bool.eq_iff_iff, Keyed.contains_iff, decide_eq_true_eq]
  rw [mergeBlocks, pathRules, mergedPaths, present]
  split
  next => rfl
  next =>
    simp only [otherStates_eq_tokensBeside]
    rw [List.map_filterMap]
    congr 1
    funext m
    cases compiled.get? m with
    | none => simp
    | some c =>
      by_cases empty : tokensBeside states (partition.filter (· ∈ compiled.keys)) m = []
      · simp [empty]
      · simp [empty, GuardedBlock.rule]

/-- The lines that set the fields of each condition. -/
def conditionalLines (compiled : Keyed Compiled) : List String :=
  headedLines "Conditional fields based on workflow conditions" (conditionalBlocks compiled)

theorem isOneLine_conditionalLines (oneLine : HasOneLineCode compiled states) :
    ∀ line ∈ conditionalLines compiled, IsOneLine line := by
  refine isOneLine_headedLines (isOneLine_ofList.mpr (by decide)) fun b hb => ?_
  obtain ⟨⟨n, c⟩, he, rfl⟩ := List.mem_map.mp hb
  refine GuardedBlock.isOneLine_lines
    (isOneLine_append.mpr ⟨isOneLine_ofList.mpr (by decide), oneLine.names _ he⟩)
    (oneLine.expressions _ he) fun f hf => ?_
  simp only at hf
  split at hf
  next =>
    rw [List.mem_singleton.mp hf]
    exact oneLine.names _ he
  next => exact oneLine.fields _ he f hf

/-- The lines for the conditions, one part after the other. -/
theorem isOneLine_conditionLines (oneLine : HasOneLineCode compiled states)
    (partition : List String) :
    ∀ line ∈ conditionalLines compiled ++ completionLines partition compiled states,
      IsOneLine line :=
  List.forall_mem_append.mpr ⟨isOneLine_conditionalLines oneLine,
    isOneLine_completionLines oneLine.toHasOneLineCompletion partition⟩

theorem conditionCode_eq_unlines (partition : List String) (compiled : Keyed Compiled)
    (states : Keyed (List String)) :
    conditionalCode compiled ++ (completionCode partition compiled states).result =
      unlines (conditionalLines compiled ++ completionLines partition compiled states) := by
  rw [unlines_append, ← completionCode_eq_unlines, conditionalLines, ← headedBlocks_eq_unlines]
  rfl

end

theorem RuleReader.read_conditionCode (partition : List String) (compiled : Keyed Compiled)
    (states : Keyed (List String)) :
    start.read (conditionalLines compiled ++ completionLines partition compiled states) =
      some ⟨conditionRules compiled ++ branchRules compiled states
        ++ pathRules partition compiled states, none⟩ := by
  rw [read_append, conditionalLines, start, read_headedLines, Option.bind_some, completionLines,
    read_append, autoCompleteLines, read_headedLines, Option.bind_some, read_headedLines,
    rules_conditionalBlocks, rules_autoCompleteBlocks, rules_mergeBlocks]
  rfl

/-- What the code for the conditions says can be read off its text: the fields of the conditions,
then the tokens of the branches, then those of the paths of a partition. -/
theorem readRules_conditionCode (partition : List String) (compiled : Keyed Compiled)
    (states : Keyed (List String)) (oneLine : HasOneLineCode compiled states) :
    readRules (conditionalCode compiled ++ (completionCode partition compiled states).result) =
      some (conditionRules compiled ++ branchRules compiled states
        ++ pathRules partition compiled states) := by
  rw [readRules, conditionCode_eq_unlines,
    linesOf_unlines (isOneLine_conditionLines oneLine partition), RuleReader.read_append,
    RuleReader.read_conditionCode, Option.bind_some, RuleReader.read_cons,
    RuleReader.step_of_silent isSilent_blank]
  rfl

/-- A condition without fields, a branch without tokens, and two paths that share a token. -/
theorem readRules_twoPaths :
    let compiled : Keyed Compiled := .ofList [("minor", ⟨"student.is_minor?", []⟩),
      ("home_school", ⟨"a == b", ["home", "school"]⟩), ("non_partner", ⟨"c", ["non_partner"]⟩)]
    let states : Keyed (List String) := .ofList [("minor", []),
      ("non_partner", ["letter_complete", "agreement_yes", "letter_complete"]),
      ("home_school", ["letter_complete"]), ("transfer", ["form_complete"])]
    HasOneLineCode compiled states ∧
      readRules (conditionalCode compiled ++ (completionCode schoolNames compiled states).result) =
        some [⟨false, "student.is_minor?", ["minor"]⟩, ⟨false, "a == b", ["home", "school"]⟩,
          ⟨false, "c", ["non_partner"]⟩,
          ⟨true, "c", ["letter_complete", "agreement_yes", "letter_complete"]⟩,
          ⟨true, "a == b", ["letter_complete"]⟩,
          ⟨false, "a == b", ["letter_complete", "agreement_yes"]⟩,
          ⟨false, "c", ["letter_complete"]⟩] := by
  intro compiled states
  have oneLine : HasOneLineCode compiled states :=
    ⟨⟨by decide, by decide, by decide⟩, by decide⟩
  refine ⟨oneLine, ?_⟩
  rw [readRules_conditionCode schoolNames compiled states oneLine]
  decide

end Gatehouse
