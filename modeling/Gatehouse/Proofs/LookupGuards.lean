import Gatehouse.Proofs.AutoComplete
import Gatehouse.Proofs.CodeReading
import Gatehouse.Proofs.FieldLiterals
import Gatehouse.Proofs.OneLine
import Mathlib.Data.List.Induction

namespace Gatehouse

/-- A lookup asks whether its field is set, and the known conditions do not depend on fields. -/
structure AsksForFields (truth : List String → String → Bool) : Prop where
  lookup : ∀ fields n, IsPlainName n → truth fields (fieldLookup n) = decide (n ∈ fields)
  known : ∀ (k : KnownCondition) fields others,
    truth fields k.expression = truth others k.expression

/-- The name whose field an expression looks up. -/
def lookedUp? (e : String) : Option String :=
  ((e.toList.dropPrefix? "fields[\"".toList).bind (·.dropSuffix? "\"]".toList)).map String.ofList

/-- Lookups are answered by the fields, all else by fixed answers. -/
def fieldTruth (atoms : String → Bool) (fields : List String) (e : String) : Bool :=
  match lookedUp? e with
  | some n => n ∈ fields
  | none => atoms e

theorem lookedUp?_fieldLookup (n : String) : lookedUp? (fieldLookup n) = some n := by
  have text : (fieldLookup n).toList = "fields[\"".toList ++ (n.toList ++ "\"]".toList) := by
    rw [fieldLookup, String.toList_append, String.toList_append, List.append_assoc]
  have suffix : (n.toList ++ "\"]".toList).dropSuffix? "\"]".toList = some n.toList :=
    List.dropSuffix?_eq_some_iff.mpr ⟨_, rfl, by simp⟩
  rw [lookedUp?, text, List.dropPrefix?_append_of_beq _ (beq_self_eq_true _), Option.bind_some,
    suffix, Option.map_some, String.ofList_toList]

theorem lookedUp?_ofList {c : Char} (h : c ≠ 'f') (cs : List Char) :
    lookedUp? (String.ofList (c :: cs)) = none := by
  have other : (c :: cs).dropPrefix? "fields[\"".toList = none := by
    simp [List.dropPrefix?, h]
  rw [lookedUp?, String.toList_ofList, other]
  rfl

theorem KnownCondition.lookedUp?_expression (k : KnownCondition) :
    lookedUp? k.expression = none := by
  cases k <;> exact lookedUp?_ofList (by decide) _

theorem asksForFields_fieldTruth (atoms : String → Bool) : AsksForFields (fieldTruth atoms) where
  lookup fields n _ := by rw [fieldTruth, lookedUp?_fieldLookup]
  known k fields others := by
    rw [fieldTruth, fieldTruth, k.lookedUp?_expression]

theorem fieldLookup_injective {m n : String} (h : fieldLookup m = fieldLookup n) : m = n := by
  have same := congrArg lookedUp? h
  rw [lookedUp?_fieldLookup, lookedUp?_fieldLookup] at same
  exact Option.some.inj same

theorem guessExpression_cases (n : String) :
    (∃ k : KnownCondition, guessExpression n = k.expression) ∨
      guessExpression n = fieldLookup n := by
  unfold guessExpression
  simp only
  split
  next hint _ => exact Or.inl ⟨hint.2, rfl⟩
  next => exact Or.inr rfl

theorem eq_of_guessExpression {m n : String} (h : guessExpression m = fieldLookup n) : m = n := by
  rcases guessExpression_cases m with ⟨k, known⟩ | looks
  · have none := k.lookedUp?_expression
    rw [← known, h, lookedUp?_fieldLookup] at none
    cases none
  · exact fieldLookup_injective (looks.symm.trans h)

/-- What is set after some lines, where no choice is open and no variable has a value. -/
def fieldsAfter (truth : List String → String → Bool) (fields : List String)
    (lines : List String) : List String :=
  ((Running.mk [] [] fields).run truth lines).fields

/-- What is set after some blocks: each sets its fields if what is set when it is reached lets
it. -/
def setThrough (truth : List String → String → Bool) (fields : List String)
    (blocks : List GuardedBlock) : List String :=
  blocks.foldl (fun fields b => fields ++ if b.isTaken (truth fields) then b.fields else []) fields

section

variable {truth : List String → String → Bool} {fields : List String}

theorem run_blocks_eq (truth : List String → String → Bool) (fields : List String)
    (blocks : List GuardedBlock) :
    (Running.mk [] [] fields).run truth (blocks.flatMap GuardedBlock.lines) =
      ⟨[], [], setThrough truth fields blocks⟩ := by
  induction blocks generalizing fields with
  | nil => rfl
  | cons b rest ih =>
    have first : (Running.mk [] [] fields).run truth b.lines =
        ⟨[], [], fields ++ if b.isTaken (truth fields) then b.fields else []⟩ := by
      rw [Running.run_block rfl]
      change (if b.isTaken (truth fields) = true then _ else _ : Running) = _
      split
      next => rfl
      next => rw [List.append_nil]
    rw [List.flatMap_cons, Running.run_append, first, ih]
    rfl

theorem run_headedLines_eq (heading : String) (blocks : List GuardedBlock) :
    (Running.mk [] [] fields).run truth (headedLines heading blocks) =
      ⟨[], [], setThrough truth fields blocks⟩ := by
  rw [← run_blocks_eq]
  unfold headedLines
  split
  next empty => rw [List.isEmpty_iff.mp empty, List.flatMap_nil]
  next => rw [Running.run_cons, Line.ofText_remark, Running.step]

theorem setThrough_concat (blocks : List GuardedBlock) (b : GuardedBlock) :
    let reached := setThrough truth fields blocks
    setThrough truth fields (blocks ++ [b]) =
      reached ++ if b.isTaken (truth reached) then b.fields else [] :=
  List.foldl_append

/-- A field is set if it was before, or if a block sets it that was let when it was reached. -/
theorem mem_setThrough {blocks : List GuardedBlock} {f : String} :
    f ∈ setThrough truth fields blocks ↔
      f ∈ fields ∨ ∃ before b after, blocks = before ++ b :: after ∧ f ∈ b.fields ∧
        b.isTaken (truth (setThrough truth fields before)) = true := by
  induction blocks using List.reverseRecOn with
  | nil => simp [setThrough]
  | append_singleton blocks last ih =>
    rw [setThrough_concat, List.mem_append, ih, or_assoc]
    refine or_congr_right ?_
    constructor
    · rintro (⟨before, b, after, rfl, hf, taken⟩ | hf)
      · exact ⟨before, b, after ++ [last], by simp, hf, taken⟩
      · split at hf
        next taken => exact ⟨blocks, last, [], rfl, hf, taken⟩
        next => cases hf
    · rintro ⟨before, b, after, split, hf, taken⟩
      rcases List.eq_nil_or_concat after with rfl | ⟨after, c, rfl⟩
      · obtain ⟨rfl, eq⟩ := List.append_inj' split rfl
        cases eq
        exact Or.inr (by rwa [if_pos taken])
      · rw [List.concat_eq_append, ← List.cons_append, ← List.append_assoc] at split
        obtain ⟨rfl, -⟩ := List.append_inj' split rfl
        exact Or.inl ⟨before, b, after, rfl, hf, taken⟩

/-- A field that is set only where it is looked up is set already. -/
theorem mem_setThrough_of_own {blocks : List GuardedBlock} {n : String}
    (asks : AsksForFields truth) (plain : IsPlainName n)
    (own : ∀ b ∈ blocks, n ∈ b.fields → b.negated = false ∧ b.predicate = fieldLookup n) :
    n ∈ setThrough truth fields blocks ↔ n ∈ fields := by
  induction blocks using List.reverseRecOn with
  | nil => rfl
  | append_singleton blocks last ih =>
    have ih := ih fun b hb => own b (List.mem_append_left _ hb)
    rw [setThrough_concat, List.mem_append, ih, or_iff_left_iff_imp]
    intro hf
    split at hf
    next taken =>
      obtain ⟨positive, looks⟩ := own last (by simp) hf
      rw [GuardedBlock.isTaken, positive, looks, asks.lookup _ n plain] at taken
      exact ih.mp (by simpa using taken)
    next => cases hf

end

/-- Each compiled name stands for what it is guessed to be. -/
def IsGuessed (compiled : Keyed Compiled) : Prop :=
  ∀ e ∈ compiled.entries, e.2 = ⟨guessExpression e.1, [e.1]⟩

def completionHeading : String :=
  "Set completion states for students who don't meet condition criteria"

/-- The lines of the conditions and of some blocks behind the heading of those that complete
branches. -/
def linesUpTo (compiled : Keyed Compiled) (before : List GuardedBlock) : List String :=
  conditionalLines compiled
    ++ ("    # " ++ completionHeading) :: before.flatMap GuardedBlock.lines

section

-- what is compiled is compared by the names that it is guessed from
attribute [local irreducible] guessExpression

variable {truth : List String → String → Bool} {fields : List String} {compiled : Keyed Compiled}

theorem fieldsAfter_linesUpTo (before : List GuardedBlock) :
    fieldsAfter truth fields (linesUpTo compiled before) =
      setThrough truth (setThrough truth fields (conditionalBlocks compiled)) before := by
  rw [fieldsAfter, linesUpTo, Running.run_append, conditionalLines, run_headedLines_eq,
    Running.run_cons, Line.ofText_remark, Running.step, run_blocks_eq]

/-- The conditions do not change what a lookup tells. -/
theorem mem_setThrough_conditionalBlocks (asks : AsksForFields truth)
    (guessed : IsGuessed compiled) {n : String} (plain : IsPlainName n)
    (looks : guessExpression n = fieldLookup n) :
    n ∈ setThrough truth fields (conditionalBlocks compiled) ↔ n ∈ fields := by
  refine mem_setThrough_of_own asks plain fun b hb hf => ?_
  obtain ⟨e, he, rfl⟩ := List.mem_map.mp hb
  have own := guessed e he
  simp only [own, List.cons_ne_nil, if_false, List.mem_singleton] at hf ⊢
  exact ⟨trivial, hf ▸ looks⟩

variable {states : Keyed (List String)}

/-- The block of a branch asks for what its name is guessed to stand for. -/
theorem predicate_of_mem_autoCompleteBlocks (guessed : IsGuessed compiled) {b : GuardedBlock}
    (hb : b ∈ autoCompleteBlocks compiled states) :
    b.negated = true ∧ ∃ n ∈ compiled.keys, b.predicate = guessExpression n := by
  obtain ⟨n, c, tokens, hc, -, -, rfl⟩ := mem_autoCompleteBlocks.mp hb
  have own := guessed _ (Keyed.get?_eq_some_iff.mp hc)
  exact ⟨rfl, n, Keyed.mem_keys_iff.mpr ⟨c, hc⟩, congrArg Compiled.expression own⟩

/-- A lookup tells that its field is set if it was at the start, or if a block that was carried out
before sets it. -/
theorem lookup_of_linesUpTo (asks : AsksForFields truth) (guessed : IsGuessed compiled)
    {before : List GuardedBlock} (only : ∀ b ∈ before, b ∈ autoCompleteBlocks compiled states)
    {n : String} (plain : IsPlainName n) (looks : guessExpression n = fieldLookup n) :
    truth (fieldsAfter truth fields (linesUpTo compiled before)) (fieldLookup n) = true ↔
      n ∈ fields ∨ ∃ first b second, before = first ++ b :: second ∧ n ∈ b.fields ∧
        truth (fieldsAfter truth fields (linesUpTo compiled first)) b.predicate = false := by
  rw [asks.lookup _ n plain, decide_eq_true_iff, fieldsAfter_linesUpTo, mem_setThrough,
    mem_setThrough_conditionalBlocks asks guessed plain looks]
  refine or_congr_right ?_
  have taken_iff {first : List GuardedBlock} {b : GuardedBlock} (hb : b ∈ before) :
      b.isTaken (truth (setThrough truth
        (setThrough truth fields (conditionalBlocks compiled)) first)) = true ↔
      truth (fieldsAfter truth fields (linesUpTo compiled first)) b.predicate = false := by
    rw [GuardedBlock.isTaken, (predicate_of_mem_autoCompleteBlocks guessed (only b hb)).1,
      fieldsAfter_linesUpTo]
    simp
  constructor
  · rintro ⟨first, b, second, rfl, hf, taken⟩
    exact ⟨first, b, second, rfl, hf, (taken_iff (by simp)).mp taken⟩
  · rintro ⟨first, b, second, rfl, hf, taken⟩
    exact ⟨first, b, second, rfl, hf, (taken_iff (by simp)).mpr taken⟩

theorem fields_autoCompleteBlock? {tokens : List String} {n : String} {b : GuardedBlock}
    (h : autoCompleteBlock? compiled tokens n = some b) : b.fields = tokens := by
  unfold autoCompleteBlock? at h
  split at h
  next =>
    split at h
    next => cases h
    next => cases h; rfl
  next => cases h

theorem nodup_autoCompleteBlocks (compiled : Keyed Compiled) (states : Keyed (List String)) :
    (autoCompleteBlocks compiled states).Nodup := by
  have entries := List.Nodup.of_map Prod.fst states.distinct
  have blocks : autoCompleteBlocks compiled states =
      states.entries.filterMap fun e => autoCompleteBlock? compiled e.2 e.1 := rfl
  rw [blocks]
  refine entries.filterMap ?_
  rintro ⟨m, ms⟩ ⟨n, ns⟩ b hm hn
  have names := (remark_autoCompleteBlock? hm).symm.trans (remark_autoCompleteBlock? hn)
  have tokens := (fields_autoCompleteBlock? hm).symm.trans (fields_autoCompleteBlock? hn)
  exact Prod.ext (autoCompleteRemark_inj.mp names) tokens

/-- No branch has a field that the name of another one looks up. -/
def KeepsLookups (blocks : List GuardedBlock) : Prop :=
  ∀ b ∈ blocks, ∀ n, b.predicate = fieldLookup n → ∀ c ∈ blocks, n ∈ c.fields → c = b

/-- In whatever order the branches are completed, each guard tells what it told at the start. -/
theorem predicate_of_keepsLookups (asks : AsksForFields truth) (guessed : IsGuessed compiled)
    (plain : ∀ n ∈ compiled.keys, IsPlainName n)
    (keeps : KeepsLookups (autoCompleteBlocks compiled states)) {order : List GuardedBlock}
    (perm : order.Perm (autoCompleteBlocks compiled states)) {before after : List GuardedBlock}
    {b : GuardedBlock} (split : order = before ++ b :: after) :
    truth (fieldsAfter truth fields (linesUpTo compiled before)) b.predicate =
      truth fields b.predicate := by
  have listed : ∀ c ∈ order, c ∈ autoCompleteBlocks compiled states := fun c => perm.mem_iff.mp
  have hb : b ∈ order := split ▸ by simp
  obtain ⟨-, n, hn, guess⟩ := predicate_of_mem_autoCompleteBlocks guessed (listed b hb)
  rcases guessExpression_cases n with ⟨k, known⟩ | looks
  · rw [guess, known]
    exact asks.known k _ _
  · rw [guess, looks, Bool.eq_iff_iff, lookup_of_linesUpTo asks guessed
      (fun c hc => listed c (split ▸ List.mem_append_left _ hc)) (plain n hn) looks,
      asks.lookup _ n (plain n hn), decide_eq_true_iff, or_iff_left_iff_imp]
    rintro ⟨first, c, second, rfl, hf, -⟩
    -- the block that sets the field would be the same block, which stands in the list once
    have same := keeps b (listed b hb) n (guess.trans looks) c (listed c (split ▸ by simp)) hf
    have distinct := perm.nodup_iff.mpr (nodup_autoCompleteBlocks compiled states)
    subst same
    rw [split] at distinct
    exact absurd distinct (by simp [List.nodup_append])

/-- If the lookups are kept, the branches that are completed are those whose guards were false at
the start. -/
theorem mem_fieldsAfter_of_keepsLookups (asks : AsksForFields truth) (guessed : IsGuessed compiled)
    (plain : ∀ n ∈ compiled.keys, IsPlainName n)
    (keeps : KeepsLookups (autoCompleteBlocks compiled states)) {order : List GuardedBlock}
    (perm : order.Perm (autoCompleteBlocks compiled states)) {f : String} :
    f ∈ fieldsAfter truth fields (linesUpTo compiled order) ↔
      f ∈ fieldsAfter truth fields (linesUpTo compiled []) ∨
        ∃ b ∈ autoCompleteBlocks compiled states,
          truth fields b.predicate = false ∧ f ∈ b.fields := by
  have negated {b : GuardedBlock} (hb : b ∈ order) : b.negated = true :=
    (predicate_of_mem_autoCompleteBlocks guessed (perm.mem_iff.mp hb)).1
  rw [fieldsAfter_linesUpTo, mem_setThrough, fieldsAfter_linesUpTo]
  refine or_congr Iff.rfl ?_
  simp only [← fieldsAfter_linesUpTo]
  constructor
  · rintro ⟨before, b, after, split, hf, taken⟩
    have hb : b ∈ order := split ▸ by simp
    rw [GuardedBlock.isTaken, negated hb,
      predicate_of_keepsLookups asks guessed plain keeps perm split] at taken
    exact ⟨b, perm.mem_iff.mp hb, by simpa using taken, hf⟩
  · rintro ⟨b, hb, untrue, hf⟩
    have hb := perm.mem_iff.mpr hb
    obtain ⟨before, after, split⟩ := List.append_of_mem hb
    refine ⟨before, b, after, split, hf, ?_⟩
    rw [GuardedBlock.isTaken, negated hb,
      predicate_of_keepsLookups asks guessed plain keeps perm split, untrue]
    rfl

theorem hasOneLineCode_of_guessed {heuristics : List Heuristic} {w : Workflow}
    {steps : List PlacedStep} {target : Target} {r : Resolution}
    (resolved : (resolve heuristics w steps target).outcome = .ok r)
    (guessed : IsGuessed r.compiled) (names : ∀ n ∈ r.compiled.keys, IsOneLine n) :
    HasOneLineCode r.compiled r.states := by
  have name {e : String × Compiled} (he : e ∈ r.compiled.entries) : IsOneLine e.1 :=
    names e.1 (List.mem_map_of_mem he)
  refine ⟨⟨fun e he => name he, fun e he => ?_, fun e he t ht => ?_⟩, fun e he f hf => ?_⟩
  · rw [guessed e he]
    exact isOneLine_guessExpression (name he)
  · rw [(Resolution.resolve_eq_ok resolved).2.states] at he
    obtain ⟨n, -, rfl⟩ := List.mem_map.mp he
    rw [settled_branchOf heuristics steps n] at ht
    obtain ⟨s, -, sets⟩ := mem_tokensOf.mp ht
    exact Step.isOneLine_completionToken sets
  · rw [guessed e he, List.mem_singleton] at hf
    exact hf ▸ name he

end

/-- The lines up to a block that completes a branch are the lines of the class up to it. -/
theorem linesUpTo_prefix (partition : List String) {compiled : Keyed Compiled}
    {states : Keyed (List String)} {before after : List GuardedBlock} {b : GuardedBlock}
    (split : autoCompleteBlocks compiled states = before ++ b :: after) :
    ∃ rest, conditionalLines compiled ++ completionLines partition compiled states =
      linesUpTo compiled before ++ (b.lines ++ rest) := by
  refine ⟨after.flatMap GuardedBlock.lines ++ headedLines
    "Merge completion states across mutually exclusive high school paths"
    (mergeBlocks partition compiled states), ?_⟩
  have headed : autoCompleteLines compiled states = ("    # " ++ completionHeading) ::
      (before.flatMap GuardedBlock.lines ++ (b.lines ++ after.flatMap GuardedBlock.lines)) := by
    rw [autoCompleteLines, headedLines, split, if_neg (by simp), List.flatMap_append,
      List.flatMap_cons]
    rfl
  rw [completionLines, headed, linesUpTo]
  simp only [List.append_assoc, List.cons_append]

/-- Where nothing is declared, a guard that looks a field up tells, when its block is reached, what
was set at the start and what the branches have set that were completed before. If no branch has a
field that the name of another one looks up, then in whatever order the branches are completed each
guard tells what it told at the start, and the same branches are completed. -/
theorem lookupGuard_reached (heuristics : List Heuristic) (partition : List String) (w : Workflow)
    (target : Target) (college : String) (guessed : w.conditions.entries = [])
    (plain : ∀ n ∈ referencedNames heuristics ((Profile.ofTarget target).selectSteps w),
      IsPlainName n ∧ IsOneLine n)
    {truth : List String → String → Bool} (asks : AsksForFields truth) (fields : List String) :
    let p := Profile.ofTarget target
    ∃ r : Resolution, (resolve heuristics w (p.selectSteps w) target).outcome = .ok r ∧
      let lines := conditionalLines r.compiled ++ completionLines partition r.compiled r.states
      let blocks := autoCompleteBlocks r.compiled r.states
      let reached := fun before => fieldsAfter truth fields (linesUpTo r.compiled before)
      (Emitter.emit ⟨.builtIn, heuristics, partition⟩ p w college).result =
          .ok (p.headText college ++ unlines lines ++ tailText) ∧
      linesOf (unlines lines) = lines ++ [""] ∧
      (∀ before b after, blocks = before ++ b :: after →
        ∃ rest, lines = linesUpTo r.compiled before ++ (b.lines ++ rest)) ∧
      (∀ order, order.Perm blocks → ∀ before b after n, order = before ++ b :: after →
        b.predicate = fieldLookup n → (truth (reached before) b.predicate = true ↔
          n ∈ fields ∨ ∃ first c second, before = first ++ c :: second ∧ n ∈ c.fields ∧
            truth (reached first) c.predicate = false)) ∧
      (KeepsLookups blocks → ∀ order, order.Perm blocks →
        (∀ before b after, order = before ++ b :: after →
          truth (reached before) b.predicate = truth fields b.predicate) ∧
        ∀ f, f ∈ reached order ↔ f ∈ reached [] ∨
          ∃ b ∈ blocks, truth fields b.predicate = false ∧ f ∈ b.fields) := by
  intro p
  obtain ⟨r, resolved⟩ : ∃ r, (resolve heuristics w (p.selectSteps w) target).outcome = .ok r :=
    Resolution.exists_resolve_iff.mpr fun n _ => ⟨_, if_pos guessed⟩
  have own : IsGuessed r.compiled := fun e he => compiled_of_guessed resolved guessed he
  have gates := (Resolution.resolve_eq_ok resolved).2.gates
  have names : ∀ n ∈ r.compiled.keys, IsPlainName n := fun n hn => (plain n (gates n hn)).1
  have oneLine : HasOneLineCode r.compiled r.states :=
    hasOneLineCode_of_guessed resolved own fun n hn => (plain n (gates n hn)).2
  refine ⟨r, resolved, ?_, ?_, fun _ _ _ split => linesUpTo_prefix partition split, ?_, ?_⟩
  · rw [result_emit_of_resolved resolved, ← conditionCode_eq_unlines, result_completionCode]
    simp only [p, String.append_assoc]
  · exact linesOf_unlines (isOneLine_conditionLines oneLine partition)
  · intro order perm before b after n split looks
    have listed : ∀ c ∈ order, c ∈ autoCompleteBlocks r.compiled r.states :=
      fun c => perm.mem_iff.mp
    obtain ⟨-, m, hm, guess⟩ := predicate_of_mem_autoCompleteBlocks own
      (listed b (split ▸ by simp))
    obtain rfl := eq_of_guessExpression (guess.symm.trans looks)
    rw [looks]
    exact lookup_of_linesUpTo asks own (fun c hc => listed c (split ▸ List.mem_append_left _ hc))
      (names m hm) (guess.symm.trans looks)
  · intro keeps order perm
    exact ⟨fun before b after split => predicate_of_keepsLookups asks own names keeps perm split,
      fun f => mem_fieldsAfter_of_keepsLookups asks own names keeps perm⟩

/-- Two steps that are gated by names that nothing declares. -/
def consentForm (gate : String) : Workflow where
  conditions := .empty
  steps := [gatedStep "Consent" "early", gatedStep "Form" gate]
  extra := .empty

def consentBlock : GuardedBlock :=
  ⟨autoCompleteRemark "early", true, fieldLookup "early", ["consent_complete"]⟩

def formBlock (gate : String) : GuardedBlock :=
  ⟨autoCompleteRemark gate, true, fieldLookup gate, ["form_complete"]⟩

/-- What the two steps are resolved to. -/
def consentFormResolution (gate : String) (other : gate ≠ "early") : Resolution where
  compiled := ⟨[("early", ⟨fieldLookup "early", ["early"]⟩), (gate, ⟨fieldLookup gate, [gate]⟩)],
    by simpa using other.symm⟩
  states := ⟨[("early", ["consent_complete"]), (gate, ["form_complete"])],
    by simpa using other.symm⟩

theorem blocks_consentFormResolution {gate : String} (other : gate ≠ "early") :
    autoCompleteBlocks (consentFormResolution gate other).compiled
      (consentFormResolution gate other).states = [consentBlock, formBlock gate] := by
  have first : (consentFormResolution gate other).compiled.get? "early" =
      some ⟨fieldLookup "early", ["early"]⟩ :=
    Keyed.get?_eq_some_iff.mpr List.mem_cons_self
  have second : (consentFormResolution gate other).compiled.get? gate =
      some ⟨fieldLookup gate, [gate]⟩ :=
    Keyed.get?_eq_some_iff.mpr (List.mem_cons_of_mem _ List.mem_cons_self)
  have tokens : (consentFormResolution gate other).states.entries =
      [("early", ["consent_complete"]), (gate, ["form_complete"])] := rfl
  rw [autoCompleteBlocks, tokens]
  simp only [List.filterMap_cons, List.filterMap_nil, first, second, List.cons_ne_nil, if_false]
  rfl

theorem resolve_eq_of_entries {w : Workflow} {p : Profile} {r : Resolution}
    (h : ((resolve Heuristic.defaults w (p.selectSteps w) p.target).outcome.map
      fun r => (r.compiled.entries, r.states.entries)).toOption =
        some (r.compiled.entries, r.states.entries)) :
    (resolve Heuristic.defaults w (p.selectSteps w) p.target).outcome = .ok r := by
  obtain ⟨⟨⟨entries, _⟩, ⟨tokens, _⟩⟩, resolved, eq⟩ := exists_ok_of_map h
  obtain ⟨⟨_, _⟩, ⟨_, _⟩⟩ := r
  obtain ⟨rfl, rfl⟩ := Prod.mk.inj eq
  exact resolved

/-- A branch that is completed first sets the field that the name of the next one looks up, so that
one is not completed; in the other order both are. -/
theorem lookupGuard_changes : ∃ r, (resolve Heuristic.defaults (consentForm "consent_complete")
      (Profile.studentTerm.selectSteps (consentForm "consent_complete")) .studentTerm).outcome =
        .ok r ∧
    autoCompleteBlocks r.compiled r.states = [consentBlock, formBlock "consent_complete"] ∧
    let truth := fieldTruth fun _ => false
    let reached := fun before => fieldsAfter truth [] (linesUpTo r.compiled before)
    truth [] (formBlock "consent_complete").predicate = false ∧
      truth (reached [consentBlock]) (formBlock "consent_complete").predicate = true ∧
      "form_complete" ∉ reached [consentBlock, formBlock "consent_complete"] ∧
      "form_complete" ∈ reached [formBlock "consent_complete", consentBlock] := by
  refine ⟨consentFormResolution "consent_complete" (by decide),
    resolve_eq_of_entries (by decide +kernel), blocks_consentFormResolution _, ?_⟩
  simp [fieldsAfter_linesUpTo, conditionalBlocks, consentFormResolution, consentBlock, formBlock,
    setThrough, GuardedBlock.isTaken, fieldTruth, lookedUp?_fieldLookup]

theorem keepsLookups_late : KeepsLookups [consentBlock, formBlock "late"] := by
  intro b hb n looks c hc hf
  have name : n = "early" ∨ n = "late" := by
    rcases List.mem_pair.mp hb with rfl | rfl
    · exact Or.inl (fieldLookup_injective looks).symm
    · exact Or.inr (fieldLookup_injective looks).symm
  have token : n = "consent_complete" ∨ n = "form_complete" := by
    rcases List.mem_pair.mp hc with rfl | rfl
    · exact Or.inl (List.mem_singleton.mp hf)
    · exact Or.inr (List.mem_singleton.mp hf)
  rcases name with rfl | rfl
  · exact absurd token (by decide)
  · exact absurd token (by decide)

/-- With another name for the second gate both branches are completed in either order. -/
theorem lookupGuard_reached_late : ∃ r, (resolve Heuristic.defaults (consentForm "late")
      (Profile.studentTerm.selectSteps (consentForm "late")) .studentTerm).outcome = .ok r ∧
    ∀ order, order.Perm [consentBlock, formBlock "late"] →
      "form_complete" ∈
        fieldsAfter (fieldTruth fun _ => false) [] (linesUpTo r.compiled order) := by
  have plain : ∀ n ∈ referencedNames Heuristic.defaults
      ((Profile.ofTarget .studentTerm).selectSteps (consentForm "late")),
      IsPlainName n ∧ IsOneLine n := by
    have names : referencedNames Heuristic.defaults
        ((Profile.ofTarget .studentTerm).selectSteps (consentForm "late")) = ["early", "late"] := by
      decide +kernel
    rw [names]
    unfold IsPlainName IsOneLine
    decide
  obtain ⟨r, resolved, -, -, -, -, kept⟩ := lookupGuard_reached Heuristic.defaults schoolNames
    (consentForm "late") .studentTerm "acme" rfl plain (asksForFields_fieldTruth fun _ => false) []
  have same : r = consentFormResolution "late" (by decide) := by
    have expected := resolve_eq_of_entries (w := consentForm "late") (p := .studentTerm)
      (r := consentFormResolution "late" (by decide)) (by decide +kernel)
    exact Except.ok.inj (resolved.symm.trans expected)
  rw [same, blocks_consentFormResolution] at kept
  refine ⟨r, resolved, fun order perm => ?_⟩
  rw [same, (kept ?_ order perm).2]
  · refine Or.inr ⟨formBlock "late", by simp, ?_, List.mem_cons_self⟩
    rw [formBlock, fieldTruth, lookedUp?_fieldLookup]
    rfl
  · exact keepsLookups_late

end Gatehouse
