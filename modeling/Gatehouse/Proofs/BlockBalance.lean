import Gatehouse.Proofs.ClassLines
import Mathlib.Data.List.TakeWhile

namespace Gatehouse

def firstWord (line : String) : String :=
  String.ofList ((line.toList.dropWhile isBlank).takeWhile fun c => !isBlank c)

/-- The words that open a block. -/
def blockWords : List String := ["class", "def", "if", "unless"]

/-- How a line changes the number of open blocks. -/
def blockStep (line : String) : Int :=
  if firstWord line ∈ blockWords then 1 else if trimText line = "end" then -1 else 0

/-- How many blocks are open after the lines. -/
def openBlocks : List String → Int
  | [] => 0
  | line :: rest => blockStep line + openBlocks rest

/-- The first line opens a block that the last line closes, and no line before it. -/
def IsOneBlock (lines : List String) : Prop :=
  ∀ before, before <+: lines →
    0 ≤ openBlocks before ∧ (openBlocks before = 0 ↔ before = [] ∨ before = lines)

/-- The lines close all blocks that they open, and no other. -/
structure IsLevel (lines : List String) : Prop where
  least : ∀ before, before <+: lines → 0 ≤ openBlocks before
  closed : openBlocks lines = 0

theorem openBlocks_append (lines more : List String) :
    openBlocks (lines ++ more) = openBlocks lines + openBlocks more := by
  induction lines with
  | nil => exact (Int.zero_add _).symm
  | cons line rest ih => rw [List.cons_append, openBlocks, openBlocks, ih, Int.add_assoc]

theorem openBlocks_cons (line : String) (rest : List String) :
    openBlocks (line :: rest) = blockStep line + openBlocks rest := rfl

/-- Lines from the start of two pieces are from the first one, or go on into the second. -/
theorem prefix_append_cases {before lines more : List String} (h : before <+: lines ++ more) :
    before <+: lines ∨ ∃ rest, rest <+: more ∧ before = lines ++ rest := by
  obtain ⟨after, eq⟩ := h
  rcases List.append_eq_append_iff.mp eq with ⟨rest, hl, -⟩ | ⟨rest, hb, hm⟩
  · exact Or.inl ⟨rest, hl.symm⟩
  · exact Or.inr ⟨rest, ⟨after, hm.symm⟩, hb⟩

namespace IsLevel

variable {lines more : List String}

theorem append (h : IsLevel lines) (hm : IsLevel more) : IsLevel (lines ++ more) where
  least before hb := by
    rcases prefix_append_cases hb with hb | ⟨rest, hr, rfl⟩
    · exact h.least before hb
    · have := hm.least rest hr
      rw [openBlocks_append, h.closed]
      omega
  closed := by rw [openBlocks_append, h.closed, hm.closed]; rfl

theorem flatMap {α : Type} {pieces : List α} {f : α → List String}
    (h : ∀ x ∈ pieces, IsLevel (f x)) : IsLevel (pieces.flatMap f) := by
  induction pieces with
  | nil => exact ⟨fun before hb => by rw [List.prefix_nil.mp hb]; decide, rfl⟩
  | cons x rest ih =>
    exact (h x List.mem_cons_self).append (ih fun y hy => h y (List.mem_cons_of_mem _ hy))

theorem of_idle (idle : ∀ line ∈ lines, blockStep line = 0) : IsLevel lines := by
  have sum (before : List String) (h : ∀ line ∈ before, blockStep line = 0) :
      openBlocks before = 0 := by
    induction before with
    | nil => rfl
    | cons line rest ih =>
      rw [openBlocks_cons, h line List.mem_cons_self,
        ih fun l hl => h l (List.mem_cons_of_mem _ hl)]
      rfl
  refine ⟨fun before hb => ?_, sum lines idle⟩
  exact Int.le_of_eq (sum before fun l hl => idle l (hb.subset hl)).symm

/-- Lines between the start and the end of a block are inside it. -/
theorem isOneBlock (h : IsLevel lines) {first last : String} (opens : blockStep first = 1)
    (closes : blockStep last = -1) : IsOneBlock (first :: lines ++ [last]) := by
  intro before hb
  rcases List.prefix_cons_iff.mp hb with rfl | ⟨inner, rfl, hi⟩
  · simp [openBlocks]
  · rw [openBlocks_cons, opens]
    rcases prefix_append_cases hi with hi | ⟨rest, hr, rfl⟩
    · have least := h.least inner hi
      have short : inner ≠ lines ++ [last] := by
        rintro rfl
        have := hi.length_le
        rw [List.length_append, List.length_singleton] at this
        omega
      refine ⟨by omega, fun zero => by omega, ?_⟩
      rintro (eq | eq)
      · cases eq
      · exact absurd (List.cons.inj eq).2 short
    · rcases List.prefix_cons_iff.mp hr with rfl | ⟨none, rfl, hn⟩
      · rw [List.append_nil, h.closed]
        simp
      · rw [List.prefix_nil.mp hn, openBlocks_append, openBlocks_cons, h.closed, closes]
        simp [openBlocks]

theorem enclose (h : IsLevel lines) {first last : String} (opens : blockStep first = 1)
    (closes : blockStep last = -1) : IsLevel (first :: lines ++ [last]) where
  least before hb := (h.isOneBlock opens closes before hb).1
  closed := ((h.isOneBlock opens closes _ (List.prefix_refl _)).2).mpr (Or.inr rfl)

end IsLevel

/-- A line is trimmed to one word only if it starts with this word. -/
theorem firstWord_of_trimText {line : String} (h : trimText line = "end") :
    firstWord line = "end" := by
  have trimmed : trimEndChars (line.toList.dropWhile isBlank) = "end".toList := by
    rw [← String.toList_ofList (l := trimEndChars _)]
    exact congrArg String.toList h
  rw [firstWord]
  generalize line.toList.dropWhile isBlank = cs at trimmed
  have split : cs = "end".toList ++ (cs.reverse.takeWhile isBlank).reverse := by
    rw [← trimmed, trimEndChars, ← List.reverse_append, List.takeWhile_append_dropWhile,
      List.reverse_reverse]
  have blank : ∀ c ∈ (cs.reverse.takeWhile isBlank).reverse, isBlank c = true := fun c hc =>
    List.mem_takeWhile_imp (List.mem_reverse.mp hc)
  generalize (cs.reverse.takeWhile isBlank).reverse = blanks at split blank
  rw [split, List.takeWhile_append_of_pos (List.all_eq_true.mp (by decide))]
  cases blanks with
  | nil => rfl
  | cons c rest => rw [List.takeWhile_cons_of_neg (by simp [blank c List.mem_cons_self])]; rfl

/-- Lines that start with another letter than these words do not open or close a block. -/
theorem blockStep_of_head {line : String} {c : Char}
    (head : (line.toList.dropWhile isBlank).head? = some c)
    (other : c ∉ ['c', 'd', 'i', 'u', 'e']) : blockStep line = 0 := by
  have inked : isBlank c = false := by
    simpa [head] using List.head?_dropWhile_not isBlank line.toList
  have first : (firstWord line).toList.head? = some c := by
    obtain ⟨rest, eq⟩ := List.head?_eq_some_iff.mp head
    rw [firstWord, String.toList_ofList, eq, List.takeWhile_cons_of_pos (by simp [inked])]
    rfl
  have notWord : ∀ word ∈ "end" :: blockWords, firstWord line ≠ word := by
    rintro word hword rfl
    have heads : ∀ word ∈ "end" :: blockWords, ∀ c, word.toList.head? = some c →
        c ∈ ['c', 'd', 'i', 'u', 'e'] := by
      simp [blockWords]
    exact other (heads _ hword c first)
  rw [blockStep, if_neg fun h => notWord _ (List.mem_cons_of_mem _ h) rfl,
    if_neg fun h => notWord _ List.mem_cons_self (firstWord_of_trimText h)]

theorem blockStep_chars {cs : List Char} {c : Char} (head : (cs.dropWhile isBlank).head? = some c)
    (other : c ∉ ['c', 'd', 'i', 'u', 'e']) : blockStep (String.ofList cs) = 0 :=
  blockStep_of_head (by rwa [String.toList_ofList]) other

theorem blockStep_remark (s : String) : blockStep ("    # " ++ s) = 0 :=
  blockStep_of_head (c := '#')
    (by simp [show isBlank ' ' = true by decide, show isBlank '#' = false by decide]) (by decide)

theorem blockStep_setLine (field : String) : blockStep (GuardedBlock.setLine field) = 0 :=
  blockStep_of_head (c := 'f') (by rw [GuardedBlock.toList_setLine]; rfl) (by decide)

/-- The first word of a line does not depend on what follows it. -/
theorem firstWord_spaced {indent word : String} (blank : indent.toList.all isBlank = true)
    (inked : word.toList.any isBlank = false) (some : word ≠ "") (rest : String) :
    firstWord (indent ++ word ++ " " ++ rest) = word := by
  rw [List.all_eq_true] at blank
  rw [List.any_eq_false] at inked
  have chars : (indent ++ word ++ " " ++ rest).toList.dropWhile isBlank =
      word.toList ++ ' ' :: rest.toList := by
    have start : (word.toList ++ ' ' :: rest.toList).dropWhile isBlank =
        word.toList ++ ' ' :: rest.toList := by
      cases h : word.toList with
      | nil => exact absurd (String.toList_eq_nil_iff.mp h) some
      | cons c cs => exact List.dropWhile_cons_of_neg (by simp [inked c (by simp [h])])
    simp only [String.toList_append, List.append_assoc]
    rw [List.dropWhile_append_of_pos blank]
    exact start
  rw [firstWord, chars, List.takeWhile_append_of_pos fun c hc => by simp [inked c hc],
    List.takeWhile_cons_of_neg (by decide), List.append_nil, String.ofList_toList]

theorem blockStep_opens {line : String} (h : firstWord line ∈ blockWords) : blockStep line = 1 :=
  if_pos h

theorem blockStep_idle {line : String} (h : firstWord line ∉ "end" :: blockWords) :
    blockStep line = 0 := by
  rw [List.mem_cons, not_or] at h
  rw [blockStep, if_neg h.2, if_neg fun trimmed => h.1 (firstWord_of_trimText trimmed)]

theorem blockStep_spaced {word : String} (inked : word.toList.any isBlank = false)
    (some : word ≠ "") (other : word ∉ "end" :: blockWords) (rest : String) :
    blockStep ("    " ++ word ++ " " ++ rest) = 0 := by
  refine blockStep_idle ?_
  rwa [firstWord_spaced (by decide) inked some]

theorem blockStep_blank : blockStep "" = 0 := blockStep_idle (by decide)

theorem blockStep_else : blockStep "    else" = 0 := blockStep_idle (by decide)

theorem blockStep_guard (b : GuardedBlock) :
    blockStep ("    " ++ b.guardWord ++ " " ++ b.predicate) = 1 := by
  have word : b.guardWord = "unless" ∨ b.guardWord = "if" := by
    rw [GuardedBlock.guardWord]
    split
    next => exact Or.inl rfl
    next => exact Or.inr rfl
  refine blockStep_opens ?_
  rcases word with eq | eq
  · rw [eq, firstWord_spaced (by decide) (by decide) (by decide)]
    decide
  · rw [eq, firstWord_spaced (by decide) (by decide) (by decide)]
    decide

theorem blockStep_if (e : String) : blockStep ("    if " ++ e) = 1 := by
  refine blockStep_opens ?_
  rw [show "    if " = "    " ++ "if" ++ " " by decide,
    firstWord_spaced (by decide) (by decide) (by decide)]
  decide

theorem blockStep_elsif (e : String) : blockStep ("    elsif " ++ e) = 0 := by
  rw [show "    elsif " = "    " ++ "elsif" ++ " " by decide]
  exact blockStep_spaced (by decide) (by decide) (by decide) e

theorem Profile.blockStep_classLine (p : Profile) (college : String) :
    blockStep (p.classLine college) = 1 := by
  refine blockStep_opens ?_
  rw [Profile.classLine, show "class " = "" ++ "class" ++ " " by decide, String.append_assoc,
    firstWord_spaced (by decide) (by decide) (by decide)]
  decide

theorem idle_remark (s : String) : ∀ line ∈ ["    # " ++ s], blockStep line = 0 := by
  simp [blockStep_remark]

/-- The lines from a guard to its end are a block, and so are those around them. -/
theorem isLevel_guarded {before inner : List String} {first : String}
    (hb : ∀ line ∈ before, blockStep line = 0) (opens : blockStep first = 1)
    (hi : ∀ line ∈ inner, blockStep line = 0) :
    IsLevel (before ++ first :: inner ++ ["    end", ""]) := by
  have inside := (IsLevel.of_idle hi).enclose opens (by decide : blockStep "    end" = -1)
  have blank : IsLevel [""] := .of_idle (by decide)
  simpa using ((IsLevel.of_idle hb).append inside).append blank

theorem idle_setLines (fields : List String) :
    ∀ line ∈ fields.map GuardedBlock.setLine, blockStep line = 0 := by
  intro line hline
  obtain ⟨f, -, rfl⟩ := List.mem_map.mp hline
  exact blockStep_setLine f

theorem GuardedBlock.isLevel_lines (b : GuardedBlock) : IsLevel b.lines :=
  isLevel_guarded (idle_remark b.remark) (blockStep_guard b) (idle_setLines b.fields)

theorem isLevel_headedLines (heading : String) (blocks : List GuardedBlock) :
    IsLevel (headedLines heading blocks) := by
  unfold headedLines
  split
  next => exact .of_idle (by simp)
  next =>
    exact (IsLevel.of_idle (idle_remark heading)).append (.flatMap fun b _ => b.isLevel_lines)

theorem FieldGuard.isLevel_lines (g : FieldGuard) : IsLevel g.lines := by
  rw [FieldGuard.lines]
  refine isLevel_guarded (idle_remark g.remark) (blockStep_if _)
    (?_ : ∀ line ∈ GuardedBlock.setLine g.field :: _, blockStep line = 0)
  rw [List.forall_mem_cons]
  refine ⟨blockStep_setLine _, ?_⟩
  split
  next field _ =>
    split
    next => simp
    next =>
      have other : blockStep "    else" = 0 := by decide
      simp [other, blockStep_setLine]
  next => simp

namespace Profile

theorem idle_bindingLines (p : Profile) : ∀ line ∈ p.bindingLines, blockStep line = 0 := by
  have binding (e : Entity) :
      blockStep ("    " ++ e.accessor ++ " = target_object." ++ e.accessor) = 0 := by
    have words : "    " ++ e.accessor ++ " = target_object." ++ e.accessor =
        "    " ++ e.accessor ++ " " ++ ("= target_object." ++ e.accessor) := by
      rw [show " = target_object." = " " ++ "= target_object." by decide]
      simp only [String.append_assoc]
    rw [words]
    cases e <;> exact blockStep_spaced (by decide) (by decide) (by decide) _
  have field (f : String) : blockStep ("    fields[\"" ++ f ++ "\"] = true") = 0 := by
    refine blockStep_of_head (c := 'f') ?_ (by decide)
    rw [String.toList_append, String.toList_append]
    rfl
  exact forall_bindingLines binding blockStep_blank (blockStep_chars (c := '#') rfl (by decide))
    (fun f _ => field f) (blockStep_remark p.heading)

/-- Before the choice between the kinds of school there are remarks and variables only. -/
theorem isLevel_schoolLines (p : Profile) : IsLevel p.schoolLines := by
  have home : blockStep ("    is_home_school = " ++ homeSchoolPredicate) = 0 := by
    rw [show "    is_home_school = " = "    " ++ "is_home_school" ++ " " ++ "= " by decide,
      String.append_assoc]
    exact blockStep_spaced (by decide) (by decide) (by decide) _
  have nonPartner : blockStep ("    is_non_partner = " ++ nonPartnerPredicate) = 0 := by
    rw [show "    is_non_partner = " = "    " ++ "is_non_partner" ++ " " ++ "= " by decide,
      String.append_assoc]
    exact blockStep_spaced (by decide) (by decide) (by decide) _
  have parts (path : String) : ∀ line ∈ p.homeSchoolFields.map GuardedBlock.setLine
      ++ ["    elsif " ++ path] ++ p.nonPartnerFields.map GuardedBlock.setLine ++ ["    else"]
      ++ p.partnerFields.map GuardedBlock.setLine, blockStep line = 0 := by
    simp only [List.forall_mem_append, List.forall_mem_singleton]
    exact ⟨⟨⟨⟨idle_setLines _, blockStep_elsif _⟩, idle_setLines _⟩, blockStep_else⟩,
      idle_setLines _⟩
  cases h : p.asksInPlace with
  | true =>
    have before : ∀ line ∈ ["    # Set high school type"], blockStep line = 0 := by
      rw [List.forall_mem_singleton]
      exact blockStep_chars (c := '#') rfl (by decide)
    have level := isLevel_guarded before (blockStep_if homeSchoolPredicate)
      (parts nonPartnerPredicate)
    simp only [schoolLines, h, if_true]
    simpa only [List.append_assoc, List.cons_append, List.nil_append] using level
  | false =>
    have before : ∀ line ∈ [
        "    # Home school, non-partner and partner high school paths are mutually exclusive",
        "    is_home_school = " ++ homeSchoolPredicate,
        "    is_non_partner = " ++ nonPartnerPredicate, ""], blockStep line = 0 := by
      simp only [List.forall_mem_cons, List.not_mem_nil, false_implies, implies_true, and_true]
      exact ⟨blockStep_chars (c := '#') rfl (by decide), home, nonPartner, blockStep_blank⟩
    have opens : blockStep "    if is_home_school" = 1 := by
      rw [show "    if is_home_school" = "    if " ++ "is_home_school" by decide]
      exact blockStep_if _
    have level := isLevel_guarded before opens (parts "is_non_partner")
    simp only [schoolLines, h, Bool.false_eq_true, if_false]
    simpa only [List.append_assoc, List.cons_append, List.nil_append] using level

/-- What a workflow puts into a class opens and closes its own blocks only, and so does the method
around it. -/
theorem isLevel_activationLines (p : Profile) {filled : List String} (h : IsLevel filled) :
    IsLevel (p.activationLines filled) := by
  have guards (gs : List FieldGuard) : IsLevel (gs.flatMap FieldGuard.lines) :=
    .flatMap fun g _ => g.isLevel_lines
  have record : ∀ line ∈ recordLines, blockStep line = 0 := by
    simp only [recordLines, List.forall_mem_cons, List.not_mem_nil, false_implies, implies_true,
      and_true]
    exact ⟨blockStep_chars (c := 'f') rfl (by decide), blockStep_chars (c := 'a') rfl (by decide),
      blockStep_chars (c := 't') rfl (by decide)⟩
  have complete : ∀ line ∈ completeLines, blockStep line = 0 := by
    simp only [completeLines, List.forall_mem_cons, List.not_mem_nil, false_implies, implies_true,
      and_true]
    exact ⟨blockStep_chars (c := '#') rfl (by decide), blockStep_chars (c := 'f') rfl (by decide),
      blockStep_chars (c := 'f') rfl (by decide), blockStep_blank, blockStep_blank,
      blockStep_chars (c := '#') rfl (by decide), blockStep_chars (c := 'f') rfl (by decide),
      blockStep_chars (c := 'f') rfl (by decide), blockStep_chars (c := 'r') rfl (by decide)⟩
  have bindings : IsLevel (recordLines ++ p.bindingLines) :=
    (IsLevel.of_idle record).append (.of_idle p.idle_bindingLines)
  exact ((((bindings.append (guards _)).append p.isLevel_schoolLines).append (guards _)).append
    h).append (.of_idle complete)

theorem isOneBlock_classLines (p : Profile) (college : String) {filled : List String}
    (h : IsLevel filled) : IsOneBlock (p.openLines college filled ++ ["end"]) := by
  have blank : IsLevel [""] := .of_idle (by simp [blockStep_blank])
  have methods : IsLevel fieldMethodLines := by
    have method (head answer : String) (opens : blockStep head = 1) (idle : blockStep answer = 0) :
        IsLevel ["", head, answer, "  end"] := by
      have inside : IsLevel [answer] := .of_idle (by simp [idle])
      exact blank.append (inside.enclose opens (by decide))
    have required := method "  def self.required_fields"
      "    return [\"active_flow_step_id\"]" (by decide)
      (blockStep_chars (c := 'r') rfl (by decide))
    have provided := method "  def self.provided_fields(*args)"
      "    return [\"initialization_complete\"]" (by decide)
      (blockStep_chars (c := 'r') rfl (by decide))
    exact (required.append provided).append blank
  have activation := (p.isLevel_activationLines h).enclose
    (by decide : blockStep "  def self.on_activate(*args)" = 1) (by decide : blockStep "  end" = -1)
  exact ((methods.append activation).append blank).isOneBlock (p.blockStep_classLine college)
    (by decide)

end Profile

/-- A class is one block, and so are its methods and guards: no line closes a block that is not
open, and only the last line closes the class. -/
theorem isOneBlock_emit {heuristics : List Heuristic} {partition : List String} {t : Target}
    {w : Workflow} {college code : String} (hw : w.HasOneLineTexts)
    (hh : ∀ h ∈ heuristics, IsOneLine h.condition) (hc : IsOneLine college)
    (emitted : (Emitter.emit ⟨.builtIn, heuristics, partition⟩ (.ofTarget t) w college).result =
      .ok code) : IsOneBlock (linesOf code) := by
  obtain ⟨r, -, lines⟩ := linesOf_emit hw hh hc emitted
  rw [lines]
  exact (Profile.ofTarget t).isOneBlock_classLines college
    ((isLevel_headedLines _ _).append ((isLevel_headedLines _ _).append (isLevel_headedLines _ _)))

/-- Steps whose titles run over lines, the second one a word of the code. -/
def brokenTitles : Workflow where
  conditions := .ofList [("minor", ⟨"minor", some "Student", some "age", none, some "greater_than",
    .text "end", ["minor", "if minor"], .empty⟩)]
  steps := [gatedStep "Roster\nend" "minor",
    { gatedStep "home school\nclass" "" with conditional := false, workflowCondition := none }]
  extra := .empty

/-- A title may run over lines and say what a line of code says. -/
theorem isOneBlock_emit_brokenTitle :
    let filled := [
      "    # Conditional fields based on workflow conditions",
      "    # Condition: minor",
      "    if student.is_minor?",
      "      fields[\"minor\"] = true",
      "      fields[\"if minor\"] = true",
      "    end",
      "",
      "    # Condition: home_school",
      "    if student.high_school.is_home_school?",
      "      fields[\"home_school\"] = true",
      "    end",
      "",
      "    # Set completion states for students who don't meet condition criteria",
      "    # Auto-complete steps for students who don't qualify for minor",
      "    unless student.is_minor?",
      "      fields[\"roster_end_complete\"] = true",
      "    end",
      "",
      "    # Auto-complete steps for students who don't qualify for home_school",
      "    unless student.high_school.is_home_school?",
      "      fields[\"home_school_class_complete\"] = true",
      "    end",
      ""]
    ∃ code, (Emitter.standard.emit (.ofTarget .studentTerm) brokenTitles "acme").result =
        .ok code ∧
      linesOf code = Profile.studentTerm.openLines "acme" filled ++ ["end"] ∧
      IsOneBlock (linesOf code) := by
  intro filled
  have texts : brokenTitles.HasOneLineTexts := by
    refine ⟨by decide, fun e he => ?_, by decide⟩
    rw [List.mem_singleton.mp he]
    exact ⟨by simp [IsOneLine], by simp [IsOneLine], by simp, by simp [IsOneLine], by decide⟩
  obtain ⟨r, resolved, eq⟩ := exists_ok_of_map (b := filled)
    (f := fun r => conditionalLines r.compiled ++ completionLines schoolNames r.compiled r.states)
    (x := (resolve Heuristic.defaults brokenTitles
      ((Profile.ofTarget .studentTerm).selectSteps brokenTitles) .studentTerm).outcome)
    (by decide +kernel)
  have emits : ∃ code, (Emitter.standard.emit (.ofTarget .studentTerm) brokenTitles "acme").result =
      .ok code := ⟨_, result_emit_of_resolved resolved schoolNames "acme"⟩
  obtain ⟨code, emitted⟩ := emits
  obtain ⟨s, again, lines⟩ := linesOf_emit texts (by decide) (by decide) emitted
  have same : s = r := Except.ok.inj (again.symm.trans resolved)
  rw [same, eq] at lines
  exact ⟨code, emitted, lines, isOneBlock_emit texts (by decide) (by decide) emitted⟩

end Gatehouse
