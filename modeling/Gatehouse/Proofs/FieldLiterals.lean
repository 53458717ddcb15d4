import Gatehouse.Proofs.ClassText
import Gatehouse.Proofs.CompletionEffect
import Gatehouse.Proofs.ResolutionDomain
import Gatehouse.Yaml.Scalar

namespace Gatehouse

namespace Literal

/-- Letters that stand for a control character or a blank behind a backslash. -/
def namedEscapes : List (Char × Char) :=
  [('a', '\x07'), ('b', '\x08'), ('t', '\t'), ('n', '\n'), ('v', '\x0b'), ('f', '\x0c'),
    ('r', '\r'), ('e', '\x1b'), ('s', ' ')]

/-- The digits at the front, as many as are allowed at most, and what comes behind them. -/
def leadingDigits (base : Nat) : Nat → List Char → List Nat × List Char
  | 0, cs => ([], cs)
  | _, [] => ([], [])
  | most + 1, c :: rest =>
    match (Yaml.hexValue? c).filter (· < base) with
    | some d =>
      let (digits, after) := leadingDigits base most rest
      (d :: digits, after)
    | none => ([], c :: rest)

def numberOf (base : Nat) (digits : List Nat) : Nat := digits.foldl (fun n d => base * n + d) 0

/-- A byte is a character by itself only if it has seven bits. -/
def byteChar? (n : Nat) : Option Char := if n < 0x80 then some (Char.ofNat n) else none

def pointChar? (n : Nat) : Option Char := if n.isValidChar then some (Char.ofNat n) else none

/-- One character by its number, in digits of which there are at least and at most so many. -/
def numberedChar (char? : Nat → Option Char) (base least most : Nat) (cs : List Char) :
    Option (List Char × List Char) :=
  let (digits, after) := leadingDigits base most cs
  if digits.length < least then none
  else (char? (numberOf base digits)).map fun c => ([c], after)

/-- The character of a key that is pressed together with the control key. -/
def controlChar? (c : Char) : Option Char :=
  if c = '?' then some '\x7f'
  else if c.toNat < 0x80 then some (Char.ofNat (c.toNat % 0x20))
  else none

/-- The code points between braces, up to six digits each, with blanks between them; some digits of
the first one are read. -/
def bracedChars : List Nat → List Char → Option (List Char × List Char)
  | _, [] => none
  | digits, c :: rest =>
    let char : Option (List Char) :=
      if digits = [] then some []
      else if digits.length ≤ 6 then (pointChar? (numberOf 16 digits)).map fun c => [c]
      else none
    if c = '}' then char.map fun cs => (cs, rest)
    else if c = ' ' ∨ c = '\t' then do
      let (more, after) ← bracedChars [] rest
      pure ((← char) ++ more, after)
    else (Yaml.hexValue? c).bind fun d => bracedChars (digits ++ [d]) rest

/-- The characters that an escape stands for, and what comes behind it. -/
def escapeAt : List Char → Option (List Char × List Char)
  | [] => none
  | '\n' :: rest => some ([], rest)
  | 'u' :: '{' :: rest => bracedChars [] rest
  | 'u' :: rest => numberedChar pointChar? 16 4 4 rest
  | 'x' :: rest => numberedChar byteChar? 16 1 2 rest
  | 'c' :: '\\' :: rest | 'C' :: '-' :: '\\' :: rest =>
    match escapeAt rest with
    | some ([c], after) => (controlChar? c).map fun c => ([c], after)
    | _ => none
  | 'c' :: c :: rest | 'C' :: '-' :: c :: rest => (controlChar? c).map fun c => ([c], rest)
  | 'c' :: _ | 'C' :: _ | 'M' :: _ => none
  | c :: rest =>
    if '0' ≤ c ∧ c ≤ '7' then numberedChar byteChar? 8 1 3 (c :: rest)
    else some ([(namedEscapes.lookup c).getD c], rest)

end Literal

/-- Reading from behind a double quote: the characters that the literal stands for, and what comes
behind the quote that ends it. A literal with code in it stands for no characters. -/
inductive ReadsLiteral : List Char → List Char → List Char → Prop where
  | quote (rest : List Char) : ReadsLiteral ('"' :: rest) [] rest
  | plain {c : Char} {cs value rest : List Char} (unquoted : c ≠ '"') (unescaped : c ≠ '\\')
      (uncoded : ¬(c = '#' ∧ cs.head? = some '{')) (more : ReadsLiteral cs value rest) :
      ReadsLiteral (c :: cs) (c :: value) rest
  | escape {cs chars after value rest : List Char}
      (escaped : Literal.escapeAt cs = some (chars, after)) (more : ReadsLiteral after value rest) :
      ReadsLiteral ('\\' :: cs) (chars ++ value) rest

/-- The text holds no quote, no backslash and no mark before code. -/
def IsPlainName (s : String) : Prop :=
  '"' ∉ s.toList ∧ '\\' ∉ s.toList ∧ ¬['#', '{'] <:+: s.toList

namespace Literal

theorem length_leadingDigits (base most : Nat) (cs : List Char) :
    (leadingDigits base most cs).1.length + (leadingDigits base most cs).2.length = cs.length := by
  induction most generalizing cs with
  | zero => simp [leadingDigits]
  | succ most ih =>
    cases cs with
    | nil => rfl
    | cons c rest =>
      rw [leadingDigits]
      split
      next =>
        have := ih rest
        simp only [List.length_cons]
        omega
      next => simp

theorem length_bracedChars {digits : List Nat} {cs chars after : List Char}
    (h : bracedChars digits cs = some (chars, after)) :
    chars.length + after.length ≤ digits.length + cs.length := by
  -- digits that are read make up one character at most
  have one {found : List Char} (digits : List Nat) (h : (if digits = [] then some []
      else if digits.length ≤ 6 then (pointChar? (numberOf 16 digits)).map fun c => [c]
      else none) = some found) : found.length ≤ digits.length := by
    split at h
    next => simp_all
    next some_ =>
      split at h
      next =>
        obtain ⟨c, -, rfl⟩ := Option.map_eq_some_iff.mp h
        exact List.length_pos_iff.mpr some_
      next => cases h
  induction cs generalizing digits chars after with
  | nil => cases h
  | cons c rest ih =>
    simp only [bracedChars] at h
    split at h
    next =>
      obtain ⟨found, hf, eq⟩ := Option.map_eq_some_iff.mp h
      cases eq
      have := one digits hf
      simp only [List.length_cons]
      omega
    next =>
      split at h
      next =>
        obtain ⟨⟨more, later⟩, hm, h⟩ := Option.bind_eq_some_iff.mp h
        obtain ⟨found, hf, eq⟩ := Option.bind_eq_some_iff.mp h
        cases eq
        have := one digits hf
        have := ih hm
        simp only [List.length_append, List.length_cons, List.length_nil] at this ⊢
        omega
      next =>
        obtain ⟨d, -, h⟩ := Option.bind_eq_some_iff.mp h
        have := ih h
        simp only [List.length_append, List.length_cons, List.length_nil] at this ⊢
        omega

theorem length_numberedChar {char? : Nat → Option Char} {base least most : Nat}
    {cs chars after : List Char} (h : numberedChar char? base (least + 1) most cs =
      some (chars, after)) : chars.length + after.length ≤ cs.length := by
  have whole := length_leadingDigits base most cs
  simp only [numberedChar] at h
  split at h
  next => cases h
  next enough =>
    obtain ⟨c, -, eq⟩ := Option.map_eq_some_iff.mp h
    cases eq
    simp only [List.length_singleton]
    omega

theorem of_map_singleton {x : Option Char} {cs chars after : List Char}
    (h : (x.map fun c => ([c], cs)) = some (chars, after)) : chars.length = 1 ∧ after = cs := by
  obtain ⟨c, -, eq⟩ := Option.map_eq_some_iff.mp h
  cases eq
  exact ⟨rfl, rfl⟩

/-- An escape stands for no more characters than stand behind its backslash. -/
theorem length_escapeAt {cs chars after : List Char} (h : escapeAt cs = some (chars, after)) :
    chars.length + after.length ≤ cs.length := by
  fun_induction escapeAt cs generalizing chars after with
  | case1 | case7 | case9 | case12 | case13 | case14 => cases h
  | case2 rest =>
    cases h
    simp
  | case3 rest =>
    have := length_bracedChars h
    simp only [List.length_cons, List.length_nil] at this ⊢
    omega
  | case4 rest =>
    have := length_numberedChar h
    simp only [List.length_cons]
    omega
  | case5 rest =>
    have := length_numberedChar h
    simp only [List.length_cons]
    omega
  | case6 rest c later found ih | case8 rest c later found ih =>
    obtain ⟨one, rfl⟩ := of_map_singleton h
    have := ih found
    simp only [List.length_cons, List.length_nil] at this ⊢
    omega
  | case10 c rest | case11 c rest =>
    obtain ⟨one, rfl⟩ := of_map_singleton h
    simp only [List.length_cons]
    omega
  | case15 c rest => exact length_numberedChar h
  | case16 c rest =>
    cases h
    simp only [List.length_cons, List.length_nil]
    omega

end Literal

namespace ReadsLiteral

variable {cs value rest : List Char}

/-- A literal holds no more characters than are between its quotes. -/
theorem length_le (h : ReadsLiteral cs value rest) : value.length + rest.length + 1 ≤ cs.length := by
  induction h with
  | quote rest => simp
  | plain _ _ _ _ ih =>
    simp only [List.length_cons]
    omega
  | escape escaped _ ih =>
    have := Literal.length_escapeAt escaped
    simp only [List.length_append, List.length_cons]
    omega

/-- A text without marks stands for itself. -/
theorem of_plain {s : List Char} (h : '"' ∉ s ∧ '\\' ∉ s ∧ ¬['#', '{'] <:+: s)
    (rest : List Char) : ReadsLiteral (s ++ '"' :: rest) s rest := by
  induction s with
  | nil => exact .quote rest
  | cons c s ih =>
    obtain ⟨unquoted, unescaped, uncoded⟩ := h
    rw [List.mem_cons, not_or] at unquoted unescaped
    have inner : ¬['#', '{'] <:+: s := fun within =>
      uncoded (within.trans (List.suffix_cons c s).isInfix)
    refine .plain (Ne.symm unquoted.1) (Ne.symm unescaped.1) ?_
      (ih ⟨unquoted.2, unescaped.2, inner⟩)
    rintro ⟨rfl, opens⟩
    cases s with
    | nil => cases opens
    | cons d s =>
      cases opens
      exact uncoded ⟨[], s, rfl⟩

theorem cons_cases {c : Char} (h : ReadsLiteral (c :: cs) value rest) : value = [] ∨
    (c ≠ '"' ∧ c ≠ '\\' ∧ ¬(c = '#' ∧ cs.head? = some '{') ∧
      ∃ more, value = c :: more ∧ ReadsLiteral cs more rest) ∨
    ∃ chars after more, Literal.escapeAt cs = some (chars, after) ∧ value = chars ++ more ∧
      ReadsLiteral after more rest := by
  cases h with
  | quote => exact Or.inl rfl
  | plain unquoted unescaped uncoded more =>
    exact Or.inr (Or.inl ⟨unquoted, unescaped, uncoded, _, rfl, more⟩)
  | escape escaped more => exact Or.inr (Or.inr ⟨_, _, _, escaped, rfl, more⟩)

/-- A text that stands for itself has no marks: a quote would end the literal before, and an escape
stands for less than itself. -/
theorem plain_of_self {s : List Char} (h : ReadsLiteral (s ++ '"' :: rest) s rest) :
    '"' ∉ s ∧ '\\' ∉ s ∧ ¬['#', '{'] <:+: s := by
  induction s with
  | nil => simp
  | cons c s ih =>
    rcases h.cons_cases with empty | ⟨unquoted, unescaped, uncoded, more, eq, read⟩ |
      ⟨chars, after, more, escaped, eq, read⟩
    · cases empty
    · cases eq
      obtain ⟨hq, he, hc⟩ := ih read
      refine ⟨by simp [hq, unquoted.symm], by simp [he, unescaped.symm], ?_⟩
      rw [List.infix_cons_iff, not_or]
      refine ⟨fun opens => ?_, hc⟩
      obtain ⟨rfl, next⟩ := List.cons_prefix_cons.mp opens
      obtain ⟨after, rfl⟩ := next
      exact uncoded ⟨rfl, rfl⟩
    · have inside := Literal.length_escapeAt escaped
      have behind := read.length_le
      have whole := congrArg List.length eq
      simp only [List.append_eq, List.length_append, List.length_cons] at inside whole
      omega

end ReadsLiteral

/-- A field line sets the field of this name. -/
def SetsField (line name : String) : Prop :=
  ∃ source, line.toList = "      fields[\"".toList ++ source ∧
    ReadsLiteral source name.toList "] = true".toList

/-- An expression looks the field of this name up. -/
def LooksUpField (expression name : String) : Prop :=
  ∃ source, expression.toList = "fields[\"".toList ++ source ∧
    ReadsLiteral source name.toList "]".toList

theorem readsLiteral_self_iff (s rest : List Char) : ReadsLiteral (s ++ '"' :: rest) s rest ↔
    '"' ∉ s ∧ '\\' ∉ s ∧ ¬['#', '{'] <:+: s :=
  ⟨ReadsLiteral.plain_of_self, fun h => .of_plain h rest⟩

theorem setsField_setLine_iff {name : String} :
    SetsField (GuardedBlock.setLine name) name ↔ IsPlainName name := by
  have line : (GuardedBlock.setLine name).toList =
      "      fields[\"".toList ++ (name.toList ++ '"' :: "] = true".toList) :=
    GuardedBlock.toList_setLine name
  rw [IsPlainName, ← readsLiteral_self_iff _ "] = true".toList]
  constructor
  · rintro ⟨source, eq, read⟩
    rw [line, List.append_right_inj] at eq
    exact eq ▸ read
  · exact fun read => ⟨_, line, read⟩

theorem looksUpField_fieldLookup_iff {name : String} :
    LooksUpField (fieldLookup name) name ↔ IsPlainName name := by
  have text : (fieldLookup name).toList =
      "fields[\"".toList ++ (name.toList ++ '"' :: "]".toList) := by
    rw [fieldLookup, String.toList_append, String.toList_append, List.append_assoc]
    rfl
  rw [IsPlainName, ← readsLiteral_self_iff _ "]".toList]
  constructor
  · rintro ⟨source, eq, read⟩
    rw [text, List.append_right_inj] at eq
    exact eq ▸ read
  · exact fun read => ⟨_, text, read⟩

theorem Step.isPlainName_completionToken {s : Step} {token : String}
    (h : s.completionToken? = some token) : IsPlainName token := by
  have snake := isSnakeChar_of_completionToken h
  refine ⟨fun m => absurd (snake _ m) (by decide), fun m => absurd (snake _ m) (by decide), ?_⟩
  intro within
  exact absurd (snake '#' (within.subset List.mem_cons_self)) (by decide)

/-- Each text in a field line, and in an expression that is guessed to look up a field, is read as
the name that is meant. -/
structure NamesItsFields (partition : List String) (w : Workflow) (r : Resolution) : Prop where
  conditions : ∀ b ∈ conditionalBlocks r.compiled, ∀ f ∈ b.fields,
    SetsField (GuardedBlock.setLine f) f
  branches : ∀ b ∈ autoCompleteBlocks r.compiled r.states, ∀ f ∈ b.fields,
    SetsField (GuardedBlock.setLine f) f
  paths : ∀ b ∈ mergeBlocks partition r.compiled r.states, ∀ f ∈ b.fields,
    SetsField (GuardedBlock.setLine f) f
  lookups : w.conditions.entries = [] → ∀ e ∈ r.compiled.entries,
    guessExpression e.1 = fieldLookup e.1 → LooksUpField e.2.expression e.1

section

variable {heuristics : List Heuristic} {w : Workflow} {steps : List PlacedStep} {target : Target}
  {r : Resolution}

/-- The fields of a branch hold no marks. -/
theorem isPlainName_of_states (resolved : (resolve heuristics w steps target).outcome = .ok r)
    {n : String} {tokens : List String} (hs : r.states.get? n = some tokens) {t : String}
    (ht : t ∈ tokens) : IsPlainName t := by
  have entry := (Resolution.resolve_eq_ok resolved).2.mem_keys_of_states hs
  rw [Resolution.get?_states resolved, if_pos entry] at hs
  rw [← Option.some.inj hs, settled_branchOf] at ht
  obtain ⟨s, -, sets⟩ := mem_tokensOf.mp ht
  exact Step.isPlainName_completionToken sets

theorem isPlainName_of_autoCompleteBlocks
    (resolved : (resolve heuristics w steps target).outcome = .ok r) {b : GuardedBlock}
    (hb : b ∈ autoCompleteBlocks r.compiled r.states) {f : String} (hf : f ∈ b.fields) :
    IsPlainName f := by
  obtain ⟨n, c, tokens, -, hs, -, rfl⟩ := mem_autoCompleteBlocks.mp hb
  exact isPlainName_of_states resolved hs hf

theorem isPlainName_of_mergeBlocks
    (resolved : (resolve heuristics w steps target).outcome = .ok r) {partition : List String}
    {b : GuardedBlock} (hb : b ∈ mergeBlocks partition r.compiled r.states) {f : String}
    (hf : f ∈ b.fields) : IsPlainName f := by
  obtain ⟨x, -, c, -, -, rfl⟩ := mem_mergeBlocks.mp hb
  obtain ⟨y, -, -, tokens, hs, ht⟩ := mem_otherStates.mp hf
  exact isPlainName_of_states resolved hs ht

theorem fields_of_mem_compiled (resolved : (resolve heuristics w steps target).outcome = .ok r)
    {e : String × Compiled} (he : e ∈ r.compiled.entries) :
    (if e.2.fields = [] then [e.1] else e.2.fields) = e.2.fields := by
  have means := ((Resolution.get?_compiled_iff resolved).mp (Keyed.get?_eq_some_iff.mpr he)).2
  rw [if_neg (Workflow.fields_ne_of_meaning means)]

/-- Where nothing is declared a name sets the field of its own, if what it stands for holds. -/
theorem compiled_of_guessed (resolved : (resolve heuristics w steps target).outcome = .ok r)
    (guessed : w.conditions.entries = []) {e : String × Compiled} (he : e ∈ r.compiled.entries) :
    e.2 = ⟨guessExpression e.1, [e.1]⟩ := by
  have means := ((Resolution.get?_compiled_iff resolved).mp (Keyed.get?_eq_some_iff.mpr he)).2
  rw [Workflow.meaning, if_pos guessed] at means
  exact (Option.some.inj (Except.ok.inj means)).symm

theorem namesItsFields_iff (resolved : (resolve heuristics w steps target).outcome = .ok r)
    (partition : List String) : NamesItsFields partition w r ↔
      ∀ e ∈ r.compiled.entries, ∀ f ∈ e.2.fields, IsPlainName f := by
  constructor
  · intro names e he f hf
    have block := List.mem_map_of_mem he (f := fun e : String × Compiled =>
      (⟨"Condition: " ++ e.1, false, e.2.expression,
        if e.2.fields = [] then [e.1] else e.2.fields⟩ : GuardedBlock))
    refine setsField_setLine_iff.mp (names.conditions _ block f ?_)
    simpa [fields_of_mem_compiled resolved he] using hf
  · intro plain
    constructor
    · intro b hb f hf
      obtain ⟨e, he, rfl⟩ := List.mem_map.mp hb
      simp only [fields_of_mem_compiled resolved he] at hf
      exact setsField_setLine_iff.mpr (plain e he f hf)
    · exact fun b hb f hf =>
        setsField_setLine_iff.mpr (isPlainName_of_autoCompleteBlocks resolved hb hf)
    · exact fun b hb f hf =>
        setsField_setLine_iff.mpr (isPlainName_of_mergeBlocks resolved hb hf)
    · intro guessed e he looks
      have own := compiled_of_guessed resolved guessed he
      rw [own, looks]
      exact looksUpField_fieldLookup_iff.mpr (plain e he e.1 (by simp [own]))

end

/-- The names of fields in a class are read as they are meant if those that the conditions set hold
no double quote, no backslash and no mark before code, and not otherwise; those that the steps set
never hold one. -/
theorem class_namesItsFields_iff (heuristics : List Heuristic) (partition : List String)
    (w : Workflow) (target : Target) (college : String) {r : Resolution}
    (resolved : (resolve heuristics w ((Profile.ofTarget target).selectSteps w) target).outcome =
      .ok r) :
    let p := Profile.ofTarget target
    (Emitter.emit ⟨.builtIn, heuristics, partition⟩ p w college).result =
        .ok (p.headText college
          ++ headedBlocks "Conditional fields based on workflow conditions"
            (conditionalBlocks r.compiled)
          ++ headedBlocks "Set completion states for students who don't meet condition criteria"
            (autoCompleteBlocks r.compiled r.states)
          ++ headedBlocks "Merge completion states across mutually exclusive high school paths"
            (mergeBlocks partition r.compiled r.states) ++ tailText) ∧
      (NamesItsFields partition w r ↔
        ∀ e ∈ r.compiled.entries, ∀ f ∈ e.2.fields, IsPlainName f) ∧
      ∀ b ∈ autoCompleteBlocks r.compiled r.states ++ mergeBlocks partition r.compiled r.states,
        ∀ f ∈ b.fields, SetsField (GuardedBlock.setLine f) f := by
  intro p
  refine ⟨result_emit_of_resolved resolved partition college,
    namesItsFields_iff resolved partition, fun b hb f hf => ?_⟩
  rcases List.mem_append.mp hb with hb | hb
  · exact setsField_setLine_iff.mpr (isPlainName_of_autoCompleteBlocks resolved hb hf)
  · exact setsField_setLine_iff.mpr (isPlainName_of_mergeBlocks resolved hb hf)

/-- A step behind a condition whose name holds quotes. -/
def quotedGate : Workflow where
  conditions := .empty
  steps := [gatedStep "Form" "say \"hi\""]
  extra := .empty

/-- The quotes of a name end its literal, in the line that sets the field and in the expression that
looks it up; the field of the step is named as it is meant. -/
theorem class_namesItsFields_quotedGate :
    let steps := Profile.studentTerm.selectSteps quotedGate
    ∃ r, (resolve Heuristic.defaults quotedGate steps .studentTerm).outcome = .ok r ∧
      r.compiled.entries =
        [("say \"hi\"", ⟨"fields[\"say \"hi\"\"]", ["say \"hi\""]⟩)] ∧
      ¬NamesItsFields schoolNames quotedGate r ∧
      ∃ b ∈ autoCompleteBlocks r.compiled r.states, b.fields = ["form_complete"] ∧
        SetsField (GuardedBlock.setLine "form_complete") "form_complete" := by
  intro steps
  obtain ⟨r, resolved, eq⟩ := exists_ok_of_map
    (f := fun r => (r.compiled.entries, r.states.entries))
    (x := (resolve Heuristic.defaults quotedGate steps .studentTerm).outcome)
    (b := ([("say \"hi\"", ⟨"fields[\"say \"hi\"\"]", ["say \"hi\""]⟩)],
      [("say \"hi\"", ["form_complete"])])) (by decide +kernel)
  obtain ⟨entries, states⟩ := Prod.mk.inj eq
  obtain ⟨-, names, plain⟩ := class_namesItsFields_iff Heuristic.defaults schoolNames quotedGate
    .studentTerm "" resolved
  have block : ⟨"Auto-complete steps for students who don't qualify for say \"hi\"", true,
      "fields[\"say \"hi\"\"]", ["form_complete"]⟩ ∈ autoCompleteBlocks r.compiled r.states := by
    simp [autoCompleteBlocks, states, Keyed.get?, entries]
  refine ⟨r, resolved, entries, ?_, _, block, rfl, ?_⟩
  · rw [names, entries]
    intro all
    exact (all _ List.mem_cons_self _ List.mem_cons_self).1 (by decide)
  · exact plain _ (List.mem_append_left _ block) _ List.mem_cons_self

end Gatehouse
