import Gatehouse.Workflow.Loading

namespace Gatehouse

namespace Workflow

/-- The conditions are given as something true that has no entries, of the kind. -/
def HasShapelessConditions (entries : List (Value × Value)) (kind : String) : Prop :=
  ∃ v, Value.field? "conditions" entries = some v ∧ v.isTrue = true ∧ v.entries? = none ∧
    v.qualifiedKind = kind

theorem conditionEntries?_eq_error_iff {entries : List (Value × Value)} {fault : WorkflowFault} :
    conditionEntries? entries = .error fault ↔
      ∃ kind, HasShapelessConditions entries kind ∧ fault = .conditionsKind kind := by
  constructor
  · intro refused
    unfold conditionEntries? at refused
    simp only at refused
    split at refused
    next true_ =>
      split at refused
      next => cases refused
      next shapeless =>
        cases given : Value.field? "conditions" entries with
        | none =>
          rw [given] at true_
          cases true_
        | some v =>
          rw [given] at true_ shapeless refused
          exact ⟨_, ⟨v, given, true_, shapeless, rfl⟩, (Except.error.inj refused).symm⟩
    next => cases refused
  · rintro ⟨_, ⟨v, given, true_, shapeless, rfl⟩, rfl⟩
    simp [conditionEntries?, given, true_, shapeless]

/-- Only conditions without entries keep the parts of a workflow from being checked. -/
theorem ofEntries_eq_conditionsKind_iff {entries : List (Value × Value)} {kind : String} :
    ofEntries entries = .error (.conditionsKind kind) ↔ HasShapelessConditions entries kind := by
  unfold ofEntries
  cases h : conditionEntries? entries with
  | error fault =>
    obtain ⟨other, shapeless, rfl⟩ := conditionEntries?_eq_error_iff.mp h
    constructor
    · intro refused
      cases refused
      exact shapeless
    · rintro ⟨v, given, true_, none, rfl⟩
      obtain ⟨u, given', -, -, rfl⟩ := shapeless
      cases Option.some.inj (given.symm.trans given')
      rfl
  | ok conditions =>
    constructor
    · intro refused
      simp only [bind, Except.bind] at refused
      split at refused
      next => cases refused
      next => cases refused
    · intro shapeless
      have refused := conditionEntries?_eq_error_iff.mpr ⟨kind, shapeless, rfl⟩
      rw [h] at refused
      cases refused

theorem ofValue_map (entries : List (Value × Value)) :
    ofValue (.map entries) = ofEntries entries := by
  cases entries with
  | nil => rfl
  | cons e rest => rfl

/-- Reading a text breaks off: its values cannot be made, for another reason than a broken rule, or
its conditions have no entries. -/
inductive BreaksOff [Yaml.SetOrder] (text : String) : LoadFault → Prop
  | values {fault : Yaml.Fault} (failed : Yaml.load text = .error fault)
      (other : fault ≠ .malformed) : BreaksOff text (.text fault)
  | conditions {document : Value} {entries : List (Value × Value)} {kind : String}
      (read : Yaml.load text = .ok document) (map : document.opened = .map entries)
      (shapeless : HasShapelessConditions entries kind) :
      BreaksOff text (.workflow (.conditionsKind kind))

/-- What reading the entries ends with, if nothing is told of it. -/
theorem silent_of_mapError {entries : List (Value × Value)} {f : LoadFault}
    (failed : (ofValue (.map entries)).mapError LoadFault.workflow = .error f)
    (silent : f.message? = none) :
    ∃ kind, HasShapelessConditions entries kind ∧ f = .workflow (.conditionsKind kind) := by
  rw [ofValue_map] at failed
  cases h : ofEntries entries with
  | ok w =>
    rw [h] at failed
    cases failed
  | error fault =>
    rw [h] at failed
    cases Except.error.inj failed
    cases fault with
    | issues list => cases silent
    | conditionsKind kind => exact ⟨kind, ofEntries_eq_conditionsKind_iff.mp h, rfl⟩

theorem ofDocument_of_entries {document : Value} {entries : List (Value × Value)}
    (found : documentEntries document = .ok entries) :
    ofDocument document = (ofValue (.map entries)).mapError LoadFault.workflow := by
  rw [ofDocument, found]
  rfl

theorem message_of_documentEntries {document : Value} {f : LoadFault}
    (refused : documentEntries document = .error f) : f.message? ≠ none := by
  unfold documentEntries at refused
  split at refused
  next => cases refused
  next => cases refused
  next => cases refused
  next =>
    cases Except.error.inj refused
    nofun

/-- A list is all steps; only a map can have conditions. -/
theorem opened_of_shapeless {document : Value} {entries : List (Value × Value)} {kind : String}
    (found : documentEntries document = .ok entries)
    (shapeless : HasShapelessConditions entries kind) : document.opened = .map entries := by
  obtain ⟨v, given, -⟩ := shapeless
  unfold documentEntries at found
  split at found
  next =>
    cases Except.ok.inj found
    cases given
  next =>
    cases Except.ok.inj found
    simp [Value.field?] at given
  next map =>
    cases Except.ok.inj found
    exact map
  next => cases found

/-- Of a document only the conditions of a map end the reading without a message. -/
theorem ofDocument_silent_iff {document : Value} {f : LoadFault} :
    ofDocument document = .error f ∧ f.message? = none ↔
      ∃ entries kind, document.opened = .map entries ∧ HasShapelessConditions entries kind ∧
        f = .workflow (.conditionsKind kind) := by
  constructor
  · rintro ⟨failed, silent⟩
    cases found : documentEntries document with
    | error fault =>
      rw [ofDocument, found] at failed
      cases Except.error.inj failed
      exact absurd silent (message_of_documentEntries found)
    | ok entries =>
      rw [ofDocument_of_entries found] at failed
      obtain ⟨kind, shapeless, rfl⟩ := silent_of_mapError failed silent
      exact ⟨entries, kind, opened_of_shapeless found shapeless, shapeless, rfl⟩
  · rintro ⟨entries, kind, map, shapeless, rfl⟩
    have found : documentEntries document = .ok entries := by rw [documentEntries, map]
    refine ⟨?_, rfl⟩
    rw [ofDocument_of_entries found, ofValue_map, ofEntries_eq_conditionsKind_iff.mpr shapeless]
    rfl

theorem ofText_of_unread [Yaml.SetOrder] {text : String} {fault : Yaml.Fault}
    (failed : Yaml.load text = .error fault) : ofText text = .error (.text fault) := by
  rw [ofText, failed]
  rfl

theorem ofText_of_read [Yaml.SetOrder] {text : String} {document : Value}
    (read : Yaml.load text = .ok document) : ofText text = ofDocument document := by
  rw [ofText, read]
  rfl

theorem ofText_silent_iff [Yaml.SetOrder] {text : String} {f : LoadFault} :
    ofText text = .error f ∧ f.message? = none ↔ BreaksOff text f := by
  constructor
  · rintro ⟨failed, silent⟩
    cases read : Yaml.load text with
    | error fault =>
      rw [ofText_of_unread read] at failed
      cases Except.error.inj failed
      refine .values read ?_
      rintro rfl
      cases silent
    | ok document =>
      rw [ofText_of_read read] at failed
      obtain ⟨entries, kind, map, shapeless, rfl⟩ := ofDocument_silent_iff.mp ⟨failed, silent⟩
      exact .conditions read map shapeless
  · intro breaks
    cases breaks with
    | @values fault failed other =>
      refine ⟨ofText_of_unread failed, ?_⟩
      cases fault with
      | malformed => exact absurd rfl other
      | _ => rfl
    | conditions read map shapeless =>
      rw [ofText_of_read read]
      exact ofDocument_silent_iff.mpr ⟨_, _, map, shapeless, rfl⟩

@[simp] theorem result_loaded (r : Except LoadFault Workflow) : (loaded r).result = r := by
  cases r with
  | error f => rfl
  | ok w => rfl

/-- Reading a file breaks off: the path cannot be asked for, the content is no Unicode text, or
reading its text breaks off. -/
inductive FileBreaksOff [Yaml.SetOrder] (t : FileTree) (p : Pathname) : LoadFault → Prop
  | path {fault : FileFault} (failed : t.read p = .error fault)
      (numberless : fault.number? = none) : FileBreaksOff t p (.unreadable ⟨fault, p⟩)
  | encoding {content : ByteArray} (read : t.read p = .ok content)
      (broken : decodeText? content = none) : FileBreaksOff t p .notUnicode
  | text {content : ByteArray} {text : String} {f : LoadFault} (read : t.read p = .ok content)
      (decoded : decodeText? content = some text)
      (breaks : BreaksOff (String.ofList (normalizeNewlines text.toList)) f) :
      FileBreaksOff t p f

section

variable {t : FileTree} {p : Pathname}

theorem loadFile_of_unread [Yaml.SetOrder] {fault : FileFault} (failed : t.read p = .error fault) :
    (loadFile t p).result = .error (.unreadable ⟨fault, p⟩) := by
  rw [loadFile, result_loaded, failed]
  rfl

theorem loadFile_of_undecoded [Yaml.SetOrder] {content : ByteArray} (read : t.read p = .ok content)
    (broken : decodeText? content = none) : (loadFile t p).result = .error .notUnicode := by
  have text : textOf content = .error .notUnicode := by rw [textOf, broken]
  rw [loadFile, result_loaded, read]
  change textOf content >>= ofText = _
  rw [text]
  rfl

theorem loadFile_of_decoded [Yaml.SetOrder] {content : ByteArray} {text : String}
    (read : t.read p = .ok content) (decoded : decodeText? content = some text) :
    (loadFile t p).result = ofText (String.ofList (normalizeNewlines text.toList)) := by
  have text : textOf content = .ok (String.ofList (normalizeNewlines text.toList)) := by
    rw [textOf, decoded]
  rw [loadFile, result_loaded, read]
  change textOf content >>= ofText = _
  rw [text]
  rfl

theorem loadFile_silent_iff [Yaml.SetOrder] {f : LoadFault} :
    (loadFile t p).result = .error f ∧ f.message? = none ↔ FileBreaksOff t p f := by
  constructor
  · rintro ⟨failed, silent⟩
    cases read : t.read p with
    | error fault =>
      rw [loadFile_of_unread read] at failed
      cases Except.error.inj failed
      exact .path read (Option.map_eq_none_iff.mp silent)
    | ok content =>
      cases decoded : decodeText? content with
      | none =>
        rw [loadFile_of_undecoded read decoded] at failed
        cases Except.error.inj failed
        exact .encoding read decoded
      | some text =>
        rw [loadFile_of_decoded read decoded] at failed
        exact .text read decoded (ofText_silent_iff.mp ⟨failed, silent⟩)
  · intro breaks
    cases breaks with
    | path failed numberless =>
      exact ⟨loadFile_of_unread failed, Option.map_eq_none_iff.mpr numberless⟩
    | encoding read broken => exact ⟨loadFile_of_undecoded read broken, rfl⟩
    | text read decoded breaks =>
      rw [loadFile_of_decoded read decoded]
      exact ofText_silent_iff.mpr breaks

end

end Workflow

end Gatehouse
