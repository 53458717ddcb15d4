import Gatehouse.Proofs.CodeReading
import Gatehouse.Proofs.CompileRules
import Gatehouse.Proofs.ConditionMeaning
import Gatehouse.Proofs.Membership

namespace Gatehouse

theorem isOneLine_ite {c : Prop} [Decidable c] {s t : String} (hs : IsOneLine s)
    (ht : IsOneLine t) : IsOneLine (if c then s else t) := by
  split
  next => exact hs
  next => exact ht

theorem isOneLine_commaSeparated {parts : List String} (h : ∀ p ∈ parts, IsOneLine p) :
    IsOneLine (commaSeparated parts) := by
  induction parts with
  | nil => decide
  | cons p rest ih =>
    cases rest with
    | nil => exact h p List.mem_cons_self
    | cons q rest =>
      have first := h p List.mem_cons_self
      have more := ih fun x hx => h x (List.mem_cons_of_mem _ hx)
      rw [IsOneLine, commaSeparated, String.toList_intercalate] at more ⊢
      simp only [List.map_cons, List.intercalate_cons_cons, List.mem_append, not_or] at more ⊢
      exact ⟨⟨first, by decide⟩, more⟩

theorem digitChar_ne_newline (d : Nat) : Nat.digitChar d ≠ '\n' := by
  by_cases small : d < 16
  · have digits : ∀ n < 16, Nat.digitChar n ≠ '\n' := by decide
    exact digits d small
  · have star : Nat.digitChar d = '*' := by
      simp (disch := omega) only [Nat.digitChar, if_neg]
    rw [star]
    decide

theorem newline_notMem_toDigits (base n : Nat) : '\n' ∉ Nat.toDigits base n := by
  have core (fuel n : Nat) (ds : List Char) (h : '\n' ∉ ds) :
      '\n' ∉ Nat.toDigitsCore base fuel n ds := by
    induction fuel generalizing n ds with
    | zero => exact h
    | succ fuel ih =>
      have longer : '\n' ∉ Nat.digitChar (n % base) :: ds := by
        simp [h, (digitChar_ne_newline _).symm]
      rw [Nat.toDigitsCore]
      split
      next => exact longer
      next => exact ih _ _ longer
  exact core (n + 1) n [] List.not_mem_nil

theorem newline_notMem_zeros (n : Nat) : '\n' ∉ List.replicate n '0' := by
  intro h
  exact absurd (List.eq_of_mem_replicate h) (by decide)

theorem isOneLine_toString_nat (n : Nat) : IsOneLine (toString n) := by
  rw [Nat.toString_eq_ofList_toDigits, isOneLine_ofList]
  exact newline_notMem_toDigits 10 n

theorem isOneLine_toString_int (i : Int) : IsOneLine (toString i) := by
  cases i with
  | ofNat n => exact isOneLine_toString_nat n
  | negSucc n =>
    change IsOneLine ("-" ++ toString (n + 1))
    exact isOneLine_append.mpr ⟨by decide, isOneLine_toString_nat _⟩

theorem isOneLine_padded (width n : Nat) : IsOneLine (padded width n) := by
  simp [padded, newline_notMem_toDigits]

theorem Date.isOneLine_text (d : Date) : IsOneLine d.text := by
  simp only [Date.text, isOneLine_append, isOneLine_padded, true_and, and_true]
  decide

theorem isOneLine_offsetText (seconds : Int) : IsOneLine (offsetText seconds) := by
  simp only [offsetText, isOneLine_append, isOneLine_padded]
  exact ⟨⟨⟨⟨isOneLine_ite (by decide) (by decide), trivial⟩, by decide⟩, trivial⟩,
    isOneLine_ite (by decide) (isOneLine_append.mpr ⟨by decide, isOneLine_padded _ _⟩)⟩

theorem Moment.isOneLine_text (m : Moment) : IsOneLine m.text := by
  simp only [Moment.text, isOneLine_append, isOneLine_padded, Date.isOneLine_text]
  refine ⟨⟨by decide, isOneLine_ite (by decide)
    (isOneLine_append.mpr ⟨by decide, isOneLine_padded _ _⟩)⟩, ?_⟩
  split
  next => decide
  next s _ => exact isOneLine_offsetText s

theorem isOneLine_part {word : String} (h : IsOneLine word) (i : Int) :
    ∀ p ∈ if i = 0 then [] else [word ++ toString i], IsOneLine p := by
  intro p hp
  split at hp
  next => exact absurd hp List.not_mem_nil
  next =>
    rw [List.mem_singleton.mp hp, isOneLine_append]
    exact ⟨h, isOneLine_toString_int i⟩

theorem isOneLine_displaySpan (seconds : Int) : IsOneLine (displaySpan seconds) := by
  unfold displaySpan
  simp only [isOneLine_append]
  refine ⟨⟨by decide, isOneLine_ite (by decide) (isOneLine_commaSeparated fun p hp => ?_)⟩,
    by decide⟩
  rcases List.mem_append.mp hp with hp | hp
  · exact isOneLine_part (by decide) _ p hp
  · exact isOneLine_part (by decide) _ p hp

theorem isOneLine_displayOffset (seconds : Int) : IsOneLine (displayOffset seconds) := by
  refine isOneLine_ite (by decide) ?_
  simp only [isOneLine_append]
  exact ⟨⟨by decide, isOneLine_displaySpan seconds⟩, by decide⟩

theorem isOneLine_numbers (ns : List Nat) : ∀ p ∈ ns.map toString, IsOneLine p := by
  intro p hp
  obtain ⟨n, -, rfl⟩ := List.mem_map.mp hp
  exact isOneLine_toString_nat n

theorem Date.isOneLine_display (d : Date) : IsOneLine d.display := by
  unfold Date.display
  simp only [isOneLine_append]
  exact ⟨⟨by decide, isOneLine_commaSeparated (isOneLine_numbers d.fields)⟩, by decide⟩

theorem Moment.isOneLine_display (m : Moment) : IsOneLine m.display := by
  unfold Moment.display
  simp only [isOneLine_append]
  refine ⟨⟨by decide, isOneLine_commaSeparated fun p hp => ?_⟩, by decide⟩
  rcases List.mem_append.mp hp with hp | hp
  · exact isOneLine_numbers m.fields p hp
  · cases h : m.offset with
    | none =>
      rw [h] at hp
      cases hp
    | some s =>
      rw [h] at hp
      rw [List.mem_singleton.mp hp, isOneLine_append]
      exact ⟨by decide, isOneLine_displayOffset s⟩

theorem newline_notMem_placePoint {digits : List Char} (h : '\n' ∉ digits) (places : Int) :
    '\n' ∉ placePoint digits places := by
  unfold placePoint
  split
  next => simp [zeros, h]
  next =>
    simp only
    split
    next => simp [zeros, h]
    next =>
      rw [List.mem_append, List.mem_cons, not_or, not_or]
      exact ⟨fun hm => h (List.mem_of_mem_take hm), by decide,
        fun hm => h (List.mem_of_mem_drop hm)⟩

theorem Binary64.isOneLine_text (x : Binary64) : IsOneLine x.text := by
  have sign (negative : Bool) : '\n' ∉ (if negative then ['-'] else []) := by
    cases negative <;> decide
  rw [Binary64.text, isOneLine_ofList]
  cases x with
  | nan => decide
  | infinite negative =>
    simp only [Binary64.chars, List.mem_append, not_or]
    exact ⟨sign negative, by decide⟩
  | finite negative mant exp =>
    simp only [Binary64.chars, List.mem_append, not_or]
    refine ⟨sign negative, ?_⟩
    unfold magnitudeChars
    split
    next => decide
    next =>
      have digits : '\n' ∉ dropTrailingZeros (Nat.toDigits 10 (shortest mant exp).coef) := by
        intro h
        simp only [dropTrailingZeros, List.mem_reverse] at h
        exact newline_notMem_toDigits _ _ (List.mem_reverse.mp ((List.dropWhile_sublist _).subset h))
      simp only [DecimalLayout.chars]
      split
      next => exact newline_notMem_placePoint digits _
      next power _ =>
        simp only [List.mem_append, not_or]
        constructor
        · split
          next => exact List.not_mem_nil
          next h => rwa [h] at digits
          next h =>
            rw [h] at digits
            simpa using digits
        · have least := fun p : Nat => newline_notMem_toDigits 10 p
          simp only [exponentChars, zeros, List.mem_append, List.mem_cons, not_or]
          refine ⟨⟨by decide, ?_, newline_notMem_zeros _⟩, least _⟩
          split
          next => decide
          next => decide

theorem newline_notMem_displayNumber (n : Nat) : '\n' ∉ displayNumber n := by
  have hex (width : Nat) : '\n' ∉ hexPadded width n := by
    simp [hexPadded, newline_notMem_toDigits]
  unfold displayNumber
  split
  next => simp [hex]
  next =>
    split
    next => simp [hex]
    next => simp [hex]

/-- Line ends inside the quotes are written as an escape. -/
theorem newline_notMem_displayQuoted (shown : Char → Bool) (cs : List Char) :
    '\n' ∉ displayQuoted shown cs := by
  have quote : '\n' ≠ displayQuote cs := by
    unfold displayQuote
    split
    next => decide
    next => decide
  have point (n : Nat) : '\n' ∉ displayPoint shown (displayQuote cs) n := by
    unfold displayPoint
    simp only
    split
    next => exact newline_notMem_displayNumber n
    next =>
      split
      next special =>
        simp only [List.mem_cons, List.not_mem_nil, or_false, not_or]
        refine ⟨by decide, fun h => ?_⟩
        rcases special with eq | eq
        · exact quote (h.trans eq)
        · exact absurd (h.trans eq) (by decide)
      next =>
        split
        next => decide
        next other =>
          split
          next => decide
          next =>
            split
            next => decide
            next =>
              split
              next => simpa using fun h => other h.symm
              next => exact newline_notMem_displayNumber n
  simp only [displayQuoted, List.mem_append, List.mem_cons, List.mem_flatMap, List.not_mem_nil,
    or_false, not_or, not_exists, not_and]
  exact ⟨⟨quote, fun n _ => point n⟩, quote⟩

theorem isOneLine_displayText (s : String) : IsOneLine (displayText s) := by
  rw [displayText, isOneLine_ofList]
  exact newline_notMem_displayQuoted _ _

theorem isOneLine_displayBytes (bs : List UInt8) : IsOneLine (displayBytes bs) := by
  rw [displayBytes, isOneLine_ofList, List.mem_cons, not_or]
  exact ⟨by decide, newline_notMem_displayQuoted _ _⟩

namespace Value

theorem isOneLine_ellipsis (isMap : Bool) : IsOneLine (ellipsis isMap) := by
  cases isMap <;> decide

mutual

theorem isOneLine_displayWithin (around : List Nat) :
    (v : Value) → IsOneLine (v.displayWithin around)
  | null => (by decide : IsOneLine "None")
  | bool _ => isOneLine_ite (by decide) (by decide)
  | int i => isOneLine_toString_int i
  | float x => x.isOneLine_text
  | text s => isOneLine_displayText s
  | date d => d.isOneLine_display
  | moment m => m.isOneLine_display
  | bytes bs => isOneLine_displayBytes bs
  | list xs => by
    simp only [displayWithin, isOneLine_append]
    exact ⟨⟨by decide, isOneLine_commaSeparated (isOneLine_displayItems around xs)⟩, by decide⟩
  | map entries => by
    simp only [displayWithin, isOneLine_append]
    exact ⟨⟨by decide, isOneLine_commaSeparated (isOneLine_displayEntries around entries)⟩,
      by decide⟩
  | set [] => (by decide : IsOneLine "set()")
  | set (x :: xs) => by
    simp only [displayWithin, isOneLine_append]
    exact ⟨⟨by decide, isOneLine_commaSeparated (isOneLine_displayItems around (x :: xs))⟩,
      by decide⟩
  | pair a b => by
    simp only [displayWithin, isOneLine_append]
    exact ⟨⟨⟨⟨by decide, isOneLine_displayWithin around a⟩, by decide⟩,
      isOneLine_displayWithin around b⟩, by decide⟩
  | knot n v => by
    simp only [displayWithin]
    exact isOneLine_ite (isOneLine_ellipsis _) (isOneLine_displayWithin _ v)
  | again n isMap => isOneLine_ellipsis isMap

theorem isOneLine_displayItems (around : List Nat) :
    (xs : List Value) → ∀ p ∈ displayItems around xs, IsOneLine p
  | [] => fun _ hp => absurd hp List.not_mem_nil
  | v :: rest => fun p hp => by
    rcases List.mem_cons.mp hp with rfl | hp
    · exact isOneLine_displayWithin around v
    · exact isOneLine_displayItems around rest p hp

theorem isOneLine_displayEntries (around : List Nat) :
    (entries : List (Value × Value)) → ∀ p ∈ displayEntries around entries, IsOneLine p
  | [] => fun _ hp => absurd hp List.not_mem_nil
  | (k, v) :: rest => fun p hp => by
    rcases List.mem_cons.mp hp with rfl | hp
    · simp only [isOneLine_append]
      exact ⟨⟨isOneLine_displayWithin around k, by decide⟩, isOneLine_displayWithin around v⟩
    · exact isOneLine_displayEntries around rest p hp

end

/-- Only a text stands in an expression as it is. -/
theorem isOneLine_bare {v : Value} (h : ∀ s, v = text s → IsOneLine s) : IsOneLine v.bare := by
  cases v with
  | text s => exact h s rfl
  | bool b => cases b <;> decide
  | null => decide
  | date d => exact d.isOneLine_text
  | moment m => exact m.isOneLine_text
  | _ => exact isOneLine_displayWithin [] _

theorem isOneLine_quoted {v : Value} (h : ∀ s, v = text s → IsOneLine s) :
    IsOneLine v.quoted := by
  have bare := isOneLine_bare h
  rw [quoted, isOneLine_ofList]
  simp only [quotedChars, escapeApostrophes, List.mem_append, List.mem_cons, List.mem_flatMap,
    List.not_mem_nil, or_false, not_or, not_exists, not_and]
  refine ⟨⟨by decide, fun c hc => ?_⟩, by decide⟩
  split
  next => decide
  next =>
    rw [List.mem_singleton]
    rintro rfl
    exact bare hc

theorem isOneLine_literal {v : Value} (h : ∀ s, v = text s → IsOneLine s) :
    IsOneLine v.literal :=
  isOneLine_ite (isOneLine_bare h) (isOneLine_quoted h)

end Value

theorem ofNat_ne_newline {n : Nat} (h : n ≠ 10) : Char.ofNat n ≠ '\n' := by
  intro eq
  rw [Char.ofNat] at eq
  by_cases valid : n.isValidChar
  · rw [dif_pos valid] at eq
    exact h (congrArg Char.toNat eq)
  · rw [dif_neg valid] at eq
    exact absurd eq (by decide)

theorem CaseShift.apply_ne_newline {table : List CaseShift}
    (above : ∀ s ∈ table, 0x10 ≤ s.span.first + s.delta) {n : Nat} {s : CaseShift}
    (found : table.find? (fun s => decide (s.Applies n)) = some s) : s.apply n ≠ '\n' := by
  have applies : s.Applies n := by simpa using List.find?_some found
  have least := above s (List.mem_of_find?_eq_some found)
  have covers := applies.1.1
  exact ofNat_ne_newline (by omega)

theorem newline_notMem_lowerChar {c : Char} (h : c ≠ '\n') : '\n' ∉ lowerChar c := by
  -- no letter is shifted to a control character
  have above : ∀ s ∈ lowerShifts, 0x10 ≤ s.span.first + s.delta := by decide +kernel
  unfold lowerChar
  split
  next => decide
  next =>
    split
    next found => simpa using (CaseShift.apply_ne_newline above found).symm
    next => simpa using h.symm

theorem newline_notMem_upperChar {c : Char} (h : c ≠ '\n') : '\n' ∉ upperChar c := by
  have above : ∀ s ∈ upperShifts, 0x10 ≤ s.span.first + s.delta := by decide +kernel
  have expanded : ∀ e ∈ upperExpansions, ∀ code ∈ e.2, code ≠ 10 := by decide +kernel
  unfold upperChar
  split
  next codes found =>
    obtain ⟨before, after, split, -⟩ := List.lookup_eq_some_iff.mp found
    intro hm
    obtain ⟨code, hc, eq⟩ := List.mem_map.mp hm
    have listed : (c.toNat, codes) ∈ upperExpansions := by
      rw [split]
      simp
    exact ofNat_ne_newline (expanded _ listed code hc) eq
  next =>
    split
    next found => simpa using (CaseShift.apply_ne_newline above found).symm
    next => simpa using h.symm

theorem isOneLine_lowerText {s : String} (h : IsOneLine s) : IsOneLine (lowerText s) := by
  have lowered (before cs : List Char) (hcs : '\n' ∉ cs) : '\n' ∉ lowerFrom before cs := by
    induction cs generalizing before with
    | nil => exact List.not_mem_nil
    | cons c rest ih =>
      rw [List.mem_cons, not_or] at hcs
      rw [lowerFrom, List.mem_append, not_or]
      refine ⟨?_, ih _ hcs.2⟩
      split
      next =>
        split
        next => decide
        next => decide
      next => exact newline_notMem_lowerChar (Ne.symm hcs.1)
  rw [lowerText, isOneLine_ofList]
  exact lowered [] s.toList h

theorem isOneLine_capitalize {s : String} (h : IsOneLine s) : IsOneLine (capitalize s) := by
  rw [capitalize, isOneLine_ofList, List.mem_append, List.mem_flatMap, not_or, not_exists]
  refine ⟨fun c hc => ?_, fun hm => h (List.mem_of_mem_drop hm)⟩
  have other : c ≠ '\n' := by
    rintro rfl
    exact h (List.mem_of_mem_take hc.1)
  exact newline_notMem_upperChar other hc.2

theorem Step.isOneLine_completionToken {s : Step} {token : String}
    (h : s.completionToken? = some token) : IsOneLine token := fun newline =>
  absurd (isSnakeChar_of_completionToken h _ newline) (by decide)

theorem isOneLine_trimText {s : String} (h : IsOneLine s) : IsOneLine (trimText s) := by
  rw [trimText, isOneLine_ofList, trimChars, trimEndChars, List.mem_reverse]
  intro hm
  have kept := List.mem_reverse.mp ((List.dropWhile_sublist _).subset hm)
  exact h ((List.dropWhile_sublist _).subset kept)

theorem Entity.isOneLine_accessor (e : Entity) : IsOneLine e.accessor := by
  cases e <;> simp [Entity.accessor, Entity.name, IsOneLine]

theorem Entity.isOneLine_method (e : Entity) {property : String} (h : IsOneLine property) :
    IsOneLine (e.method property) := by
  have listed : ∀ m ∈ e.methods, IsOneLine m.2 := by
    cases e <;> simp only [Entity.methods, List.forall_mem_cons, List.not_mem_nil, false_implies,
      implies_true, and_true] <;> and_intros <;> exact isOneLine_ofList.mpr (by decide)
  unfold Entity.method
  cases found : e.methods.lookup property with
  | none => exact h
  | some method =>
    obtain ⟨before, after, split, -⟩ := List.lookup_eq_some_iff.mp found
    exact listed (property, method) (by simp [split])

theorem isOneLine_accessorFor {designator : Option String}
    (h : ∀ s, designator = some s → IsOneLine s) : IsOneLine (accessorFor designator).result := by
  unfold accessorFor
  split
  next => exact Entity.student.isOneLine_accessor
  next s =>
    split
    next => exact Entity.student.isOneLine_accessor
    next =>
      split
      next e _ => exact e.isOneLine_accessor
      next => exact isOneLine_lowerText (h s rfl)

theorem isOneLine_methodFor {entity property : Option String}
    (h : ∀ s, property = some s → IsOneLine s) {method : String}
    (found : methodFor entity property = some method) : IsOneLine method := by
  unfold methodFor at found
  split at found
  next => cases found
  next p =>
    have own := h p rfl
    split at found
    next => cases found
    next =>
      split at found
      next => exact Option.some.inj found ▸ Entity.student.isOneLine_method own
      next =>
        split at found
        next e _ => exact Option.some.inj found ▸ e.isOneLine_method own
        next => exact Option.some.inj found ▸ own

theorem KnownCondition.isOneLine_expression (k : KnownCondition) : IsOneLine k.expression := by
  cases k <;> exact isOneLine_ofList.mpr (by decide)

namespace Condition

/-- The texts of a condition that come into the code of a class are on one line each. -/
structure HasOneLineTexts (c : Condition) : Prop where
  entity : ∀ s, c.entity = some s → IsOneLine s
  property : ∀ s, c.property = some s → IsOneLine s
  rubyMethod : ∀ s, c.rubyMethod = some s → IsOneLine s
  value : ∀ s, c.value = .text s → IsOneLine s
  fields : ∀ f ∈ c.fields, IsOneLine f

theorem isOneLine_negateIf {e : String} (h : IsOneLine e) (negated : Bool) :
    IsOneLine (negateIf negated e) :=
  isOneLine_ite (isOneLine_append.mpr ⟨by decide, h⟩) h

theorem isOneLine_predicateCall {method : String} (h : IsOneLine method) :
    IsOneLine (predicateCall method) :=
  isOneLine_ite (isOneLine_append.mpr ⟨h, by decide⟩) h

theorem isOneLine_ordering {k : Comparison} {operator : String} (h : k.ordering? = some operator) :
    IsOneLine operator := by
  cases k <;> cases h <;> decide

variable {c : Condition}

theorem isOneLine_comparisonExpression (h : c.HasOneLineTexts) {call : String}
    (hcall : IsOneLine call) : IsOneLine (c.comparisonExpression call) := by
  have literal := Value.isOneLine_literal h.value
  have quoted := Value.isOneLine_quoted h.value
  unfold comparisonExpression
  split
  next => simp only [isOneLine_append]; exact ⟨⟨hcall, by decide⟩, literal⟩
  next => simp only [isOneLine_append]; exact ⟨⟨hcall, by decide⟩, literal⟩
  next => simp only [isOneLine_append]; exact ⟨⟨⟨hcall, by decide⟩, quoted⟩, by decide⟩
  next => simp only [isOneLine_append]; exact ⟨⟨⟨⟨by decide, hcall⟩, by decide⟩, quoted⟩, by decide⟩
  next => exact isOneLine_append.mpr ⟨hcall, by decide⟩
  next => exact isOneLine_append.mpr ⟨hcall, by decide⟩
  next kind =>
    split
    next operator found =>
      obtain ⟨k, -, hk⟩ := Option.bind_eq_some_iff.mp found
      simp only [isOneLine_append]
      exact ⟨⟨⟨⟨hcall, by decide⟩, isOneLine_ordering hk⟩, by decide⟩, Value.isOneLine_bare h.value⟩
    next => simp only [isOneLine_append]; exact ⟨⟨hcall, by decide⟩, quoted⟩

theorem isOneLine_calledMethod (h : c.HasOneLineTexts) {method : String}
    (found : c.calledMethod? = some method) : IsOneLine method := by
  unfold calledMethod? at found
  split at found
  next m given =>
    split at found
    next => exact isOneLine_methodFor h.property found
    next => exact h.rubyMethod method (given.trans found)
  next => exact isOneLine_methodFor h.property found

/-- What a condition is compiled to is on one line if its texts are. -/
theorem isOneLine_compile (h : c.HasOneLineTexts) {e : String}
    (compiles : c.compile.outcome = .ok (some e)) : IsOneLine e := by
  have accessor := isOneLine_accessorFor h.entity
  cases expresses_of_compile compiles with
  | written _ value _ => exact isOneLine_trimText (h.value _ value)
  | asked _ given _ =>
    refine isOneLine_negateIf ?_ _
    simp only [isOneLine_append]
    exact ⟨⟨accessor, by decide⟩, isOneLine_predicateCall (h.rubyMethod _ given)⟩
  | @known k => exact k.isOneLine_expression
  | homeSchool => exact isOneLine_negateIf (KnownCondition.isOneLine_expression _) _
  | @called method _ _ _ _ calls =>
    have call : IsOneLine ((accessorFor c.entity).result ++ "." ++ method) := by
      simp only [isOneLine_append]
      exact ⟨⟨accessor, by decide⟩, isOneLine_calledMethod h calls⟩
    unfold callExpression
    split
    next => exact isOneLine_negateIf call _
    next => exact isOneLine_comparisonExpression h call

end Condition

theorem isOneLine_guessExpression {name : String} (h : IsOneLine name) :
    IsOneLine (guessExpression name) := by
  unfold guessExpression
  simp only
  split
  next => exact KnownCondition.isOneLine_expression _
  next =>
    simp only [fieldLookup, isOneLine_append]
    exact ⟨⟨by decide, h⟩, by decide⟩

/-- The texts of a workflow that come into the code of a class are on one line each. Titles are not
among them: they come in as snake case only. -/
structure Workflow.HasOneLineTexts (w : Workflow) : Prop where
  names : ∀ e ∈ w.conditions.entries, IsOneLine e.1
  conditions : ∀ e ∈ w.conditions.entries, e.2.HasOneLineTexts
  gates : ∀ s ∈ w.steps, ∀ n ∈ s.conditionNames, IsOneLine n

theorem isOneLine_compiledAs {name expression : String} {fields : List String}
    (hn : IsOneLine name) (he : IsOneLine expression) (hf : ∀ f ∈ fields, IsOneLine f) :
    IsOneLine (compiledAs name expression fields).expression ∧
      ∀ f ∈ (compiledAs name expression fields).fields, IsOneLine f := by
  refine ⟨he, fun f h => ?_⟩
  unfold compiledAs at h
  simp only at h
  split at h
  next => exact List.mem_singleton.mp h ▸ hn
  next => exact hf f h

theorem Workflow.HasOneLineTexts.meaning {w : Workflow} (h : w.HasOneLineTexts) {target : Target}
    {name : String} (hn : IsOneLine name) {k : Compiled}
    (means : w.meaning target name = .ok (some k)) :
    IsOneLine k.expression ∧ ∀ f ∈ k.fields, IsOneLine f := by
  have own : ∀ f ∈ [name], IsOneLine f := fun f hf => List.mem_singleton.mp hf ▸ hn
  rcases Workflow.meaning_cases means with ⟨c, e, declared, compiles, rfl⟩ | ⟨known, rfl⟩ | rfl
  · have texts := h.conditions _ (Keyed.get?_eq_some_iff.mp declared)
    exact isOneLine_compiledAs hn (Condition.isOneLine_compile texts compiles) texts.fields
  · exact isOneLine_compiledAs hn known.isOneLine_expression own
  · exact isOneLine_compiledAs hn (isOneLine_guessExpression hn) own

/-- Whatever a class is resolved to is on whole lines, if the texts of the workflow are and the
heuristics name their conditions on one line each. -/
theorem hasOneLineCode_of_resolve {heuristics : List Heuristic} {w : Workflow} {p : Profile}
    {target : Target} {r : Resolution} (hw : w.HasOneLineTexts)
    (hh : ∀ h ∈ heuristics, IsOneLine h.condition)
    (resolved : (resolve heuristics w (p.selectSteps w) target).outcome = .ok r) :
    HasOneLineCode r.compiled r.states := by
  have names : ∀ n ∈ referencedNames heuristics (p.selectSteps w), IsOneLine n := by
    intro n hn
    obtain ⟨x, hx, gated⟩ := mem_referencedNames_iff.mp hn
    obtain ⟨s, hs, rfl⟩ := mem_stepsOf.mp hx
    have listed : s.step ∈ stepsOf (placeSteps w.steps) :=
      mem_stepsOf.mpr ⟨s, List.mem_of_mem_filter hs, rfl⟩
    rw [stepsOf_placeSteps] at listed
    rcases gated with named | ⟨h, hmem, rfl, -⟩
    · exact hw.gates s.step listed n named
    · exact hh h hmem
  have meanings : ∀ e ∈ r.compiled.entries, IsOneLine e.1 ∧ IsOneLine e.2.expression ∧
      ∀ f ∈ e.2.fields, IsOneLine f := by
    intro e he
    obtain ⟨gated, means⟩ := (Resolution.get?_compiled_iff resolved).mp
      (Keyed.get?_eq_some_iff.mpr he)
    exact ⟨names _ gated, hw.meaning (names _ gated) means⟩
  refine ⟨⟨fun e he => (meanings e he).1, fun e he => (meanings e he).2.1, ?_⟩,
    fun e he => (meanings e he).2.2⟩
  intro e he token ht
  rw [(Resolution.resolve_eq_ok resolved).2.states] at he
  obtain ⟨n, -, rfl⟩ := List.mem_map.mp he
  rw [settled_branchOf heuristics (p.selectSteps w) n] at ht
  obtain ⟨s, -, sets⟩ := mem_tokensOf.mp ht
  exact Step.isOneLine_completionToken sets

end Gatehouse
