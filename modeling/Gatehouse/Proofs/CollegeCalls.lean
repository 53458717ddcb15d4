import Gatehouse.Proofs.BareNumbers
import Gatehouse.Proofs.Negation

namespace Gatehouse

/-- A text behind a point has the ends that the whole has, as far as these hold no point. -/
theorem suffix_after_point {ending front behind : List Char} (plain : '.' ∉ ending) :
    ending <:+ front ++ '.' :: behind ↔ ending <:+ behind := by
  constructor
  · intro whole
    rcases List.suffix_or_suffix_of_suffix whole (List.suffix_append front ('.' :: behind)) with
      inside | around
    · rcases List.suffix_cons_iff.mp inside with rfl | inner
      · exact absurd List.mem_cons_self plain
      · exact inner
    · exact absurd (around.subset List.mem_cons_self) plain
  · exact fun inner => inner.trans ((List.suffix_cons '.' behind).trans (List.suffix_append _ _))

theorem getLast?_of_suffix {ending cs : List Char} {c : Char} (last : ending.getLast? = some c)
    (h : ending <:+ cs) : cs.getLast? = some c := by
  obtain ⟨front, rfl⟩ := h
  rw [List.getLast?_append, last]
  rfl

/-- The method without its argument. -/
def bareMethod : String := "is_non_partner?"

def EndsBare (expression : String) : Prop := bareMethod.toList <:+ expression.toList

instance (expression : String) : Decidable (EndsBare expression) :=
  inferInstanceAs (Decidable (_ <:+ _))

theorem endsBare_call {accessor method : String} (negated : Bool) :
    EndsBare (Condition.negateIf negated (accessor ++ "." ++ method)) ↔ EndsBare method := by
  have point : '.' ∉ bareMethod.toList := by decide
  have call (front : List Char) :
      bareMethod.toList <:+ front ++ '.' :: method.toList ↔ EndsBare method :=
    suffix_after_point point
  cases negated with
  | false =>
    rw [← call accessor.toList, EndsBare]
    simp [Condition.negateIf]
  | true =>
    rw [← call ('!' :: accessor.toList), EndsBare]
    simp [Condition.negateIf]

theorem EndsBare.endsWithMark {method : String} (h : EndsBare method) :
    Condition.endsWithMark method = true := by
  rw [Condition.endsWithMark, getLast?_of_suffix (c := '?') (by decide) h]
  rfl

theorem last_append {text : String} {c : Char} (last : text.toList.getLast? = some c)
    (other : c ≠ '?') (front : String) : (front ++ text).toList.getLast? ≠ some '?' := by
  rw [String.toList_append, List.getLast?_append, last]
  exact fun eq => other (Option.some.inj eq)

theorem not_endsBare_append {front text : String} (before : front.toList.getLast? ≠ some '?')
    (last : text.toList.getLast? ≠ some '?') : ¬EndsBare (front ++ text) := by
  intro h
  have mark := getLast?_of_suffix (c := '?') (by decide) h
  rw [String.toList_append, List.getLast?_append] at mark
  cases ends : text.toList.getLast? with
  | none =>
    rw [ends] at mark
    exact before mark
  | some c =>
    rw [ends] at last mark
    exact last mark

namespace Value

theorem mark_notMem_of_isNumeral {cs : List Char} {q : Quantity} (h : IsNumeral cs q) :
    '?' ∉ cs := fun mem =>
  h.forall_mem (p := (· ≠ '?')) (by decide) (by decide) (by decide) _ mem rfl

theorem mark_notMem_text (x : Binary64) : '?' ∉ x.text.toList := by
  cases x with
  | finite negative m e =>
    rcases Nat.eq_zero_or_pos m with rfl | hm
    · exact mark_notMem_of_isNumeral (Binary64.isNumeral_text_zero negative e)
    · obtain ⟨coef, exp, numeral, -⟩ := Binary64.exists_isNumeral_text negative hm e
      exact mark_notMem_of_isNumeral numeral
  | infinite negative => cases negative <;> decide
  | nan => decide

theorem mark_notMem_bare {v : Value} (numeric : v.isNumeric = true) : '?' ∉ v.bare.toList := by
  cases v with
  | int i =>
    exact mark_notMem_of_isNumeral (isNumeral_toString i)
  | float x => exact mark_notMem_text x
  | text s =>
    obtain ⟨x, read⟩ := Option.isSome_iff_exists.mp (Bool.and_eq_true_iff.mp numeric).2
    obtain ⟨front, back, whole, before, after⟩ := exists_trimNumeral_split s.toList
    intro mem
    rw [show (text s).bare = s from rfl, whole, List.mem_append, List.mem_append] at mem
    rcases mem with mem | mem | mem
    · exact absurd (before _ mem) (by decide)
    · exact absurd (isNumeralMark_of_readNumeral? read _ mem) (by decide)
    · exact absurd (after _ mem) (by decide)
  | _ => cases numeric

theorem getLast?_quoted (v : Value) : v.quoted.toList.getLast? = some '\'' := by
  rw [quoted, String.toList_ofList, quotedChars, List.getLast?_append]
  rfl

/-- No literal ends with a question mark. -/
theorem getLast?_literal (v : Value) : v.literal.toList.getLast? ≠ some '?' := by
  unfold literal
  split
  next numeric => exact fun last => mark_notMem_bare numeric (List.mem_of_getLast? last)
  next =>
    rw [getLast?_quoted]
    decide

end Value

theorem endsBare_method (e : Entity) (property : String) :
    EndsBare (e.method property) ↔ EndsBare property := by
  rw [Entity.method]
  cases found : e.methods.lookup property with
  | none => exact Iff.rfl
  | some method =>
    obtain ⟨before, after, rows, -⟩ := List.lookup_eq_some_iff.mp found
    have row : (property, method) ∈ e.methods := by
      rw [rows]
      exact List.mem_append_right before List.mem_cons_self
    have table : ∀ row ∈ e.methods, ¬EndsBare row.2 ∧ ¬EndsBare row.1 := by
      cases e <;> decide
    exact iff_of_false (table _ row).1 (table _ row).2

/-- A property is called by the name of a bare method if it has such a name. -/
theorem exists_methodFor_iff {entity property : Option String} :
    (∃ method, methodFor entity property = some method ∧ EndsBare method) ↔
      ∃ p, property = some p ∧ EndsBare p := by
  cases property with
  | none => simp [methodFor]
  | some p =>
    by_cases empty : p = ""
    · subst p
      have named : ¬EndsBare "" := by decide
      simp [methodFor, named]
    · rw [methodFor, if_neg empty]
      split
      next => simp [endsBare_method]
      next => cases entityOf? entity <;> simp [endsBare_method]

namespace Condition

variable {c : Condition}

theorem not_endsBare_comparison (unordered : c.comparisonKind.bind Comparison.ordering? = none)
    (call : String) : ¬EndsBare (c.comparisonExpression call) := by
  have spaced {mark : String} (last : mark.toList.getLast? = some ' ') :
      (call ++ mark).toList.getLast? ≠ some '?' := last_append last (by decide) call
  have closed (front : String) : ¬EndsBare (front ++ c.value.quoted ++ ")") :=
    not_endsBare_append (last_append c.value.getLast?_quoted (by decide) front) (by decide)
  have asked (method : String) (other : ¬EndsBare method) : ¬EndsBare (call ++ "." ++ method) :=
    mt (endsBare_call false).mp other
  unfold comparisonExpression
  split
  next => exact not_endsBare_append (spaced (by decide)) c.value.getLast?_literal
  next => exact not_endsBare_append (spaced (by decide)) c.value.getLast?_literal
  next => exact closed _
  next => exact closed _
  next => simpa [String.append_assoc] using asked "present?" (by decide)
  next => simpa [String.append_assoc] using asked "blank?" (by decide)
  next kind _ _ _ _ _ _ =>
    rw [unordered]
    refine not_endsBare_append (spaced (by decide)) ?_
    rw [Value.getLast?_quoted]
    decide

theorem endsBare_predicateCall {method : String} :
    EndsBare (predicateCall method) ↔ EndsBare method ∧ method ≠ bareMethod := by
  unfold predicateCall
  by_cases whole : method = bareMethod
  · subst method
    decide
  · have other : collegeMethods.contains method = false := by
      simpa [collegeMethods, bareMethod] using whole
    rw [if_neg (by rw [other]; decide)]
    exact (and_iff_left whole).symm

/-- Among calls only those of a bare method end so, and they show no value that could be at
fault. -/
theorem endsBare_compileCall_iff (unordered : c.comparisonKind.bind Comparison.ordering? = none) :
    (∃ e, c.compileCall.outcome = .ok (some e) ∧ EndsBare e) ↔
      ∃ method, c.calledMethod? = some method ∧ EndsBare method := by
  constructor
  · rintro ⟨e, compiles, bare⟩
    rw [outcome_compileCall] at compiles
    split at compiles
    next => cases compiles
    next method called =>
      split at compiles
      next => cases compiles
      next =>
        cases compiles
        unfold callExpression at bare
        split at bare
        next => exact ⟨method, called, (endsBare_call _).mp bare⟩
        next => exact absurd bare (not_endsBare_comparison unordered _)
  · rintro ⟨method, called, bare⟩
    have predicate : isPredicateCall method = true := by
      rw [isPredicateCall, bare.endsWithMark, Bool.true_or]
    exact ⟨_, outcome_compileCall_of_predicate called predicate, (endsBare_call _).mpr bare⟩

/-- The condition calls the method under a longer name, or a property of such a name. -/
def CallsBare (c : Condition) : Prop :=
  (∃ method, c.rubyMethod = some method ∧ EndsBare method ∧ method ≠ bareMethod) ∨
    (c.rubyMethod ∈ [none, some "", some Comparison.custom.name] ∧
      registeredExpression? c.name = none ∧ ∃ p, c.property = some p ∧ EndsBare p)

theorem own_of_marked (marked : c.rubyMethod.any endsWithMark = true) :
    c.rubyMethod ∉ [none, some "", some Comparison.custom.name] := by
  have unmarked : ∀ method ∈ [none, some "", some Comparison.custom.name],
      method.any endsWithMark = false := by decide
  intro mem
  rw [unmarked _ mem] at marked
  cases marked

/-- A condition without a method of its own calls that of its property. -/
theorem calledMethod?_eq (c : Condition) : c.calledMethod? =
    if c.rubyMethod ∈ [none, some "", some Comparison.custom.name]
    then methodFor c.entity c.property else c.rubyMethod := by
  unfold calledMethod?
  split
  next method h => simp [h]
  next h => simp [h]

theorem callsBare_of_marked {method : String} (called : c.rubyMethod = some method)
    (mark : endsWithMark method = true) : c.CallsBare ↔ EndsBare method ∧ method ≠ bareMethod := by
  have other := own_of_marked (c := c) (by rw [called]; exact mark)
  rw [CallsBare, or_iff_left fun h => other h.1]
  simp [called]

theorem not_endsBare_of_unmarked (unmarked : c.rubyMethod.any endsWithMark = false)
    {method : String} (called : c.rubyMethod = some method) : ¬EndsBare method := fun bare => by
  rw [called, Option.any_some, bare.endsWithMark] at unmarked
  cases unmarked

theorem exists_calledMethod_iff (unmarked : c.rubyMethod.any endsWithMark = false) :
    (∃ method, c.calledMethod? = some method ∧ EndsBare method) ↔
      c.rubyMethod ∈ [none, some "", some Comparison.custom.name] ∧
        ∃ p, c.property = some p ∧ EndsBare p := by
  rw [calledMethod?_eq]
  split
  next own => rw [and_iff_right own, exists_methodFor_iff]
  next own =>
    exact iff_of_false (fun ⟨method, h, bare⟩ => not_endsBare_of_unmarked unmarked h bare)
      fun h => own h.1

theorem callsBare_of_unmarked (unmarked : c.rubyMethod.any endsWithMark = false) :
    c.CallsBare ↔ registeredExpression? c.name = none ∧
      ∃ method, c.calledMethod? = some method ∧ EndsBare method := by
  have first : ¬∃ method, c.rubyMethod = some method ∧ EndsBare method ∧ method ≠ bareMethod :=
    fun ⟨method, called, bare, _⟩ => not_endsBare_of_unmarked unmarked called bare
  rw [CallsBare, or_iff_right first, exists_calledMethod_iff unmarked, and_left_comm]

/-- The expression of a condition leaves out the college if the method has a longer name or is
called as a property, and not otherwise. -/
theorem endsBare_compile_iff (custom : c.comparisonKind ≠ some .custom)
    (unordered : c.comparisonKind.bind Comparison.ordering? = none) :
    (∃ e, c.compile.outcome = .ok (some e) ∧ EndsBare e) ↔ c.CallsBare := by
  have ended {e : String} (compiles : c.compile.outcome = .ok (some e)) :
      (∃ e, c.compile.outcome = .ok (some e) ∧ EndsBare e) ↔ EndsBare e := by
    simp [compiles]
  cases marked : c.rubyMethod.any endsWithMark with
  | true =>
    cases called : c.rubyMethod with
    | none =>
      rw [called] at marked
      cases marked
    | some method =>
      have compiles := compile_of_marked custom marked
      rw [called] at marked compiles
      rw [ended compiles, endsBare_call, callsBare_of_marked called marked]
      exact endsBare_predicateCall
  | false =>
    rw [callsBare_of_unmarked marked]
    cases registered : registeredExpression? c.name with
    | some expression =>
      have known : ∀ k : KnownCondition, ¬EndsBare k.expression := by
        intro k
        cases k <;> decide
      obtain ⟨k, -, rfl⟩ := Option.map_eq_some_iff.mp registered
      rw [ended (compile_of_registered custom marked registered)]
      exact iff_of_false (known k) (fun h => by cases h.1)
    | none =>
      rw [and_iff_right rfl]
      have compiles := compile_of_unregistered custom marked registered
      by_cases home : c.asksHomeSchool = true
      · rw [if_pos home] at compiles
        rw [ended compiles, exists_calledMethod_iff marked]
        refine iff_of_false ?_ fun ⟨_, p, property, bare⟩ => ?_
        · cases c.isNegated <;> decide
        · simp only [asksHomeSchool, property, Option.any_some, Bool.and_eq_true,
            List.contains_iff_mem] at home
          have other : ∀ p ∈ homeSchoolProperties, ¬EndsBare p := by decide
          exact other p home.2 bare
      · rw [compiles, if_neg home]
        exact endsBare_compileCall_iff unordered

/-- A school asked for its method by name, as a property. -/
theorem endsBare_compile_partner :
    let c := propertyCondition "partner" "HighSchool" "is_non_partner?"
    c.comparisonKind ≠ some .custom ∧ c.comparisonKind.bind Comparison.ordering? = none ∧
      ∃ e, c.compile.outcome = .ok (some e) ∧ EndsBare e := by
  intro c
  have custom : c.comparisonKind ≠ some .custom := by decide
  have unordered : c.comparisonKind.bind Comparison.ordering? = none := by decide
  exact ⟨custom, unordered, (endsBare_compile_iff custom unordered).mpr
    (Or.inr ⟨by decide, by decide, _, rfl, by decide⟩)⟩

end Condition

end Gatehouse
