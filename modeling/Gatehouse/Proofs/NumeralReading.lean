import Gatehouse.Proofs.NumeralForm

namespace Gatehouse

theorem IsGrouped.forall_mem {p : Char → Prop} (digits : ∀ d : Fin 10, p (Nat.digitChar d))
    (bar : p '_') {gs ds : List Char} (h : IsGrouped gs ds) : ∀ c ∈ gs, p c := by
  induction h with
  | last digit => exact List.forall_mem_singleton.mpr (of_isDigit digits digit)
  | next digit _ ih => exact List.forall_mem_cons.mpr ⟨of_isDigit digits digit, ih⟩
  | bar digit _ ih =>
    exact List.forall_mem_cons.mpr ⟨of_isDigit digits digit, List.forall_mem_cons.mpr ⟨bar, ih⟩⟩

theorem IsGrouped.isDigit_of_mem {gs ds : List Char} (h : IsGrouped gs ds) :
    ∀ c ∈ ds, c.isDigit = true := by
  induction h with
  | last digit => exact List.forall_mem_singleton.mpr digit
  | next digit _ ih => exact List.forall_mem_cons.mpr ⟨digit, ih⟩
  | bar digit _ ih => exact List.forall_mem_cons.mpr ⟨digit, ih⟩

theorem IsGrouped.eq_filter {gs ds : List Char} (h : IsGrouped gs ds) :
    gs.filter (· != '_') = ds := by
  have kept {c : Char} (digit : c.isDigit = true) : (c != '_') = true :=
    bne_iff_ne.mpr (ne_of_isDigit digit rfl)
  induction h with
  | last digit => simp only [List.filter_cons, List.filter_nil, kept digit, if_true]
  | next digit _ ih => simp only [List.filter_cons, kept digit, if_true, ih]
  | bar digit _ ih => simp [kept digit, ih]

theorem IsGrouped.exists_cons {gs ds : List Char} (h : IsGrouped gs ds) :
    ∃ c rest, gs = c :: rest ∧ c.isDigit = true := by
  cases h with
  | last digit => exact ⟨_, _, rfl, digit⟩
  | next digit _ => exact ⟨_, _, rfl, digit⟩
  | bar digit _ => exact ⟨_, _, rfl, digit⟩

/-- No zero stands before further digits if what follows the first character is none of them. -/
theorem IsGrouped.unpadded {gs ds tail : List Char} (h : IsGrouped gs ds)
    (alone : (gs ++ tail).head? = some '0' →
      (gs ++ tail).tail.head?.all (fun c => c != '_' && !c.isDigit) = true)
    (zero : gs.head? = some '0') : gs = ['0'] := by
  cases h with
  | last _ => rw [Option.some.inj zero]
  | next _ more =>
    obtain ⟨d, rest, rfl, digit⟩ := more.exists_cons
    have := alone zero
    simp [digit] at this
  | bar _ _ =>
    have := alone zero
    simp at this

theorem IsSign.forall_mem {p : Char → Prop} (plus : p '+') (minus : p '-') {ss : List Char}
    {negative : Bool} (h : IsSign ss negative) : ∀ c ∈ ss, p c := by
  cases h with
  | none => exact List.forall_mem_nil p
  | plus => exact List.forall_mem_singleton.mpr plus
  | minus => exact List.forall_mem_singleton.mpr minus

theorem IsPower.forall_mem {p : Char → Prop} (digits : ∀ d : Fin 10, p (Nat.digitChar d))
    (marks : p '+' ∧ p '-' ∧ p '_' ∧ p 'e' ∧ p 'E') {ps : List Char} {power : Int}
    (h : IsPower ps power) : ∀ c ∈ ps, p c := by
  obtain ⟨plus, minus, bar, small, capital⟩ := marks
  cases h with
  | none => exact List.forall_mem_nil p
  | some letter sign number =>
    refine List.forall_mem_cons.mpr ⟨?_, List.forall_mem_append.mpr
      ⟨sign.forall_mem plus minus, number.forall_mem digits bar⟩⟩
    rcases letter with rfl | rfl
    · exact small
    · exact capital

/-- What holds for each character of numerals holds for those of one of them. -/
theorem IsNumeral.forall_mem {p : Char → Prop} (digits : ∀ d : Fin 10, p (Nat.digitChar d))
    (point : p '.') (marks : p '+' ∧ p '-' ∧ p '_' ∧ p 'e' ∧ p 'E') {cs : List Char} {q : Quantity}
    (h : IsNumeral cs q) : ∀ c ∈ cs, p c := by
  obtain ⟨plus, minus, bar, -⟩ := id marks
  have grouped {gs ds : List Char} (h : IsGrouped gs ds) : ∀ c ∈ gs, p c :=
    h.forall_mem digits bar
  cases h with
  | whole sign number _ =>
    exact List.forall_mem_append.mpr ⟨sign.forall_mem plus minus, grouped number⟩
  | double sign number _ fraction scale _ =>
    have front := List.forall_mem_append.mpr ⟨sign.forall_mem plus minus, grouped number⟩
    have back := scale.forall_mem digits marks
    rw [← List.append_assoc]
    refine List.forall_mem_append.mpr ⟨front, List.forall_mem_append.mpr ⟨?_, back⟩⟩
    cases fraction with
    | none => exact List.forall_mem_nil p
    | some number => exact List.forall_mem_cons.mpr ⟨point, grouped number⟩

section joining

variable {before : Option Char} {c : Char} {cs rest js : List Char}

theorem joinGroups_cons (plain : c ≠ '_') :
    joinGroups before (c :: rest) = (joinGroups (some c) rest).map (c :: ·) := by
  conv_lhs => unfold joinGroups
  split
  next h => cases h
  next h => exact absurd (List.cons.inj h).1 plain
  next h =>
    obtain ⟨rfl, rfl⟩ := List.cons.inj h
    rfl

theorem exists_of_joinGroups_cons (plain : c ≠ '_') (h : joinGroups before (c :: rest) = some js) :
    ∃ ks, js = c :: ks ∧ joinGroups (some c) rest = some ks := by
  rw [joinGroups_cons plain, Option.map_eq_some_iff] at h
  obtain ⟨ks, joined, rfl⟩ := h
  exact ⟨ks, rfl, joined⟩

/-- An underscore stands between digits. -/
theorem exists_of_joinGroups_bar (h : joinGroups before ('_' :: rest) = some js) :
    before.any Char.isDigit = true ∧ ∃ d more, rest = d :: more ∧ d.isDigit = true ∧
      joinGroups (some '_') rest = some js := by
  rw [joinGroups] at h
  split at h
  next between =>
    obtain ⟨front, back⟩ := Bool.and_eq_true_iff.mp between
    cases rest with
    | nil => cases back
    | cons d more => exact ⟨front, d, more, rfl, back, h⟩
  next => cases h

theorem head_joinGroups (plain : cs.head? ≠ some '_') (h : joinGroups before cs = some js) :
    js.head? = cs.head? := by
  cases cs with
  | nil =>
    cases h
    rfl
  | cons c rest =>
    obtain ⟨ks, rfl, -⟩ := exists_of_joinGroups_cons (fun bar => plain (congrArg _ bar)) h
    rfl

theorem mem_of_joinGroups (h : joinGroups before cs = some js) : ∀ c ∈ cs, c = '_' ∨ c ∈ js := by
  induction cs generalizing before js with
  | nil => exact List.forall_mem_nil _
  | cons c rest ih =>
    by_cases bar : c = '_'
    · subst c
      obtain ⟨-, -, -, -, -, joined⟩ := exists_of_joinGroups_bar h
      exact List.forall_mem_cons.mpr ⟨Or.inl rfl, ih joined⟩
    · obtain ⟨ks, rfl, joined⟩ := exists_of_joinGroups_cons bar h
      refine List.forall_mem_cons.mpr ⟨Or.inr List.mem_cons_self, fun d hd => ?_⟩
      exact (ih joined d hd).imp_right (List.mem_cons_of_mem c)

/-- A text that begins with a digit is a group of digits and a rest that goes on otherwise. -/
theorem exists_of_joinGroups_digit (digit : c.isDigit = true)
    (h : joinGroups before (c :: rest) = some js) :
    ∃ gs ds tail left, c :: rest = gs ++ tail ∧ js = ds ++ left ∧ IsGrouped gs ds ∧
      (∃ last, joinGroups (some last) tail = some left) ∧
      ∀ d, tail.head? = some d → d.isDigit = false ∧ d ≠ '_' := by
  -- on the length, since an underscore and the digit behind it are taken together
  induction size : rest.length using Nat.strong_induction_on generalizing before c rest js with
  | _ length ih =>
    obtain ⟨ks, rfl, joined⟩ := exists_of_joinGroups_cons (ne_of_isDigit digit rfl) h
    cases rest with
    | nil => exact ⟨[c], [c], [], ks, rfl, rfl, .last digit, ⟨c, joined⟩, nofun⟩
    | cons d rest =>
      rw [List.length_cons] at size
      by_cases bar : d = '_'
      · subst d
        obtain ⟨-, d, more, rfl, next, later⟩ := exists_of_joinGroups_bar joined
        rw [List.length_cons] at size
        obtain ⟨gs, ds, tail, left, front, back, grouped, ends⟩ :=
          ih more.length (by omega) next later rfl
        exact ⟨c :: '_' :: gs, c :: ds, tail, left, by rw [front]; rfl, by rw [back]; rfl,
          .bar digit grouped, ends⟩
      · by_cases next : d.isDigit = true
        · obtain ⟨gs, ds, tail, left, front, back, grouped, ends⟩ :=
            ih rest.length (by omega) next joined rfl
          exact ⟨c :: gs, c :: ds, tail, left, by rw [front]; rfl, by rw [back]; rfl,
            .next digit grouped, ends⟩
        · refine ⟨[c], [c], d :: rest, ks, rfl, rfl, .last digit, ⟨c, joined⟩, ?_⟩
          rintro _ ⟨⟩
          exact ⟨by simpa using next, bar⟩

theorem splitSign_of_unsigned (minus : c ≠ '-') (plus : c ≠ '+') (rest : List Char) :
    splitSign (c :: rest) = (false, c :: rest) := by
  unfold splitSign
  split
  next h => exact absurd (List.cons.inj h).1 minus
  next h => exact absurd (List.cons.inj h).1 plus
  next => rfl

/-- Underscores do not touch the sign. -/
theorem exists_of_joinGroups_sign (outside : before.any Char.isDigit = false)
    (h : joinGroups before cs = some js) :
    ∃ ss last, IsSign ss (splitSign js).1 ∧ (splitSign cs).1 = (splitSign js).1 ∧
      cs = ss ++ (splitSign cs).2 ∧ (splitSign cs).2.head? ≠ some '_' ∧
      joinGroups last (splitSign cs).2 = some (splitSign js).2 := by
  have apart {before : Option Char} {cs js : List Char} (outside : before.any Char.isDigit = false)
      (h : joinGroups before cs = some js) : cs.head? ≠ some '_' := by
    intro bar
    cases cs with
    | nil => cases bar
    | cons c rest =>
      cases Option.some.inj bar
      rw [(exists_of_joinGroups_bar h).1] at outside
      cases outside
  cases cs with
  | nil =>
    cases h
    exact ⟨[], none, .none, rfl, rfl, nofun, rfl⟩
  | cons c rest =>
    have plain : c ≠ '_' := fun bar => apart outside h (congrArg _ bar)
    obtain ⟨ks, rfl, joined⟩ := exists_of_joinGroups_cons plain h
    by_cases minus : c = '-'
    · subst c
      exact ⟨['-'], some '-', .minus, rfl, rfl, apart rfl joined, joined⟩
    · by_cases plus : c = '+'
      · subst c
        exact ⟨['+'], some '+', .plus, rfl, rfl, apart rfl joined, joined⟩
      · rw [splitSign_of_unsigned minus plus, splitSign_of_unsigned minus plus]
        exact ⟨[], before, .none, rfl, rfl, apart outside h, h⟩

theorem isPower_of_readExponent {power : Int} (plain : cs.head? ≠ some '_')
    (joined : joinGroups before cs = some js) (read : readExponent js = some power) :
    IsPower cs power := by
  cases cs with
  | nil =>
    cases joined
    cases read
    exact .none
  | cons c rest =>
    obtain ⟨ks, rfl, after⟩ := exists_of_joinGroups_cons (fun bar => plain (congrArg _ bar)) joined
    rw [readExponent] at read
    split at read
    next letter =>
      have outside : (some c).any Char.isDigit = false := by rcases letter with rfl | rfl <;> rfl
      obtain ⟨ss, last, sign, -, front, bare, inner⟩ := exists_of_joinGroups_sign outside after
      generalize splitSign ks = signed at sign inner read
      obtain ⟨negative, digits⟩ := signed
      generalize (splitSign rest).2 = body at front bare inner
      subst front
      dsimp only at sign inner read
      split at read
      next number =>
        cases read
        obtain ⟨nonempty, all⟩ := number
        have isDigit := List.all_eq_true.mp all
        have head := head_joinGroups bare inner
        cases body with
        | nil => exact absurd (List.head?_eq_none_iff.mp head) nonempty
        | cons d more =>
          obtain ⟨gs, ds, tail, left, eq, rfl, grouped, ⟨last, ends⟩, other⟩ :=
            exists_of_joinGroups_digit (isDigit d (List.mem_of_mem_head? head)) inner
          have same := head_joinGroups (fun bar => (other '_' bar).2 rfl) ends
          cases tail with
          | nil =>
            cases ends
            rw [eq, List.append_nil, List.append_nil]
            exact .some letter sign grouped
          | cons e tail =>
            have digit := isDigit e (List.mem_append_right ds (List.mem_of_mem_head? same))
            rw [(other e rfl).1] at digit
            cases digit
      next => cases read
    next => cases read

end joining

/-- What is read behind the first digits: a fraction and a power of ten. -/
theorem exists_of_readMagnitude {negative : Bool} {last : Char} {ds tail left : List Char}
    {x : Binary64} (nonempty : ds ≠ []) (digits : ∀ c ∈ ds, c.isDigit = true)
    (joined : joinGroups (some last) tail = some left)
    (other : ∀ c, tail.head? = some c → c.isDigit = false ∧ c ≠ '_')
    (pointed : tail.head? = some '.' → tail.tail.head?.any Char.isDigit = true)
    (read : readMagnitude negative (ds ++ left) = some x) :
    ∃ fs es ps power, tail = fs ++ ps ∧ IsFraction fs es ∧ IsPower ps power ∧
      x = .ofDecimal negative (Nat.ofDigitChars 10 (ds ++ es) 0) (power - es.length) := by
  have bare : tail.head? ≠ some '_' := fun bar => (other '_' bar).2 rfl
  have same := head_joinGroups bare joined
  rw [readMagnitude_append negative nonempty digits fun c hc => (other c (same ▸ hc)).1,
    Option.map_eq_some_iff] at read
  obtain ⟨power, hp, rfl⟩ := read
  by_cases point : tail.head? = some '.'
  · cases tail with
    | nil => cases point
    | cons c more =>
      cases Option.some.inj point
      obtain ⟨ks, rfl, after⟩ := exists_of_joinGroups_cons (by decide) joined
      cases more with
      | nil => cases pointed rfl
      | cons d more =>
        obtain ⟨gs, es, ps, left, eq, rfl, grouped, ⟨last, ends⟩, other⟩ :=
          exists_of_joinGroups_digit (pointed rfl) after
        have bare : ps.head? ≠ some '_' := fun bar => (other '_' bar).2 rfl
        have same := head_joinGroups bare ends
        have fraction : splitFraction ('.' :: (es ++ left)) = (es, left) := by
          obtain ⟨front, back⟩ := span_digits grouped.isDigit_of_mem
            fun c hc => (other c (same ▸ hc)).1
          rw [splitFraction, front, back]
        rw [fraction] at hp ⊢
        have scale := isPower_of_readExponent bare ends hp
        exact ⟨_, es, ps, power, by rw [eq]; rfl, .some grouped, scale, rfl⟩
  · rw [splitFraction_of_unpointed (same ▸ point)] at hp ⊢
    exact ⟨[], [], tail, power, rfl, .none, isPower_of_readExponent bare joined hp, rfl⟩

/-- The same number, whole or double. -/
def Quantity.IsSame : Quantity → Quantity → Prop
  | .whole i, .whole j => i = j
  | .double x, .double y => x = y
  | .whole i, .double x | .double x, .whole i => x.toInt? = some i

/-- What makes a text that is read as a number a numeral of the generated program. -/
structure IsPlainNumeral (cs : List Char) (x : Binary64) : Prop where
  ascii : cs.all (·.toNat < 0x80) = true
  led : (splitSign cs).2.head?.any Char.isDigit = true
  unpadded : (splitSign cs).2.head? = some '0' →
    (splitSign cs).2.tail.head?.all (fun c => c != '_' && !c.isDigit) = true
  pointed : '.' ∈ cs → (cs.dropWhile (· != '.')).tail.head?.any Char.isDigit = true
  /-- a whole numeral is the number of the double that it is read as -/
  whole : '.' ∉ cs → 'e' ∉ cs → 'E' ∉ cs → x.toInt? =
    some (Binary64.signed (splitSign cs).1
      (Nat.ofDigitChars 10 ((splitSign cs).2.filter (· != '_')) 0))

theorem exists_isNumeral_of_read {cs js : List Char} {x : Binary64} (plain : IsPlainNumeral cs x)
    (joined : joinGroups none cs = some js)
    (read : readMagnitude (splitSign js).1 (splitSign js).2 = some x) :
    ∃ q, IsNumeral cs q ∧ q.IsSame (.double x) := by
  obtain ⟨ss, last, sign, negative_eq, front, -, inner⟩ := exists_of_joinGroups_sign rfl joined
  obtain ⟨-, led, unpadded, pointed, whole⟩ := plain
  rw [negative_eq] at whole
  generalize splitSign js = signed at *
  obtain ⟨negative, digits⟩ := signed
  generalize (splitSign cs).2 = body at *
  subst front
  dsimp only at *
  cases body with
  | nil => cases led
  | cons c rest =>
    obtain ⟨gs, ds, tail, left, eq, rfl, grouped, ⟨last, ends⟩, other⟩ :=
      exists_of_joinGroups_digit led inner
    rw [eq] at unpadded pointed whole ⊢
    have lone := grouped.unpadded unpadded
    have apart (c : Char) (digits : ∀ d : Fin 10, Nat.digitChar d ≠ c)
        (marks : '_' ≠ c ∧ '+' ≠ c ∧ '-' ≠ c) : ∀ d ∈ ss ++ gs, d ≠ c :=
      List.forall_mem_append.mpr ⟨sign.forall_mem marks.2.1 marks.2.2,
        grouped.forall_mem digits marks.1⟩
    have nonempty : ds ≠ [] := by cases grouped <;> exact List.cons_ne_nil _ _
    have point (h : tail.head? = some '.') : tail.tail.head?.any Char.isDigit = true := by
      have mem : '.' ∈ ss ++ (gs ++ tail) := by simp [List.mem_of_mem_head? h]
      have front : ∀ c ∈ ss ++ gs, (c != '.') = true := fun c hc =>
        bne_iff_ne.mpr (apart '.' (by decide) (by decide) c hc)
      have rest := pointed mem
      rw [← List.append_assoc, List.dropWhile_append_of_pos front] at rest
      cases tail with
      | nil => cases h
      | cons c more =>
        cases Option.some.inj h
        exact rest
    obtain ⟨fs, es, ps, power, rfl, fraction, scale, rfl⟩ :=
      exists_of_readMagnitude nonempty grouped.isDigit_of_mem ends other point read
    by_cases marked : fs ≠ [] ∨ ps ≠ []
    · exact ⟨_, .double sign grouped lone fraction scale marked, rfl⟩
    · obtain ⟨rfl, rfl⟩ : fs = [] ∧ ps = [] := by simpa [not_or] using marked
      cases fraction
      cases scale
      have value := whole (fun mem => apart '.' (by decide) (by decide) _ (by simpa using mem) rfl)
        (fun mem => apart 'e' (by decide) (by decide) _ (by simpa using mem) rfl)
        (fun mem => apart 'E' (by decide) (by decide) _ (by simpa using mem) rfl)
      simp only [List.append_nil, grouped.eq_filter] at value
      rw [List.append_nil, List.append_nil, List.append_nil]
      exact ⟨_, .whole sign grouped lone, value⟩

theorem splitSign_append {ss rest : List Char} {negative : Bool} (sign : IsSign ss negative)
    (led : rest.head?.any Char.isDigit = true) : splitSign (ss ++ rest) = (negative, rest) := by
  cases rest with
  | nil => cases led
  | cons c rest =>
    cases sign with
    | none => exact splitSign_of_unsigned (ne_of_isDigit led rfl) (ne_of_isDigit led rfl) rest
    | plus => rfl
    | minus => rfl

theorem IsNumeral.isPlain {cs : List Char} {q : Quantity} {x : Binary64} (h : IsNumeral cs q)
    (same : q.IsSame (.double x)) : IsPlainNumeral cs x := by
  have ascii := List.all_eq_true.mpr (h.forall_mem (p := fun c => decide (c.toNat < 0x80) = true)
    (by decide) (by decide) (by decide))
  cases h with
  | @whole ss gs ds negative sign digits unpadded =>
    have led : gs.head?.any Char.isDigit = true := by
      obtain ⟨c, rest, rfl, digit⟩ := digits.exists_cons
      exact digit
    have unpointed : '.' ∉ ss ++ gs := fun mem =>
      (List.mem_append.mp mem).elim
        (fun mem => sign.forall_mem (p := (· ≠ '.')) (by decide) (by decide) _ mem rfl)
        fun mem => digits.forall_mem (p := (· ≠ '.')) (by decide) (by decide) _ mem rfl
    refine ⟨ascii, ?_, ?_, fun point => absurd point unpointed, fun _ _ _ => ?_⟩
    all_goals rw [splitSign_append sign led]
    · exact led
    · intro zero
      rw [unpadded zero]
      rfl
    · rw [digits.eq_filter]
      exact same
  | @double ss gs ds fs es ps negative power sign digits unpadded fraction scale marked =>
    have led : (gs ++ (fs ++ ps)).head?.any Char.isDigit = true := by
      obtain ⟨c, rest, rfl, digit⟩ := digits.exists_cons
      exact digit
    have unpointed : ∀ c ∈ ss ++ gs, c ≠ '.' := List.forall_mem_append.mpr
      ⟨sign.forall_mem (by decide) (by decide), digits.forall_mem (by decide) (by decide)⟩
    refine ⟨ascii, ?_, ?_, fun point => ?_, fun point small capital => ?_⟩
    · rwa [splitSign_append sign led]
    · rw [splitSign_append sign led]
      intro zero
      have first : gs.head? = some '0' := by
        obtain ⟨c, rest, rfl, -⟩ := digits.exists_cons
        exact zero
      rw [unpadded first]
      cases fraction with
      | some _ => rfl
      | none =>
        cases scale with
        | none => rfl
        | some letter _ _ => rcases letter with rfl | rfl <;> rfl
    · rw [← List.append_assoc] at point ⊢
      cases fraction with
      | none =>
        have rest := scale.forall_mem (p := (· ≠ '.')) (by decide) (by decide)
        exact absurd rfl (List.forall_mem_append.mpr ⟨unpointed, rest⟩ '.' point)
      | some fraction =>
        obtain ⟨c, rest, rfl, digit⟩ := fraction.exists_cons
        rw [List.dropWhile_append_of_pos fun c hc => bne_iff_ne.mpr (unpointed c hc)]
        exact digit
    · rcases marked with some | some
      · cases fraction with
        | none => exact absurd rfl some
        | some _ => exact absurd (by simp) point
      · cases scale with
        | none => exact absurd rfl some
        | some letter _ _ =>
          rcases letter with rfl | rfl
          · exact absurd (by simp) small
          · exact absurd (by simp) capital

/-- A digit, an underscore, or a character of signs, points, powers and words. -/
def isNumeralMark (c : Char) : Bool := c.isDigit || "+-._einftya".toList.contains c.toLower

theorem isNumeralMark_of_isDigit {c : Char} (h : c.isDigit = true) : isNumeralMark c = true := by
  rw [isNumeralMark, h, Bool.true_or]

theorem mem_of_splitSign {cs : List Char} {p : Char → Prop} (marks : p '+' ∧ p '-')
    (rest : ∀ c ∈ (splitSign cs).2, p c) : ∀ c ∈ cs, p c := by
  unfold splitSign at rest
  split at rest
  next => exact List.forall_mem_cons.mpr ⟨marks.2, rest⟩
  next => exact List.forall_mem_cons.mpr ⟨marks.1, rest⟩
  next => exact rest

theorem isNumeralMark_of_readExponent {cs : List Char} {power : Int}
    (read : readExponent cs = some power) : ∀ c ∈ cs, isNumeralMark c = true := by
  cases cs with
  | nil => exact List.forall_mem_nil _
  | cons c rest =>
    rw [readExponent] at read
    split at read
    next letter =>
      refine List.forall_mem_cons.mpr ⟨by rcases letter with rfl | rfl <;> decide, ?_⟩
      refine mem_of_splitSign ⟨by decide, by decide⟩ ?_
      generalize splitSign rest = signed at read
      obtain ⟨negative, digits⟩ := signed
      dsimp only at read ⊢
      split at read
      next number =>
        exact fun c hc => isNumeralMark_of_isDigit (List.all_eq_true.mp number.2 c hc)
      next => cases read
    next => cases read

theorem isNumeralMark_of_readMagnitude {negative : Bool} {cs : List Char} {x : Binary64}
    (read : readMagnitude negative cs = some x) : ∀ c ∈ cs, isNumeralMark c = true := by
  have digit {cs : List Char} : ∀ c ∈ cs.takeWhile Char.isDigit, isNumeralMark c = true :=
    fun c hc => isNumeralMark_of_isDigit (List.mem_takeWhile_imp hc)
  simp only [readMagnitude] at read
  split at read
  next => cases read
  next =>
    obtain ⟨power, hp, -⟩ := Option.map_eq_some_iff.mp read
    have rest := isNumeralMark_of_readExponent hp
    rw [← List.takeWhile_append_dropWhile (p := Char.isDigit) (l := cs)]
    refine List.forall_mem_append.mpr ⟨digit, ?_⟩
    generalize cs.dropWhile Char.isDigit = left at rest ⊢
    unfold splitFraction at rest
    split at rest
    next more =>
      rw [← List.takeWhile_append_dropWhile (p := Char.isDigit) (l := more)]
      exact List.forall_mem_cons.mpr ⟨by decide, List.forall_mem_append.mpr ⟨digit, rest⟩⟩
    next => exact rest

def numberWords : List String := ["inf", "infinity", "nan"]

theorem exists_of_readNumeral? {cs : List Char} {x : Binary64} (read : readNumeral? cs = some x) :
    ∃ js, joinGroups none ((trimNumeral cs).map plainDigit) = some js ∧
      (String.ofList ((splitSign js).2.map Char.toLower) ∈ numberWords ∨
        readMagnitude (splitSign js).1 (splitSign js).2 = some x) := by
  rw [readNumeral?] at read
  obtain ⟨js, joined, read⟩ := Option.bind_eq_some_iff.mp read
  refine ⟨js, joined, ?_⟩
  dsimp only at read
  split at read
  next word => exact Or.inl (by rcases word with h | h <;> simp [h, numberWords])
  next =>
    split at read
    next word => exact Or.inl (by simp [word, numberWords])
    next => exact Or.inr read

theorem isDouble_of_readMagnitude {negative : Bool} {cs : List Char} {x : Binary64}
    (read : readMagnitude negative cs = some x) : x.IsDouble := by
  simp only [readMagnitude] at read
  split at read
  next => cases read
  next =>
    obtain ⟨power, -, rfl⟩ := Option.map_eq_some_iff.mp read
    exact Binary64.isDouble_ofDecimal negative _ _

/-- Whatever is read as a number is read as a double. -/
theorem isDouble_of_readNumeral? {cs : List Char} {x : Binary64} (read : readNumeral? cs = some x) :
    x.IsDouble := by
  rw [readNumeral?] at read
  obtain ⟨js, -, read⟩ := Option.bind_eq_some_iff.mp read
  dsimp only at read
  split at read
  next =>
    cases read
    trivial
  next =>
    split at read
    next =>
      cases read
      trivial
    next => exact isDouble_of_readMagnitude read

namespace Yaml

theorem isDouble_of_sexagesimal {places : List Binary64} {x : Binary64}
    (read : sexagesimal places = .ok x) : x.IsDouble := by
  have summed (places : List (Binary64 × ℕ)) (sum : Binary64) (double : sum.IsDouble)
      (read : places.foldlM (fun sum (e : Binary64 × ℕ) => do
        return sum.add (e.1.mul (← powerOfSixty e.2))) sum = Except.ok (ε := Fault) x) :
      x.IsDouble := by
    induction places generalizing sum with
    | nil =>
      cases read
      exact double
    | cons e places ih =>
      cases power : powerOfSixty e.2 with
      | error fault =>
        rw [List.foldlM_cons, power] at read
        cases read
      | ok power' =>
        rw [List.foldlM_cons, power] at read
        exact ih _ (Binary64.isDouble_add _ _) read
  exact summed _ (.finite false 0 (-1074)) ⟨by norm_num, le_rfl, by norm_num, Or.inr rfl⟩ read

theorem isDouble_of_floatPart {cs : List Char} {x : Binary64} (read : floatPart cs = .ok x) :
    x.IsDouble := by
  unfold floatPart at read
  split at read
  next y found =>
    cases read
    exact isDouble_of_readNumeral? found
  next => cases read

theorem isDouble_of_floatValue {text : String} {x : Binary64} (read : floatValue text = .ok x) :
    x.IsDouble := by
  have signed {magnitude : Except Fault Binary64} {negative : Bool}
      (double : ∀ y, magnitude = .ok y → y.IsDouble)
      (read : (magnitude.map fun y => if negative then y.neg else y) = .ok x) : x.IsDouble := by
    cases magnitude with
    | error fault => cases read
    | ok y =>
      cases read
      split
      next => exact (double y rfl).neg
      next => exact double y rfl
  unfold floatValue at read
  dsimp only at read
  generalize splitSign (lowerChars (withoutBars text)) = parts at read
  obtain ⟨negative, cs⟩ := parts
  refine signed (fun y magnitude => ?_) read
  split at magnitude
  next => cases magnitude
  next =>
    split at magnitude
    next =>
      cases magnitude
      trivial
    next =>
      split at magnitude
      next =>
        cases magnitude
        trivial
      next =>
        split at magnitude
        next =>
          cases places : (splitChars (· == ':') cs).mapM floatPart with
          | error fault =>
            rw [places] at magnitude
            cases magnitude
          | ok places' =>
            rw [places] at magnitude
            exact isDouble_of_sexagesimal magnitude
        next => exact isDouble_of_floatPart magnitude

/-- Each number with a point that a document holds is a double. -/
theorem isDouble_of_scalarValue {tag : Tag} {text : String} {x : Binary64}
    (read : scalarValue tag text = .ok (.float x)) : x.IsDouble := by
  have made {α : Type} {given : Except Fault α} {f : α → Value}
      (read : given.map f = .ok (.float x)) : ∃ a, given = .ok a ∧ f a = .float x := by
    cases given with
    | error fault => cases read
    | ok a => exact ⟨a, rfl, Except.ok.inj read⟩
  cases tag with
  | float =>
    obtain ⟨y, given, same⟩ := made (f := Value.float) read
    cases same
    exact isDouble_of_floatValue given
  | bool =>
    obtain ⟨_, _, same⟩ := made (f := Value.bool) read
    cases same
  | int =>
    obtain ⟨_, _, same⟩ := made (f := Value.int) read
    cases same
  | binary =>
    obtain ⟨_, _, same⟩ := made (f := Value.bytes) read
    cases same
  | timestamp =>
    have read : timestampValue text = .ok (.float x) := read
    unfold timestampValue at read
    dsimp only at read
    split at read
    next d _ =>
      obtain ⟨_, _, same⟩ := made (f := fun _ => Value.date d) read
      cases same
    next m _ =>
      obtain ⟨_, _, same⟩ := made (f := fun _ => Value.moment m) read
      cases same
    next => cases read
  | _ => cases read

end Yaml

theorem isNumeralMark_of_readNumeral? {cs : List Char} {x : Binary64}
    (read : readNumeral? cs = some x) :
    ∀ c ∈ trimNumeral cs, isNumeralMark (plainDigit c) = true := by
  obtain ⟨js, joined, found⟩ := exists_of_readNumeral? read
  have marks : ∀ c ∈ js, isNumeralMark c = true := by
    refine mem_of_splitSign ⟨by decide, by decide⟩ ?_
    rcases found with word | magnitude
    · intro c hc
      have lower := List.mem_map_of_mem (f := Char.toLower) hc
      rw [← String.toList_ofList (l := (splitSign js).2.map Char.toLower)] at lower
      generalize String.ofList ((splitSign js).2.map Char.toLower) = w at word lower
      have known : ∀ w ∈ numberWords, w.toList.all "+-._einftya".toList.contains = true := by
        decide
      rw [isNumeralMark, List.all_eq_true.mp (known w word) _ lower, Bool.or_true]
    · exact isNumeralMark_of_readMagnitude magnitude
  intro c hc
  rcases mem_of_joinGroups joined _ (List.mem_map_of_mem hc) with bar | mem
  · rw [bar]
    decide
  · exact marks _ mem

end Gatehouse
