import Gatehouse.Initializer.Export

namespace Gatehouse

/-- A character that begins no pair ends the code points before it. -/
theorem points_append_cons {c : Char} (single : isLead c = false) (before after : List Char) :
    points (before ++ c :: after) = points (before ++ [c]) ++ points after := by
  induction before using points.induct with
  | case1 => simp [points_cons single, points]
  | case2 d =>
    cases lead : isLead d with
    | true => simp [points_pair lead, points]
    | false => simp [points_cons lead, points_cons single, points]
  | case3 d e rest lead ih => simp [points_pair lead, ih]
  | case4 d e rest lead ih =>
    have alone : isLead d = false := Bool.eq_false_iff.mpr lead
    have first (more : List Char) : points (d :: e :: rest ++ more) =
        singlePoint d :: points (e :: rest ++ more) := points_cons alone _
    rw [first, first, ih]
    rfl

namespace BytePiece

/-- A small byte is no part of what the bytes before it encode. -/
theorem follow_append {a : UInt8} (small : a.toNat < 0x80) (after taken bytes : List UInt8)
    (n count : Nat) {span : Span} (high : 0x80 ≤ span.first) :
    follow taken n count span (bytes ++ a :: after) =
      ((follow taken n count span bytes).1, (follow taken n count span bytes).2 ++ a :: after) := by
  induction bytes generalizing taken n count span with
  | nil =>
    cases count with
    | zero => rfl
    | succ more =>
      have outside : ¬span.Covers a.toNat := fun h => by
        have := h.1
        omega
      simp only [List.nil_append, follow, if_neg outside]
  | cons b rest ih =>
    cases count with
    | zero => rfl
    | succ more =>
      simp only [List.cons_append, follow]
      split
      next => exact ih _ _ _ (by decide)
      next => rfl

theorem length_follow (taken bytes : List UInt8) (n count : Nat) (span : Span) :
    (follow taken n count span bytes).2.length ≤ bytes.length := by
  induction bytes generalizing taken n count span with
  | nil => cases count <;> simp [follow]
  | cons b rest ih =>
    cases count with
    | zero => simp [follow]
    | succ more =>
      simp only [follow]
      split
      next =>
        have := ih (b :: taken) (n * 64 + (b.toNat - 0x80)) more followingSpan
        simp only [List.length_cons]
        omega
      next => exact Nat.le_refl _

theorem length_readFirst (b : UInt8) (rest : List UInt8) :
    (readFirst b rest).2.length ≤ rest.length := by
  unfold readFirst
  split
  next => exact Nat.le_refl _
  next =>
    split
    next => exact length_follow ..
    next => exact Nat.le_refl _

theorem readFirst_append {a : UInt8} (small : a.toNat < 0x80) (b : UInt8)
    (rest after : List UInt8) :
    readFirst b (rest ++ a :: after) =
      ((readFirst b rest).1, (readFirst b rest).2 ++ a :: after) := by
  have high {n : Nat} {lead : LeadByte} (h : LeadByte.ofByte? n = some lead) :
      0x80 ≤ lead.second.first := by
    unfold LeadByte.ofByte? at h
    repeat' split at h
    all_goals simp only [Option.some.injEq, reduceCtorEq] at h
    all_goals
      subst h
      simp [followingSpan]
  unfold readFirst
  split
  next => rfl
  next =>
    split
    next lead found => exact follow_append small after _ _ _ _ (high found)
    next => rfl

theorem readAll_of_le {n : Nat} {bytes : List UInt8} (h : bytes.length ≤ n) :
    readAll n bytes = ofBytes bytes := by
  induction n using Nat.strongRecOn generalizing bytes with
  | ind n ih =>
    cases bytes with
    | nil => cases n <;> rfl
    | cons b rest =>
      rw [List.length_cons] at h
      cases n with
      | zero => omega
      | succ n =>
        have fewer := length_readFirst b rest
        change (readFirst b rest).1 :: readAll n (readFirst b rest).2 =
          (readFirst b rest).1 :: readAll rest.length (readFirst b rest).2
        rw [ih n (by omega) (by omega), ih rest.length (by omega) fewer]

theorem ofBytes_cons (b : UInt8) (rest : List UInt8) :
    ofBytes (b :: rest) = (readFirst b rest).1 :: ofBytes (readFirst b rest).2 := by
  rw [ofBytes, List.length_cons, readAll]
  exact congrArg _ (readAll_of_le (length_readFirst b rest))

/-- What bytes encode does not depend on what follows behind a small one. -/
theorem ofBytes_append {a : UInt8} (small : a.toNat < 0x80) (bytes after : List UInt8) :
    ofBytes (bytes ++ a :: after) = ofBytes bytes ++ ofBytes (a :: after) := by
  match bytes with
  | [] => rfl
  | b :: rest =>
    rw [List.cons_append, ofBytes_cons, readFirst_append small, ofBytes_cons b rest,
      ofBytes_append small (readFirst b rest).2 after]
    rfl
termination_by bytes.length
decreasing_by
  have := length_readFirst b rest
  simp only [List.length_cons]
  omega

end BytePiece

theorem nameBytes_append_cons (start : List Char) {c : Char} (single : isLead c = false)
    (rest : List Char) : nameBytes (String.ofList (start ++ c :: rest)) =
      nameBytes (String.ofList (start ++ [c])) ++ nameBytes (String.ofList rest) := by
  simp only [nameBytes, String.toList_ofList, points_append_cons single start rest,
    List.flatMap_append]

/-- The end of a name, if it begins with a small byte, is known for itself. -/
theorem toList_knownName_append (start : List Char) {c : Char} (single : isLead c = false)
    {rest : List Char} {a : UInt8} {after : List UInt8}
    (bytes : nameBytes (String.ofList rest) = a :: after) (small : a.toNat < 0x80) :
    (knownName (String.ofList (start ++ c :: rest))).toList =
      (knownName (String.ofList (start ++ [c]))).toList
        ++ (knownName (String.ofList rest)).toList := by
  simp only [knownName, nameBytes_append_cons start single rest, bytes, String.toList_ofList,
    BytePiece.ofBytes_append small, List.flatMap_append]

section

variable {cs : List Char}

theorem points_small (small : ∀ c ∈ cs, c.toNat < 0x80) : points cs = cs.map Char.toNat := by
  induction cs with
  | nil => rfl
  | cons c rest ih =>
    have low := small c List.mem_cons_self
    have single : isLead c = false := by
      rw [isLead, decide_eq_false_iff_not, leadStart, halfShift]
      omega
    have whole : isHalf (c.toNat - halfShift) = false :=
      isHalf_eq_false (by rw [halfShift]; omega)
    rw [points_cons single, singlePoint, whole, if_neg Bool.false_ne_true, List.map_cons,
      ih fun d hd => small d (List.mem_cons_of_mem _ hd)]

theorem utf8EncodeChar_small {c : Char} (low : c.toNat < 0x80) :
    String.utf8EncodeChar c = [UInt8.ofNat c.toNat] := by
  rw [String.utf8EncodeChar, if_pos]
  · rfl
  · change c.toNat ≤ 0x7f
    omega

theorem nameBytes_small (small : ∀ c ∈ cs, c.toNat < 0x80) :
    nameBytes (String.ofList cs) = cs.map fun c => UInt8.ofNat c.toNat := by
  rw [nameBytes, String.toList_ofList, points_small small]
  induction cs with
  | nil => rfl
  | cons c rest ih =>
    have low := small c List.mem_cons_self
    have whole : isByteHalf c.toNat = false := by
      rw [isByteHalf, decide_eq_false_iff_not, byteHalfStart]
      omega
    rw [List.map_cons, List.flatMap_cons, ih fun d hd => small d (List.mem_cons_of_mem _ hd),
      whole, if_neg Bool.false_ne_true, Char.ofNat_toNat, utf8EncodeChar_small low]
    rfl

theorem ofBytes_small (small : ∀ c ∈ cs, c.toNat < 0x80) :
    BytePiece.ofBytes (cs.map fun c => UInt8.ofNat c.toNat) =
      cs.map fun c => .point c.toNat := by
  induction cs with
  | nil => rfl
  | cons c rest ih =>
    have low := small c List.mem_cons_self
    have byte : (UInt8.ofNat c.toNat).toNat = c.toNat := by
      rw [UInt8.toNat_ofNat']
      omega
    rw [List.map_cons, BytePiece.ofBytes_cons, BytePiece.readFirst, byte, if_pos low,
      ih fun d hd => small d (List.mem_cons_of_mem _ hd)]
    rfl

/-- A name of small characters is known by itself. -/
theorem knownName_small (small : ∀ c ∈ cs, c.toNat < 0x80) :
    knownName (String.ofList cs) = String.ofList cs := by
  rw [knownName, nameBytes_small small, ofBytes_small small]
  congr 1
  induction cs with
  | nil => rfl
  | cons c rest ih =>
    have low := small c List.mem_cons_self
    have whole : isHalf c.toNat = false := isHalf_eq_false (by omega)
    have plain : isReserved c.toNat = false := by
      rw [isReserved, decide_eq_false_iff_not, reservedStart, halfShift]
      omega
    rw [List.map_cons, List.flatMap_cons, ih fun d hd => small d (List.mem_cons_of_mem _ hd)]
    simp only [spellPoint, whole, plain, Bool.false_eq_true, if_false, Char.ofNat_toNat]
    rfl

end

/-- What the name of the file for a target ends with, behind the college. -/
def Profile.fileEnding (p : Profile) : List Char := p.fileSuffix.toList ++ "_step.rb".toList

theorem Profile.fileEnding_small (t : Target) :
    ∀ c ∈ (ofTarget t).fileEnding, c.toNat < 0x80 := by
  have small : (ofTarget t).fileEnding.all (fun c => decide (c.toNat < 0x80)) = true := by
    cases t <;> decide
  exact fun c hc => of_decide_eq_true (List.all_eq_true.mp small c hc)

/-- Where no ending is the tail of another, the ending of a text is known, and what stands before
it. -/
theorem eq_of_append_ending {ending : Target → List Char}
    (free : ∀ t u, ending t <:+ ending u → t = u) {cs ds : List Char} {t u : Target}
    (h : cs ++ ending t = ds ++ ending u) : cs = ds ∧ t = u := by
  have same : t = u := by
    have tail : ending t <:+ ds ++ ending u := ⟨cs, h⟩
    rcases List.suffix_or_suffix_of_suffix tail (List.suffix_append ds _) with tail | tail
    · exact free t u tail
    · exact (free u t tail).symm
  subst same
  exact ⟨List.append_cancel_right h, rfl⟩

theorem Profile.fileEnding_free (t u : Target) :
    (ofTarget t).fileEnding <:+ (ofTarget u).fileEnding → t = u := by
  cases t <;> cases u <;> decide

/-- The files for two targets are known by different names. -/
theorem eq_of_knownName_fileEnding (start : List Char) {t u : Target}
    (h : knownName (String.ofList (start ++ '_' :: (Profile.ofTarget t).fileEnding)) =
      knownName (String.ofList (start ++ '_' :: (Profile.ofTarget u).fileEnding))) : t = u := by
  have split (t : Target) : (knownName
      (String.ofList (start ++ '_' :: (Profile.ofTarget t).fileEnding))).toList =
      (knownName (String.ofList (start ++ ['_']))).toList ++ (Profile.ofTarget t).fileEnding := by
    have small := Profile.fileEnding_small t
    have some : ∃ a after, nameBytes (String.ofList (Profile.ofTarget t).fileEnding) = a :: after ∧
        a.toNat < 0x80 := by
      rw [nameBytes_small small]
      cases t <;> exact ⟨_, _, rfl, by decide⟩
    obtain ⟨a, after, bytes, low⟩ := some
    rw [toList_knownName_append start (by decide) bytes low, knownName_small small,
      String.toList_ofList]
  have endings := congrArg String.toList h
  rw [split, split] at endings
  exact (eq_of_append_ending Profile.fileEnding_free endings).2

/-- What stands behind the last separator can be longer. -/
theorem splitChars_append_whole (sep : Char → Bool) (cs : List Char) :
    ∃ front last, ∀ more, more.any sep = false →
      splitChars sep (cs ++ more) = front ++ [last ++ more] := by
  induction cs with
  | nil =>
    refine ⟨[], [], fun more whole => ?_⟩
    change splitChars sep more = [more]
    induction more with
    | nil => rfl
    | cons c more ih =>
      rw [List.any_cons, Bool.or_eq_false_iff] at whole
      rw [splitChars, whole.1, ih whole.2]
      rfl
  | cons c rest ih =>
    obtain ⟨front, last, split⟩ := ih
    cases hc : sep c with
    | true =>
      refine ⟨[] :: front, last, fun more whole => ?_⟩
      rw [List.cons_append, splitChars, hc, split more whole]
      rfl
    | false =>
      cases front with
      | nil =>
        refine ⟨[], c :: last, fun more whole => ?_⟩
        rw [List.cons_append, splitChars, hc, split more whole]
        rfl
      | cons piece front =>
        refine ⟨(c :: piece) :: front, last, fun more whole => ?_⟩
        rw [List.cons_append, splitChars, hc, split more whole]
        rfl

theorem splitChars_whole_append (sep : Char → Bool) {cs : List Char}
    (whole : cs.any sep = false) (more : List Char) :
    ∃ first rest, splitChars sep (cs ++ more) = (cs ++ first) :: rest := by
  induction cs with
  | nil =>
    cases h : splitChars sep more with
    | nil =>
      exfalso
      cases more with
      | nil => cases h
      | cons c more =>
        rw [splitChars] at h
        split at h
        next => cases h
        next => split at h <;> cases h
    | cons first rest => exact ⟨first, rest, h⟩
  | cons c cs ih =>
    rw [List.any_cons, Bool.or_eq_false_iff] at whole
    obtain ⟨first, rest, split⟩ := ih whole.2
    refine ⟨first, rest, ?_⟩
    rw [List.cons_append, splitChars, whole.1, split]
    rfl

namespace Profile

theorem toList_fileName (p : Profile) (college : String) :
    (p.fileName college).toList =
      ("initialize_" ++ college).toList ++ '_' :: p.fileEnding := by
  simp [fileName, fileEnding]

/-- A part with such an ending says where to go. -/
theorem plain_fileEnding (start : List Char) (t : Target) :
    let last := String.ofList (start ++ '_' :: (ofTarget t).fileEnding)
    last ≠ "" ∧ last ≠ "." ∧ last ≠ ".." := by
  have long (s : String) (h : s.toList.length < 3) :
      String.ofList (start ++ '_' :: (ofTarget t).fileEnding) ≠ s := by
    rintro rfl
    have two : 2 ≤ (ofTarget t).fileEnding.length := by cases t <;> decide
    simp only [String.toList_ofList, List.length_append, List.length_cons] at h
    omega
  exact ⟨long "" (by decide), long "." (by decide), long ".." (by decide)⟩

/-- The names of the files differ in their last parts only. -/
theorem parts_fileName (college : String) :
    ∃ front start, ∀ t, (Pathname.ofText ((ofTarget t).fileName college)).parts =
      front ++ [String.ofList (start ++ '_' :: (ofTarget t).fileEnding)] := by
  obtain ⟨front, last, split⟩ :=
    splitChars_append_whole (· == '/') ("initialize_" ++ college).toList
  refine ⟨(front.map String.ofList).filter fun p => p ≠ "" ∧ p ≠ ".", last, fun t => ?_⟩
  have whole : ('_' :: (ofTarget t).fileEnding).any (· == '/') = false := by
    cases t <;> decide
  obtain ⟨some, other, -⟩ := plain_fileEnding last t
  simp only [Pathname.ofText, Pathname.pieces, toList_fileName, split _ whole, List.map_append,
    List.filter_append]
  congr 1
  rw [List.map_singleton, List.filter_cons_of_pos]
  · rfl
  · exact decide_eq_true ⟨some, other⟩

theorem head_fileName (p : Profile) (college : String) :
    ∃ first rest, (Pathname.ofText (p.fileName college)).parts = first :: rest ∧
      first ≠ "" ∧ first ≠ "." ∧ first ≠ ".." := by
  obtain ⟨more, rest, split⟩ := splitChars_whole_append (· == '/')
    (by decide : "initialize_".toList.any (· == '/') = false)
    (college.toList ++ '_' :: p.fileEnding)
  have other (s : String) (h : s.toList.length < 11) :
      String.ofList ("initialize_".toList ++ more) ≠ s := by
    rintro rfl
    rw [String.toList_ofList, List.length_append] at h
    have : "initialize_".toList.length = 11 := by decide
    omega
  refine ⟨String.ofList ("initialize_".toList ++ more),
    (rest.map String.ofList).filter fun p => p ≠ "" ∧ p ≠ ".", ?_, other "" (by decide),
    other "." (by decide), other ".." (by decide)⟩
  simp only [Pathname.ofText, Pathname.pieces, toList_fileName, String.toList_append,
    List.append_assoc, split, List.map_cons]
  exact List.filter_cons_of_pos (decide_eq_true ⟨other "" (by decide), other "." (by decide)⟩)

theorem path_eq (p : Profile) (directory : Pathname) (college : String) :
    p.path directory college = { directory with
      parts := directory.parts ++ (Pathname.ofText (p.fileName college)).parts } := by
  have relative : (Pathname.ofText (p.fileName college)).isAbsolute = false := by
    have slashes : (p.fileName college).toList.takeWhile (· == '/') = [] := by
      rw [toList_fileName, String.toList_append]
      rfl
    simp [Pathname.isAbsolute, Pathname.ofText, Pathname.leadingSlashes, slashes]
  rw [path, Pathname.join, relative, if_neg Bool.false_ne_true]

/-- What the name of the class for a target ends with, behind the college. -/
def classEnding (p : Profile) : List Char := p.classSuffix.toList ++ "Step".toList

theorem classEnding_free (t u : Target) :
    (ofTarget t).classEnding <:+ (ofTarget u).classEnding → t = u := by
  cases t <;> cases u <;> decide

theorem toList_className (p : Profile) (college : String) :
    (p.className college).toList =
      "Initialize".toList ++ ((capitalize college).toList ++ p.classEnding) := by
  simp [className, classEnding]

/-- Files are named apart for different colleges or targets, and so are classes, but for colleges
that differ in the case of their first character only. -/
theorem names_eq_iff (t u : Target) (college other : String) :
    ((ofTarget t).fileName college = (ofTarget u).fileName other ↔ college = other ∧ t = u) ∧
      ((ofTarget t).className college = (ofTarget u).className other ↔
        capitalize college = capitalize other ∧ t = u) := by
  constructor
  · constructor
    · intro same
      have chars := congrArg String.toList same
      rw [toList_fileName, toList_fileName, List.append_cons,
        List.append_cons ("initialize_" ++ other).toList] at chars
      obtain ⟨front, rfl⟩ := eq_of_append_ending fileEnding_free chars
      rw [List.append_cancel_right_eq, String.toList_append, String.toList_append,
        List.append_cancel_left_eq, String.toList_inj] at front
      exact ⟨front, rfl⟩
    · rintro ⟨rfl, rfl⟩
      rfl
  · constructor
    · intro same
      have chars := congrArg String.toList same
      rw [toList_className, toList_className, List.append_cancel_left_eq] at chars
      obtain ⟨front, rfl⟩ := eq_of_append_ending classEnding_free chars
      exact ⟨String.toList_inj.mp front, rfl⟩
    · rintro ⟨capitals, rfl⟩
      rw [className, className, capitals]

end Profile

end Gatehouse
