import Gatehouse.Proofs.CodeRun
import Gatehouse.Proofs.OutputNames
import Gatehouse.Text.ControlSequence
import Gatehouse.Text.Encoding
import Mathlib.Data.List.TakeWhile

namespace Gatehouse

section

variable {cs rest after : List Char}

theorem sublist_of_afterSequence? {c : Char} (h : afterSequence? (c :: rest) = some after) :
    after.Sublist rest := by
  unfold afterSequence? at h
  split at h
  next rest eq =>
    obtain ⟨-, rfl⟩ := List.cons.inj eq
    split at h
    next e _ ended =>
      split at h
      next =>
        cases h
        have sub := (List.dropWhile_sublist markSpan.has).trans
          (List.dropWhile_sublist (l := rest) parameterSpan.has)
        rw [ended] at sub
        exact ((List.sublist_cons_self e _).trans sub).trans (List.sublist_cons_self _ _)
      next => cases h
    next => cases h
  next => cases h

theorem dropSequences_sublist (n : Nat) (cs : List Char) : (dropSequences n cs).Sublist cs := by
  induction n generalizing cs with
  | zero => exact .refl cs
  | succ n ih =>
    cases cs with
    | nil => exact .refl []
    | cons c rest =>
      rw [dropSequences]
      split
      next after found =>
        exact ((ih after).trans (sublist_of_afterSequence? found)).trans
          (List.sublist_cons_self c rest)
      next => exact (ih rest).cons_cons c

/-- A control sequence is not printed. -/
theorem length_dropSequences_lt (before : List Char) (h : afterSequence? cs = some after)
    {n : Nat} (enough : before.length < n) :
    (dropSequences n (before ++ cs)).length < (before ++ cs).length := by
  -- what a sequence at the front leaves is shorter
  have dropped {n : Nat} {c : Char} {rest later : List Char}
      (found : afterSequence? (c :: rest) = some later) :
      (dropSequences n later).length < (c :: rest).length := by
    have fewer := ((dropSequences_sublist n later).trans (sublist_of_afterSequence? found)).length_le
    rw [List.length_cons]
    omega
  induction before generalizing n with
  | nil =>
    cases n with
    | zero => exact absurd enough (Nat.not_lt_zero _)
    | succ n =>
      cases cs with
      | nil => cases h
      | cons c rest =>
        rw [List.nil_append, dropSequences, h]
        exact dropped h
  | cons c before ih =>
    cases n with
    | zero => exact absurd enough (Nat.not_lt_zero _)
    | succ n =>
      rw [List.cons_append, dropSequences]
      split
      next later found => exact dropped found
      next => exact Nat.succ_lt_succ (ih (Nat.lt_of_succ_lt_succ enough))

end

section

/-- The text holds characters of one byte only. -/
def IsSmallText (s : String) : Prop := ∀ c ∈ s.toList, c.toNat < 0x80

instance (s : String) : Decidable (IsSmallText s) := List.decidableBAll ..

variable {text more : String}

theorem isSmallText_ofList {cs : List Char} (h : cs.all (·.toNat < 0x80) = true) :
    IsSmallText (String.ofList cs) := by
  rw [IsSmallText, String.toList_ofList]
  simpa using h

theorem isSmallText_append :
    IsSmallText (text ++ more) ↔ IsSmallText text ∧ IsSmallText more := by
  simp only [IsSmallText, String.toList_append, List.forall_mem_append]

theorem IsSmallText.append (h : IsSmallText text) (h' : IsSmallText more) :
    IsSmallText (text ++ more) :=
  isSmallText_append.mpr ⟨h, h'⟩

theorem isSmallText_unlines {lines : List String} (h : ∀ line ∈ lines, IsSmallText line) :
    IsSmallText (unlines lines) := by
  induction lines with
  | nil => exact (by decide : IsSmallText "")
  | cons line rest ih =>
    rw [List.forall_mem_cons] at h
    rw [unlines_cons]
    exact (h.1.append (by decide)).append (ih h.2)

theorem IsSmallText.plainText (h : IsSmallText text) : IsSmallText (plainText text) := by
  intro c hc
  rw [Gatehouse.plainText, String.toList_ofList] at hc
  exact h c ((dropSequences_sublist _ _).subset hc)

theorem IsSmallText.encodingFault? (h : IsSmallText text) : encodingFault? text = none := by
  have whole : ∀ n ∈ points text.toList, isHalf n = false := by
    rw [points_small h]
    intro n hn
    obtain ⟨c, hc, rfl⟩ := List.mem_map.mp hn
    exact isHalf_eq_false (by have := h c hc; omega)
  have front : (points text.toList).takeWhile (!isHalf ·) = points text.toList :=
    List.takeWhile_eq_self_iff.mpr fun n hn => by rw [whole n hn]; rfl
  simp [Gatehouse.encodingFault?, faultAmong, front]

theorem IsSmallText.encodeText (h : IsSmallText text) : encodeText text = text.toUTF8 := by
  have same : unspellText text = text := by
    simp [unspellText, points_small h, Function.comp_def, Char.ofNat_toNat]
  rw [Gatehouse.encodeText, same]

end

end Gatehouse
