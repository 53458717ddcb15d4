namespace Gatehouse

/-- Carriage returns, alone or before a line feed, become line feeds. -/
def normalizeNewlines : List Char → List Char
  | '\r' :: '\n' :: rest => '\n' :: normalizeNewlines rest
  | '\r' :: rest => '\n' :: normalizeNewlines rest
  | c :: rest => c :: normalizeNewlines rest
  | [] => []

/-- The text does not run over the end of a line. -/
def IsOneLine (s : String) : Prop := '\n' ∉ s.toList

instance (s : String) : Decidable (IsOneLine s) := inferInstanceAs (Decidable (_ ∉ _))

@[simp] theorem isOneLine_append {s t : String} :
    IsOneLine (s ++ t) ↔ IsOneLine s ∧ IsOneLine t := by
  simp [IsOneLine]

@[simp] theorem isOneLine_ofList {cs : List Char} : IsOneLine (String.ofList cs) ↔ '\n' ∉ cs := by
  simp [IsOneLine]

/-- One text of all lines, a line feed after each. -/
def unlines (lines : List String) : String := String.join (lines.map (· ++ "\n"))

theorem unlines_nil : unlines [] = "" := rfl

theorem unlines_append (lines more : List String) :
    unlines (lines ++ more) = unlines lines ++ unlines more := by
  rw [unlines, List.map_append, String.join_append]
  rfl

theorem unlines_cons (line : String) (rest : List String) :
    unlines (line :: rest) = line ++ "\n" ++ unlines rest := String.join_cons

theorem toList_unlines (lines : List String) :
    (unlines lines).toList = lines.flatMap fun line => line.toList ++ ['\n'] := by
  induction lines with
  | nil => rfl
  | cons line rest ih =>
    rw [unlines_cons, String.toList_append, String.toList_append, ih, List.flatMap_cons]
    rfl

/-- Lines that are given by their characters. -/
theorem unlines_ofList (css : List (List Char)) :
    unlines (css.map String.ofList) = String.ofList (css.flatMap (· ++ ['\n'])) := by
  induction css with
  | nil => rfl
  | cons cs rest ih =>
    rw [List.flatMap_cons, String.ofList_append, ← ih]
    exact (unlines_cons _ _).trans (congrArg (· ++ _) String.ofList_append.symm)

end Gatehouse
