namespace Gatehouse

/-- The needle stands somewhere in the text as one piece. -/
def occursIn (needle : List Char) : List Char → Bool
  | [] => needle.isEmpty
  | c :: rest => needle.isPrefixOf (c :: rest) || occursIn needle rest

theorem occursIn_iff {needle text : List Char} :
    occursIn needle text = true ↔ needle <:+: text := by
  induction text with
  | nil => simp [occursIn]
  | cons c rest ih =>
    rw [occursIn, Bool.or_eq_true, ih, List.isPrefixOf_iff_prefix, List.infix_cons_iff]

def mentions (text fragment : String) : Bool := occursIn fragment.toList text.toList

theorem mentions_iff {text fragment : String} :
    mentions text fragment = true ↔ fragment.toList <:+: text.toList := occursIn_iff

/-- The pieces between the separators; one more than there are separators. -/
def splitChars (sep : Char → Bool) : List Char → List (List Char)
  | [] => [[]]
  | c :: rest =>
    if sep c then [] :: splitChars sep rest
    else match splitChars sep rest with
      | [] => [[c]]
      | piece :: pieces => (c :: piece) :: pieces

end Gatehouse
