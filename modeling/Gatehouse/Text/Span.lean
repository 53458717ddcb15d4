namespace Gatehouse

/-- An inclusive range of code points. -/
structure Span where
  first : Nat
  last : Nat

namespace Span

def Covers (s : Span) (n : Nat) : Prop := s.first ≤ n ∧ n ≤ s.last

instance (s : Span) (n : Nat) : Decidable (s.Covers n) :=
  inferInstanceAs (Decidable (_ ∧ _))

end Span

/-- Whether some range of the table holds the character. -/
def inTable (table : List Span) (c : Char) : Bool :=
  table.any fun s => decide (s.Covers c.toNat)

theorem inTable_iff {table : List Span} {c : Char} :
    inTable table c = true ↔ ∃ s ∈ table, s.Covers c.toNat := by
  simp [inTable]

end Gatehouse
