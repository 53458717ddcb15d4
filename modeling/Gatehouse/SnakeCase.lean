import Gatehouse.Text.Blank
import Gatehouse.Text.Casing

namespace Gatehouse

def isSnakeChar (c : Char) : Bool := c.isLower || c.isDigit || c == '_'

/-- Leaves one underscore of each run of them. -/
def squeezeUnderscores : List Char → List Char
  | [] => []
  | [c] => [c]
  | c :: d :: rest =>
    if c = '_' ∧ d = '_' then squeezeUnderscores (d :: rest)
    else c :: squeezeUnderscores (d :: rest)

/-- Blanks become underscores before all but small letters, digits and underscores is dropped. -/
def snakeChars (cs : List Char) : List Char :=
  squeezeUnderscores
    (((lowerChars cs).map fun c => if isBlank c then '_' else c).filter isSnakeChar)

/-- A title as the name of a field: small letters, digits and single underscores. -/
def snakeCase (s : String) : String := String.ofList (snakeChars s.toList)

theorem squeezeUnderscores_sublist (cs : List Char) : (squeezeUnderscores cs).Sublist cs := by
  fun_induction squeezeUnderscores cs with
  | case1 => exact .slnil
  | case2 c => exact .refl _
  | case3 _ _ _ _ ih => exact ih.cons _
  | case4 _ _ _ _ ih => exact ih.cons_cons _

theorem isSnakeChar_of_mem_snakeCase {s : String} {c : Char} (h : c ∈ (snakeCase s).toList) :
    isSnakeChar c = true := by
  rw [snakeCase, String.toList_ofList] at h
  exact (List.mem_filter.mp ((squeezeUnderscores_sublist _).subset h)).2

end Gatehouse
