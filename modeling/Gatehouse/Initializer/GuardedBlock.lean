import Gatehouse.Text.Lines

namespace Gatehouse

/-- Fields that are set if a predicate holds, or unless it does. -/
structure GuardedBlock where
  remark : String
  negated : Bool
  predicate : String
  fields : List String

namespace GuardedBlock

def setLine (field : String) : String := "      fields[\"" ++ field ++ "\"] = true"

theorem toList_setLine (field : String) :
    (setLine field).toList =
      "      fields[\"".toList ++ (field.toList ++ "\"] = true".toList) := by
  change ("      fields[\"" ++ field ++ "\"] = true").toList = _
  rw [String.toList_append, String.toList_append, List.append_assoc]

def guardWord (b : GuardedBlock) : String := if b.negated then "unless" else "if"

def lines (b : GuardedBlock) : List String :=
  ["    # " ++ b.remark, "    " ++ b.guardWord ++ " " ++ b.predicate]
    ++ b.fields.map setLine ++ ["    end", ""]

def text (b : GuardedBlock) : String := unlines b.lines

end GuardedBlock

/-- Blocks under a heading; without blocks there is no heading. -/
def headedBlocks (heading : String) (blocks : List GuardedBlock) : String :=
  if blocks.isEmpty then ""
  else "    # " ++ heading ++ "\n" ++ String.join (blocks.map GuardedBlock.text)

end Gatehouse
