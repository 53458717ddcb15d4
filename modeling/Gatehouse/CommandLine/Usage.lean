import Gatehouse.FileTree.NameBytes
import Gatehouse.Target
import Gatehouse.Text.Quoted
import Gatehouse.Value

namespace Gatehouse

/-- What is wrong with the words of a command. -/
inductive UsageFault where
  | unknownOption (name : String) (closest : List String)
  | unknownCommand (name : String) (closest : List String)
  | missingCommand
  | missingValue (option : String)
  | needlessValue (option : String)
  | missingFile
  | noSuchFile (path : String)
  | missingTargetOption
  | missingTargetArgument
  | badTargetOption (given : String)
  | badTargetArgument (given : String)
  | extraArguments (words : List String)
  | missingCollege

namespace UsageFault

def fileLabel : String := "'WORKFLOW_FILE'"

def targetOptionLabel : String := "'--target' / '-t'"

def targetNames : List String := Target.all.map Target.name

def targetArgumentLabel : String :=
  "'\x7b" ++ String.intercalate "|" targetNames ++ "\x7d'"

def choices : String := " Choose from:\n\t" ++ String.intercalate ",\n\t" targetNames

def badTarget (label given : String) : String :=
  "Invalid value for " ++ label ++ ": " ++ displayText given ++ " is not one of "
    ++ commaSeparated (targetNames.map displayText) ++ "."

/-- Words that may have been meant. -/
def suggestion : List String → String
  | [] => ""
  | [word] => " Did you mean " ++ displayText word ++ "?"
  | words => " (Did you mean one of: " ++ commaSeparated (words.map displayText) ++ "?)"

def message : UsageFault → String
  | unknownOption name closest =>
    "No such option " ++ displayText name ++ "." ++ suggestion closest
  | unknownCommand name closest =>
    "No such command " ++ displayText name ++ "." ++ suggestion closest
  | missingCommand => "Missing command."
  | missingValue option => "Option " ++ displayText option ++ " requires an argument."
  | needlessValue option => "Option " ++ displayText option ++ " does not take a value."
  | missingFile => "Missing argument " ++ fileLabel ++ "."
  | noSuchFile path =>
    "Invalid value for " ++ fileLabel ++ ": Path " ++ displayText (shownName path)
      ++ " does not exist."
  | missingTargetOption => "Missing option " ++ targetOptionLabel ++ "." ++ choices
  | missingTargetArgument => "Missing argument " ++ targetArgumentLabel ++ "." ++ choices
  | badTargetOption given => badTarget targetOptionLabel given
  | badTargetArgument given => badTarget targetArgumentLabel given
  | extraArguments [word] => "Got unexpected extra argument (" ++ word ++ ")"
  | extraArguments words =>
    "Got unexpected extra arguments (" ++ String.intercalate " " words ++ ")"
  | missingCollege => "A college is required (--college or FLOWINIT_DEFAULT_COLLEGE)."

end UsageFault

end Gatehouse
