import Gatehouse.CommandLine.Closest
import Gatehouse.CommandLine.Usage

namespace Gatehouse

/-- An option of a command, by its long name and its letter. -/
structure OptionRule where
  long : String
  letter : Option Char
  takesValue : Bool

/-- An option that is given, by its long name, and its value. -/
structure GivenOption where
  long : String
  value : Option String

/-- The options that are given, in order, and the other words. -/
structure ParsedWords where
  options : List GivenOption
  rest : List String

namespace OptionRule

def help : OptionRule := ⟨"--help", none, false⟩

/-- The option with the value behind it, which may look like an option itself. -/
def give (r : OptionRule) (name : String) (rest : List String) :
    Except UsageFault (GivenOption × List String) :=
  if r.takesValue then
    match rest with
    | value :: rest => .ok (⟨r.long, some value⟩, rest)
    | [] => .error (.missingValue name)
  else .ok (⟨r.long, none⟩, rest)

/-- A long name, maybe with an equals sign and a value. -/
def giveLong (rules : List OptionRule) (word : String) (rest : List String) :
    Except UsageFault (GivenOption × List String) :=
  let name := String.ofList (word.toList.takeWhile (· ≠ '='))
  let value := (word.toList.dropWhile (· ≠ '=')).tail?
  match rules.find? fun r => r.long == name with
  | none => .error (.unknownOption name (closestWords (rules.map OptionRule.long) name))
  | some r =>
    match value with
    | none => r.give name rest
    | some cs =>
      if r.takesValue then r.give name (String.ofList cs :: rest) else .error (.needlessValue name)

/-- Letters behind one dash; the rest of the word is the value of the first that takes one. -/
def giveLetters (rules : List OptionRule) (rest : List String) :
    List (List Char) → Except UsageFault (List GivenOption × List String)
  | [] => .ok ([], rest)
  | letter :: more =>
    let name := String.ofList ('-' :: letter)
    match rules.find? fun r => r.letter.toList == letter with
    | none => .error (.unknownOption name [])
    | some r =>
      if r.takesValue then do
        let words := if more = [] then rest else String.ofList more.flatten :: rest
        let (given, rest) ← r.give name words
        return ([given], rest)
      else do
        let (given, rest) ← giveLetters rules rest more
        return (⟨r.long, none⟩ :: given, rest)

/-- A word that starts with a dash. -/
def giveWord (rules : List OptionRule) (word : String) (rest : List String) :
    Except UsageFault (List GivenOption × List String) :=
  if "--".toList.isPrefixOf word.toList then do
    let (given, rest) ← giveLong rules word rest
    return ([given], rest)
  else giveLetters rules rest (symbols (word.toList.drop 1))

end OptionRule

/-- Parts options from other words. Two dashes end the options; so does the first other word if
options must come first. -/
def parseWords (rules : List OptionRule) (optionsFirst : Bool) :
    Nat → List String → Except UsageFault ParsedWords
  | 0, words => .ok ⟨[], words⟩
  | _, [] => .ok ⟨[], []⟩
  | n + 1, word :: rest =>
    if word = "--" then .ok ⟨[], rest⟩
    else if word.toList.head? = some '-' ∧ word ≠ "-" then do
      let (given, rest) ← OptionRule.giveWord rules word rest
      let more ← parseWords rules optionsFirst n rest
      return ⟨given ++ more.options, more.rest⟩
    else if optionsFirst then .ok ⟨[], word :: rest⟩
    else do
      let more ← parseWords rules optionsFirst n rest
      return ⟨more.options, word :: more.rest⟩

namespace ParsedWords

def ofWords (rules : List OptionRule) (optionsFirst : Bool) (words : List String) :
    Except UsageFault ParsedWords :=
  parseWords (rules ++ [OptionRule.help]) optionsFirst (words.length + 1) words

def has (p : ParsedWords) (long : String) : Bool := p.options.any fun o => o.long == long

/-- The values of an option, in order. -/
def values (p : ParsedWords) (long : String) : List String :=
  (p.options.filter fun o => o.long == long).filterMap GivenOption.value

/-- The value given last. -/
def value? (p : ParsedWords) (long : String) : Option String := (p.values long).getLast?

end ParsedWords

end Gatehouse
