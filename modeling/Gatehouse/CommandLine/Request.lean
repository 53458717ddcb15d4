import Gatehouse.CommandLine.Options
import Gatehouse.FileTree.Basic

namespace Gatehouse

/-- What is asked for once the words of a command are understood. -/
inductive Request where
  | help
  | version
  | validate (file : String) (verbose : Bool)
  | branches (file : String) (target : Option Target)
  | category (target : Target)
  | generateOne (file : String) (college : Option String) (target : Target) (output : Option String)
  | generateAll (file : String) (college : Option String) (targets : List Target)
      (output : Option String) (force : Bool)

inductive CommandName where
  | validate
  | branches
  | category
  | generateOne
  | generateAll
  deriving DecidableEq

inductive Group where
  | workflow
  | generate
  deriving DecidableEq

namespace Group

def named : List (String × Group) := [("workflow", workflow), ("generate", generate)]

def commands : Group → List (String × CommandName)
  | workflow => [("validate", .validate), ("branches", .branches), ("category", .category)]
  | generate => [("initializer", .generateOne), ("all", .generateAll)]

def options : Group → List OptionRule
  | workflow => []
  | generate => [⟨"--verbose", some 'v', false⟩]

end Group

/-- What a word names, and the words behind it. -/
abbrev Choice (α : Type) := Except UsageFault (α × List String)

/-- Looks the first word up among names. -/
def chooseByName {α : Type} (names : List (String × α)) : List String → Choice α
  | [] => .error .missingCommand
  | word :: rest =>
    match names.lookup word with
    | some a => .ok (a, rest)
    | none => .error (.unknownCommand word (closestWords (names.map Prod.fst) word))

/-- What the words before the name of a command ask for. -/
inductive Start where
  | help
  | version
  | command (name : CommandName) (verbose : Bool) (words : List String)

def rootOptions : List OptionRule := [⟨"--version", none, false⟩]

/-- The options of a group, and the words from the name of a command on. A word that names no
command but looks like an option is read once more, together with those behind it. -/
def readGroup {α : Type} (rules : List OptionRule) (names : List (String × α))
    (words : List String) : Except UsageFault (ParsedWords × Choice α) := do
  let parsed ← ParsedWords.ofWords rules true words
  let isOption (word : String) : Bool :=
    (names.lookup word).isNone && word.toList.head? == some '-'
  let again ← if parsed.rest.head?.any isOption then ParsedWords.ofWords rules true parsed.rest
    else pure ⟨[], []⟩
  return ({ parsed with options := parsed.options ++ again.options },
    chooseByName names parsed.rest)

/-- Reads the words before those of a command; the first option that answers at once wins. -/
def readStart (words : List String) : Except UsageFault Start := do
  let (root, group) ← readGroup rootOptions Group.named words
  match root.options.head? with
  | some o => return if o.long = "--version" then .version else .help
  | none =>
    if words = [] then return .help
    let (group, words) ← group
    let (parsed, command) ← readGroup group.options group.commands words
    if words = [] ∨ parsed.has "--help" then return .help
    let (name, words) ← command
    return .command name (parsed.has "--verbose") words

def targetRule : OptionRule := ⟨"--target", some 't', true⟩

def collegeRule : OptionRule := ⟨"--college", some 'c', true⟩

def outputRule : OptionRule := ⟨"--output", some 'o', true⟩

namespace CommandName

def options : CommandName → List OptionRule
  | validate => [⟨"--verbose", some 'v', false⟩]
  | branches => [targetRule]
  | category => []
  | generateOne => [collegeRule, targetRule, outputRule]
  | generateAll => [collegeRule, targetRule, outputRule, ⟨"--force", some 'f', false⟩]

end CommandName

def readTarget (fault : String → UsageFault) (name : String) : Except UsageFault Target :=
  match Target.ofName? name with
  | some t => .ok t
  | none => .error (fault name)

/-- The only word that is no option. -/
def onlyWord (missing : UsageFault) : List String → Except UsageFault String
  | [] => .error missing
  | word :: _ => .ok word

/-- Why the words of a command give no request. -/
inductive RequestFault where
  | usage (fault : UsageFault)
  | path (fault : FileFault)

def checkExtra (words : List String) : Except RequestFault Unit :=
  if words.length ≤ 1 then .ok () else .error (.usage (.extraArguments (words.drop 1)))

/-- How a path is asked for: whether something stands there, unless the system does not take it. -/
abbrev Reaches := String → Except FileFault Bool

/-- The workflow file, which must be there. -/
def readFile (reaches : Reaches) (words : List String) : Except RequestFault String := do
  let path ← (onlyWord .missingFile words).mapError RequestFault.usage
  let isThere ← (reaches path).mapError RequestFault.path
  if isThere then return path else .error (.usage (.noSuchFile path))

def requireTarget : Option Target → Except RequestFault Target
  | some t => .ok t
  | none => .error (.usage .missingTargetOption)

/-- The values of an option that count: all of them, or only the one given last. -/
def ParsedWords.counted (p : ParsedWords) (many : Bool) (long : String) : List String :=
  if many then p.values long else (p.value? long).toList

/-- Looks at the values of an option. -/
def checkOption (reaches : Reaches) (long : String) (values : List String) :
    Except RequestFault Unit :=
  values.forM fun v =>
    if long = targetRule.long then
      (readTarget .badTargetOption v).map (fun _ => ()) |>.mapError RequestFault.usage
    else if long = outputRule.long then (reaches v).map (fun _ => ()) |>.mapError RequestFault.path
    else .ok ()

/-- Looks at the options in the order in which they are first given. -/
def checkOptions (reaches : Reaches) (p : ParsedWords) (manyTargets : Bool) :
    Except RequestFault Unit :=
  (p.options.map GivenOption.long).eraseDups.forM fun long =>
    checkOption reaches long (p.counted (manyTargets && long == targetRule.long) long)

def ParsedWords.targets (p : ParsedWords) : List Target :=
  (p.values targetRule.long).filterMap Target.ofName?

/-- Options that are given are looked at first, then the file, then what is missing, and then what
there is too much of. -/
def readRequest (reaches : Reaches) (name : CommandName) (words : List String) :
    Except RequestFault Request := do
  let p ← (ParsedWords.ofWords name.options false words).mapError RequestFault.usage
  if p.has "--help" then return .help
  checkOptions reaches p (name = .generateAll)
  match name with
  | .validate =>
    let file ← readFile reaches p.rest
    checkExtra p.rest
    return .validate file (p.has "--verbose")
  | .branches =>
    let file ← readFile reaches p.rest
    checkExtra p.rest
    return .branches file p.targets.getLast?
  | .category =>
    let word ← (onlyWord .missingTargetArgument p.rest).mapError RequestFault.usage
    let target ← (readTarget .badTargetArgument word).mapError RequestFault.usage
    checkExtra p.rest
    return .category target
  | .generateOne =>
    let file ← readFile reaches p.rest
    let target ← requireTarget p.targets.getLast?
    checkExtra p.rest
    return .generateOne file (p.value? "--college") target (p.value? "--output")
  | .generateAll =>
    let file ← readFile reaches p.rest
    checkExtra p.rest
    return .generateAll file (p.value? "--college") p.targets (p.value? "--output")
      (p.has "--force")

end Gatehouse
