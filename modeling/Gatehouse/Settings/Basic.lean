import Gatehouse.FileTree.Basic
import Gatehouse.Settings.Dotenv
import Gatehouse.Text.Casing
import Gatehouse.Text.Lines

namespace Gatehouse

structure Settings where
  logLevel : String
  logFormat : String
  defaultCollege : Option String
  outputDir : String

/-- Names with the texts that they are bound to. -/
abbrev Environment := List (String × String)

namespace Settings

def keyStart : String := "flowinit_"

/-- Bindings by their names in small letters; the last one of a name counts, also if it has no
text. -/
def byName (bindings : List (String × Option String)) : Keyed (Option String) :=
  Keyed.ofList (bindings.map fun b => (lowerText b.1, b.2))

def bound? (bindings : Keyed (Option String)) (name : String) : Option String :=
  (bindings.get? (keyStart ++ name)).join

/-- The environment goes before the settings file, and that before the defaults. -/
def ofBindings (env file : Keyed (Option String)) : Settings :=
  let setting (name : String) : Option String := (bound? env name).or (bound? file name)
  ⟨(setting "log_level").getD "INFO", (setting "log_format").getD "console",
    setting "default_college", (setting "output_dir").getD "initializers"⟩

def filePath : Pathname := .ofText ".env"

/-- The text of the settings file, which is empty if there is no file; none if it is no Unicode. -/
def fileText? (t : FileTree) : Option String :=
  match t.read filePath with
  | .error _ => some ""
  | .ok content => (decodeText? content).map fun text =>
      String.ofList (normalizeNewlines text.toList)

/-- The settings in an environment and a directory; none if the settings file is no Unicode text. -/
def read? (env : Environment) (t : FileTree) : Option Settings :=
  (fileText? t).map fun text =>
    ofBindings (byName (env.map fun b => (b.1, some b.2))) (byName (Dotenv.bindings env text))

/-- One line for each statement of the settings file that cannot be read. -/
def warnings (t : FileTree) : List String :=
  (Dotenv.brokenLines ((fileText? t).getD "")).map fun line =>
    "python-dotenv could not parse statement starting at line " ++ toString line

end Settings

end Gatehouse
