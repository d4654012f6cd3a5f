import Reckon.Calculator.Arithmetic
import Reckon.Calculator.Logic
import Reckon.Limits.Overrides
import Reckon.Text.Blank
import Reckon.Text.Lines

/-!
# CommandLine — a run of the program on its input

Each line of the input is answered by itself: a line `logic` followed by white space and a formula by
a truth table, any other by the value of its arithmetic, and **an error in it by a message, after
which the next line is read**.  Only limits that cannot be read, a line that is not UTF-8, and one whose
answer is broken off by a misuse, end the run early.
-/

namespace Reckon.CommandLine

/-- What a run leaves behind. -/
structure Outcome where
  exitCode : UInt8
  output : String
  errors : String
deriving DecidableEq, Repr

namespace Outcome

/-- A run that ends well. -/
def success (output : String) : Outcome := ⟨0, output, ""⟩

/-- Every line of a cause is moved in. -/
def indent (cause : String) : String :=
  String.ofList ("    ".toList ++ cause.toList.flatMap fun c => if c = '\n' then "\n    ".toList else [c])

/-- A run that ends early. -/
def failure (context cause : String) : Outcome :=
  ⟨1, "", s!"Error: {context}\n\nCaused by:\n{indent cause}\n"⟩

/-- A run that ends at a line that is not UTF-8. -/
def unreadable : Outcome :=
  .failure "failed to read from stdin" "stream did not contain valid UTF-8"

/-- A run that a misuse breaks off; what the runtime reports with it, such as the thread, is left out. -/
def brokenOff (fault : Misuse) : Outcome := ⟨101, "", s!"{fault.message}\n"⟩

/-- The run that has printed something before. -/
def after (printed : String) (o : Outcome) : Outcome := { o with output := printed ++ o.output }

end Outcome

/-- What is printed of an error; there is nothing to print of a misuse. -/
def report : Error → Except Misuse String
  | .misuse fault => .error fault
  | e => .ok s!"{e.notice} ({e.message})\n"

/-- The word that asks for a truth table. -/
def logicWord : String := "logic"

/-- The formula of a line that asks for a truth table. -/
def formula? (line : List Char) : Option String :=
  match Text.splitAtBlank? line with
  | some (word, rest) =>
    if word = logicWord.toList then some (String.ofList (Text.trimBlank rest)) else none
  | none => none

/-- What is printed in answer to a line without white space at its ends. -/
def answerTrimmed (limits : Limits) (line : List Char) : Except Misuse String :=
  match formula? line with
  | some formula =>
    match Logic.tabulate limits formula with
    | .ok table => .ok table.text
    | .error e => report e
  | none =>
    match Arithmetic.calculate limits (String.ofList line) with
    | .ok value => .ok s!"{value.text}\n"
    | .error e => report e

/-- What is printed in answer to a text; nothing for a blank one. -/
def answer (limits : Limits) (text : String) : Except Misuse String :=
  match Text.trimBlank text.toList with
  | [] => .ok ""
  | trimmed => answerTrimmed limits trimmed

/-- What is printed in answer to a line, or how the run ends at it. -/
def answerLine (limits : Limits) (line : List UInt8) : Except Outcome String :=
  match Text.decodeLine? line with
  | some text => (answer limits text).mapError .brokenOff
  | none => .error .unreadable

/-- A run on the lines of an input. -/
def runLines (limits : Limits) : List (List UInt8) → Outcome
  | [] => .success ""
  | line :: rest =>
    match answerLine limits line with
    | .ok printed => (runLines limits rest).after printed
    | .error outcome => outcome

/-- The limits with those overridden that the environment gives, or the run that ends at once. -/
def limitsOf (environment : String → Option String) : Except Outcome Limits :=
  (({} : Limits).withOverrides environment).mapError fun e =>
    .failure "invalid calculation limits in environment" e.message

/-- A run on an input in an environment. -/
def run (environment : String → Option String) (input : List UInt8) : Outcome :=
  match limitsOf environment with
  | .ok limits => runLines limits (Text.lines input)
  | .error outcome => outcome

end Reckon.CommandLine
