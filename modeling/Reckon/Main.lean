import Reckon.CommandLine

/-!
# Main — the program

It answers each line of the standard input as soon as it is read.
-/

namespace Reckon.CommandLine

/-- The values of the variables of the environment that override limits. -/
def readEnvironment : IO (List (String × String)) :=
  [Limits.lineLimitKey, Limits.operandLimitKey, Limits.powerUnionLimitKey,
    Limits.powerEachLimitKey, Limits.factorialLimitKey, Limits.maxVariablesKey].filterMapM
    fun key => do return (← IO.getEnv key).map (key, ·)

/-- Reads a line, without the newline that ends it; at the end of the input there is none. -/
partial def readLine? (stream : IO.FS.Stream) (line : List UInt8) :
    IO (Option (List UInt8)) := do
  match (← stream.read 1).toList with
  | [] => return if line.isEmpty then none else some line.reverse
  | b :: _ => if b = Text.newline then return some line.reverse else readLine? stream (b :: line)

/-- Prints what a run leaves behind. -/
def printOutcome (outcome : Outcome) : IO UInt32 := do
  IO.print outcome.output
  (← IO.getStdout).flush
  IO.eprint outcome.errors
  return outcome.exitCode.toUInt32

/-- Answers one line after another until the input or the run ends. -/
partial def answerLines (limits : Limits) (stream : IO.FS.Stream) : IO UInt32 := do
  match ← readLine? stream [] with
  | none => return 0
  | some line =>
    let code ← printOutcome (runLines limits [line])
    if code = 0 then answerLines limits stream else return code

end Reckon.CommandLine

open Reckon.CommandLine in
/-- Runs the program on the standard input. -/
def main : IO UInt32 := do
  let given ← readEnvironment
  match limitsOf (given.lookup ·) with
  | .error outcome => printOutcome outcome
  | .ok limits => answerLines limits (← IO.getStdin)
