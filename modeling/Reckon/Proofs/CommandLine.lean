import Reckon.CommandLine
import Reckon.Proofs.Calculator.Enumeration
import Reckon.Proofs.Text.Lines
import Reckon.Proofs.Text.Trimmed

/-!
# Proofs/CommandLine — each line is answered by itself

A run prints the answers to its lines one after another (`CommandLine.runLines_answered`) and ends early
at the first one that is not answered (`CommandLine.runLines_ended`): one that is not UTF-8, or one that
asks for a truth table that there is no room for (`CommandLine.answerLine_eq_error_iff`).  So **the run
on whole lines and what follows them is the run on the lines and then, if they are all answered, the run
on what follows** (`CommandLine.run_append`).
-/

namespace Reckon.CommandLine

variable {limits : Limits} {text line : String} {fault : Misuse}

/-! ## The answer to a text -/

theorem report_eq_error_iff {e : Error} : report e = .error fault ↔ e = .misuse fault := by
  cases e <;> simp [report]

/-- A line that is too long is no misuse. -/
theorem checkLine_bind_eq_misuse_iff {α : Type} {x : Except Error α} :
    (limits.checkLine line >>= fun _ => x) = .error (.misuse fault) ↔
      line.length < limits.lineLimit ∧ x = .error (.misuse fault) := by
  by_cases hlength : line.length < limits.lineLimit <;> simp [Limits.checkLine, hlength]

theorem calculate_ne_misuse (limits : Limits) (line : String) (fault : Misuse) :
    Arithmetic.calculate limits line ≠ .error (.misuse fault) := fun h =>
  (Arithmetic.grammar limits).parseAndRun_ne_misuse line ∅ fault (checkLine_bind_eq_misuse_iff.1 h).2

/-- The text asks for a truth table that the limits allow, but that there is no room for. -/
def AsksTooMuch (limits : Limits) (text : String) : Prop :=
  ∃ formula e, formula? (Text.trimBlank text.toList) = some formula ∧
    formula.length < limits.lineLimit ∧ Logic.grammar.parse formula = .ok e ∧
    58 < e.variableNames.length ∧ e.variableNames.length ≤ limits.maxVariables ∧
    e.variableNames.length ≤ 63

theorem answerTrimmed_eq_error_iff {cs : List Char} :
    answerTrimmed limits cs = .error fault ↔
      ∃ formula, formula? cs = some formula ∧
        Logic.tabulate limits formula = .error (.misuse fault) := by
  rw [answerTrimmed]
  cases hformula : formula? cs with
  | none =>
    have hvalue := calculate_ne_misuse limits (String.ofList cs) fault
    cases hcalculate : Arithmetic.calculate limits (String.ofList cs) with
    | ok value => simp
    | error e =>
      rw [hcalculate] at hvalue
      simpa [report_eq_error_iff] using hvalue
  | some formula =>
    cases htable : Logic.tabulate limits formula with
    | ok table => simp [htable]
    | error e => simp [htable, report_eq_error_iff]

/-- **The answer to a text is broken off iff the text asks for too large a table.** -/
theorem answer_eq_error_iff :
    answer limits text = .error fault ↔ fault = .capacityOverflow ∧ AsksTooMuch limits text := by
  have htrimmed : answer limits text = .error fault ↔
      answerTrimmed limits (Text.trimBlank text.toList) = .error fault := by
    rw [answer]
    split
    · next hblank =>
      rw [hblank, answerTrimmed_eq_error_iff]
      exact ⟨nofun, fun ⟨formula, hformula, _⟩ => nomatch hformula⟩
    · rfl
  rw [htrimmed, answerTrimmed_eq_error_iff]
  simp only [Logic.tabulate, checkLine_bind_eq_misuse_iff, TruthTable.ofText_eq_misuse_iff,
    AsksTooMuch]
  constructor
  · rintro ⟨formula, hformula, hlength, rfl, e, he⟩
    exact ⟨rfl, formula, e, hformula, hlength, he⟩
  · rintro ⟨rfl, formula, e, hformula, hlength, he⟩
    exact ⟨formula, hformula, hlength, rfl, e, he⟩

/-- A carriage return at the end of a line changes nothing. -/
theorem answer_concat_return (limits : Limits) (text : String) :
    answer limits (text ++ "\r") = answer limits text := by
  have hblank : ∀ c ∈ "\r".toList, Text.isBlank c = true :=
    (List.forall_mem_singleton (a := '\r')).2 rfl
  rw [answer, answer, String.toList_append, Text.trimBlank_append hblank]

/-- Nothing is printed in answer to a blank line. -/
theorem answer_blank (h : ∀ c ∈ text.toList, Text.isBlank c = true) : answer limits text = .ok "" := by
  have hcore : Text.HasCore text.toList [] := ⟨text.toList, [], by simp, h, nofun⟩
  have hnone : ∀ c ∈ ([] : List Char), Text.isBlank c = false := nofun
  rw [answer, (Text.trimBlank_eq_iff hnone).2 hcore]

/-! ## A run on lines -/

section Lines

variable {ls before rest : List (List UInt8)} {line : List UInt8} {printed : String}
  {outcome : Outcome}

/-- What is printed in answer to a line, if it is answered. -/
def printed? (limits : Limits) (line : List UInt8) : Option String := (answerLine limits line).toOption

/-- Each of the lines is answered. -/
def Answered (limits : Limits) (lines : List (List UInt8)) : Prop :=
  ∀ line ∈ lines, (printed? limits line).isSome = true

/-- What is printed in answer to the lines, one after another. -/
def answers (limits : Limits) (lines : List (List UInt8)) : String :=
  String.join (lines.filterMap (printed? limits))

/-- **A run ends at a line that is not UTF-8, or that asks for too large a table**, and at no other. -/
theorem answerLine_eq_error_iff :
    answerLine limits line = .error outcome ↔
      Text.decodeLine? line = none ∧ outcome = .unreadable ∨
        ∃ text, Text.decodeLine? line = some text ∧ AsksTooMuch limits text ∧
          outcome = .brokenOff .capacityOverflow := by
  rw [answerLine]
  cases Text.decodeLine? line with
  | none => simp [eq_comm]
  | some text =>
    cases hanswer : answer limits text with
    | ok printed =>
      have hno : ¬ AsksTooMuch limits text := fun hasks => by
        rw [answer_eq_error_iff.2 ⟨rfl, hasks⟩] at hanswer
        cases hanswer
      simp [hanswer, hno]
    | error fault =>
      obtain ⟨rfl, hasks⟩ := answer_eq_error_iff.1 hanswer
      simp [hanswer, hasks, eq_comm]

theorem after_empty (o : Outcome) : o.after "" = o := by
  rw [Outcome.after, String.empty_append]

theorem after_after (s t : String) (o : Outcome) : (o.after t).after s = o.after (s ++ t) := by
  rw [Outcome.after, Outcome.after, Outcome.after, String.append_assoc]

theorem printed?_eq_some_iff : printed? limits line = some printed ↔ answerLine limits line = .ok printed := by
  rw [printed?]
  cases answerLine limits line <;> simp [Except.toOption]

theorem answered_cons_iff :
    Answered limits (line :: ls) ↔
      (∃ printed, answerLine limits line = .ok printed) ∧ Answered limits ls := by
  rw [Answered, List.forall_mem_cons, Option.isSome_iff_exists]
  simp only [printed?_eq_some_iff]
  rfl

theorem answers_cons (h : answerLine limits line = .ok printed) :
    answers limits (line :: rest) = printed ++ answers limits rest := by
  rw [answers, List.filterMap_cons_some (printed?_eq_some_iff.2 h), String.join_cons, answers]

/-- **The answer to a line stands between those to the lines before it and behind it.** -/
theorem answers_between (h : answerLine limits line = .ok printed) :
    answers limits (before ++ line :: rest) =
      answers limits before ++ printed ++ answers limits rest := by
  rw [String.append_assoc, ← answers_cons h, answers, List.filterMap_append, String.join_append]
  rfl

/-- **Lines that are answered are answered, one after another, before the rest of a run.** -/
theorem runLines_append (h : Answered limits ls) :
    runLines limits (ls ++ rest) = (runLines limits rest).after (answers limits ls) := by
  induction ls with
  | nil => exact (after_empty _).symm
  | cons line ls ih =>
    obtain ⟨⟨printed, hprinted⟩, hls⟩ := answered_cons_iff.1 h
    rw [List.cons_append, runLines, hprinted]
    dsimp only
    rw [ih hls, after_after, answers_cons hprinted]

theorem runLines_answered (h : Answered limits ls) :
    runLines limits ls = .success (answers limits ls) := by
  have hrun : runLines limits (ls ++ []) = _ := runLines_append h
  rw [List.append_nil] at hrun
  rw [hrun, runLines, Outcome.after, Outcome.success, String.append_empty]
  rfl

/-- **A run ends at the first line that is not answered.** -/
theorem runLines_ended (h : Answered limits before) (hline : answerLine limits line = .error outcome) :
    runLines limits (before ++ line :: rest) = outcome.after (answers limits before) := by
  rw [runLines_append h, runLines, hline]

/-- If not all lines are answered, there is a first one that is not. -/
theorem exists_ending (h : ¬ Answered limits ls) :
    ∃ before line rest outcome, ls = before ++ line :: rest ∧ Answered limits before ∧
      answerLine limits line = .error outcome := by
  induction ls with
  | nil => exact absurd nofun h
  | cons line ls ih =>
    cases hline : answerLine limits line with
    | error outcome => exact ⟨[], line, ls, outcome, rfl, nofun, hline⟩
    | ok printed =>
      obtain ⟨before, bad, rest, outcome, rfl, hbefore, hbad⟩ :=
        ih fun hls => h (answered_cons_iff.2 ⟨⟨printed, hline⟩, hls⟩)
      exact ⟨line :: before, bad, rest, outcome, rfl,
        answered_cons_iff.2 ⟨⟨printed, hline⟩, hbefore⟩, hbad⟩

end Lines

/-! ## A run on an input -/

section Run

variable {environment : String → Option String} {a b : List UInt8}

theorem run_eq (henv : limitsOf environment = .ok limits) (input : List UInt8) :
    run environment input = runLines limits (Text.lines input) := by
  rw [run, henv]

/-- A newline may be missing at the end of the input. -/
theorem run_concat (h : ¬ Text.EndsLine a) :
    run environment (a ++ [Text.newline]) = run environment a := by
  rw [run, run, Text.lines_concat h]

/-- **Lines are treated independently.**  Take whole lines and anything behind them.  If the lines are
all answered, their answers come first, each between those to the other lines, and then all that the run
on the rest leaves behind.  If not, the run answers the lines before the first that is not answered and
ends there, whatever is behind them.  A line is answered unless it is not UTF-8 or asks for a truth table
that there is no room for; an error in it is an answer, and nothing is printed in answer to a blank
line. -/
theorem run_append (henv : limitsOf environment = .ok limits) (ha : Text.EndsLine a) :
    ((Text.lines a).flatMap (· ++ [Text.newline]) = a ∧ ∀ line ∈ Text.lines a, Text.newline ∉ line) ∧
    (Answered limits (Text.lines a) →
      run environment a = .success (answers limits (Text.lines a)) ∧
      run environment (a ++ b) = { run environment b with
        output := (run environment a).output ++ (run environment b).output } ∧
      ∀ before line rest printed, Text.lines a = before ++ line :: rest →
        answerLine limits line = .ok printed →
        answers limits (Text.lines a) =
          answers limits before ++ printed ++ answers limits rest) ∧
    (¬ Answered limits (Text.lines a) →
      run environment (a ++ b) = run environment a ∧
      ∃ before line rest outcome, Text.lines a = before ++ line :: rest ∧ Answered limits before ∧
        answerLine limits line = .error outcome ∧
        run environment a = outcome.after (answers limits before)) ∧
    (∀ line outcome, answerLine limits line = .error outcome ↔
      Text.decodeLine? line = none ∧ outcome = .unreadable ∨
        ∃ text, Text.decodeLine? line = some text ∧ AsksTooMuch limits text ∧
          outcome = .brokenOff .capacityOverflow) ∧
    ∀ text : String, (∀ c ∈ text.toList, Text.isBlank c = true) → answer limits text = .ok "" := by
  rw [run_eq henv, run_eq henv, run_eq henv, Text.lines_append ha]
  refine ⟨⟨Text.flatMap_lines ha, fun _ => Text.newline_not_mem_of_mem_lines⟩,
    fun h => ⟨runLines_answered h, ?_, ?_⟩, fun h => ?_, fun _ _ => answerLine_eq_error_iff,
    fun _ => answer_blank⟩
  · rw [runLines_append h, runLines_answered h]
    rfl
  · intro before line rest printed hlines hprinted
    rw [hlines, answers_between hprinted]
  · obtain ⟨before, line, rest, outcome, hlines, hbefore, hline⟩ := exists_ending h
    -- The run never gets to what is behind the line, so `b` may as well be missing.
    have hrun (rest : List (List UInt8)) :
        runLines limits (before ++ line :: rest) = outcome.after (answers limits before) :=
      runLines_ended hbefore hline
    rw [hlines, List.append_assoc, List.cons_append, hrun, hrun]
    exact ⟨rfl, before, line, rest, outcome, rfl, hbefore, hline, rfl⟩

/-- A line with an error, and one that is not UTF-8. -/
theorem run_append_faults :
    let environment : String → Option String := fun _ => none
    (run environment ([0x31, 0x2B, 10] ++ [0x32]) = { run environment [0x32] with
      output := (run environment [0x31, 0x2B, 10]).output ++ (run environment [0x32]).output }) ∧
    run environment ([0x31, 10, 0xFF, 10] ++ [0x32]) = run environment [0x31, 10, 0xFF, 10] ∧
    answer {} " \t" = .ok "" := by
  intro environment
  have henv : limitsOf environment = .ok {} := rfl
  have hanswered : Answered {} (Text.lines [0x31, 0x2B, 10]) := by
    unfold Answered
    decide +kernel
  have hended : ¬ Answered {} (Text.lines [0x31, 10, 0xFF, 10]) := by
    unfold Answered
    decide +kernel
  have hends : Text.EndsLine [0x31, 0x2B, 10] := .inr rfl
  have hends' : Text.EndsLine [0x31, 10, 0xFF, 10] := .inr rfl
  obtain ⟨-, hall, -, -, hblank⟩ := run_append (b := [0x32]) henv hends
  obtain ⟨-, -, hend, -⟩ := run_append (b := [0x32]) henv hends'
  have hspaces : ∀ c ∈ [' ', '\t'], Text.isBlank c = true :=
    List.forall_mem_cons.2 ⟨rfl, List.forall_mem_singleton.2 rfl⟩
  exact ⟨(hall hanswered).2.1, (hend hended).1, hblank " \t" hspaces⟩

/-- The table of sixty variables breaks a run off, and the next line is not answered. -/
theorem run_append_wide :
    let environment : String → Option String := fun key =>
      if key = Limits.maxVariablesKey then some "63" else none
    let line := Text.encode ("logic " ++ " ".intercalate TruthTable.sixtyNames)
    let wide := line ++ [Text.newline]
    Text.EndsLine wide ∧ Text.lines wide = [line] ∧ (Text.decodeLine? line).isSome = true ∧
      run environment wide = ⟨101, "", "capacity overflow\n"⟩ ∧
      run environment [0x32, 10] = ⟨0, "2\n", ""⟩ ∧
      run environment (wide ++ [0x32, 10]) = ⟨101, "", "capacity overflow\n"⟩ := by
  intro environment line wide
  have henv : limitsOf environment = .ok { maxVariables := 63 } := by decide +kernel
  have hends : Text.EndsLine wide := .inr List.getLast?_concat
  have hlines : Text.lines wide = [line] := by decide +kernel
  have hformula : formula? (Text.trimBlank ("logic " ++ " ".intercalate TruthTable.sixtyNames).toList) =
      some (" ".intercalate TruthTable.sixtyNames) := by
    rw [String.toList_append, String.toList_intercalate]
    decide +kernel
  have hlength : (" ".intercalate TruthTable.sixtyNames).length < 1000 := by
    rw [← String.length_toList, String.toList_intercalate]
    decide +kernel
  obtain ⟨e, hparse, hcount, -, -⟩ :=
    TruthTable.exists_yields_of_wide TruthTable.parse_sixtyNames le_rfl (by decide) (by decide)
  have hended : answerLine { maxVariables := 63 } line = .error (.brokenOff .capacityOverflow) := by
    refine answerLine_eq_error_iff.2 (.inr ⟨_, Text.decodeLine?_encode _, ?_, rfl⟩)
    refine ⟨_, e, hformula, hlength, hparse, ?_⟩
    rw [hcount]
    decide
  refine ⟨hends, hlines, by rw [Text.decodeLine?_encode, Option.isSome_some], ?_,
    by decide +kernel, ?_⟩
  · rw [run_eq henv, hlines, runLines, hended]
    rfl
  · rw [run_eq henv, Text.lines_append hends, hlines, List.singleton_append, runLines, hended]
    rfl

end Run

end Reckon.CommandLine
