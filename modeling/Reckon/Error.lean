import Reckon.Phase

/-!
# Error — why an expression has no value

An error is its **cause**, with the names, counts and positions that the cause speaks of; the wording
is one function of it (`Error.message`), and what a user is told, a coarser one (`Error.notice`).
Positions count the characters before the place.
-/

namespace Reckon

/-- Why a native operation has no result for its operands. -/
inductive DomainError where
  | divisionByZero
  | outOfDomain (operation argument : String)
  | nonIntegral (operation argument : String)
  | overflow (operation : String)
deriving DecidableEq, Repr

/-- The wording of a domain error. -/
def DomainError.message : DomainError → String
  | .divisionByZero => "Division by zero"
  | .outOfDomain operation argument => s!"{operation} is undefined for {argument}"
  | .nonIntegral operation argument => s!"{operation} expects an integer, got {argument}"
  | .overflow operation => s!"Result of {operation} is too large to represent"

/-- Why a lexeme stands for no value. -/
structure ConversionError where
  reason : String
deriving DecidableEq, Repr

/-- Why a text, or a sequence of tokens, is no expression. -/
inductive SyntaxFault where
  | emptyText
  | invalidCharacter (c : Char)
  | missingOpenBraceOrSeparator
  | missingOpenBrace
  | missingCloseBrace
  | unexpectedInPostfix (c : Char)
  | valuesLeftOver
  /-- A fault that a caller words. -/
  | worded (message : String)
deriving DecidableEq, Repr

/-- The wording of a syntax fault. -/
def SyntaxFault.message : SyntaxFault → String
  | .emptyText => "String is empty, nothing to parse"
  | .invalidCharacter c => s!"Invalid character '{c}'"
  | .missingOpenBraceOrSeparator => "missing argument separator or left brace"
  | .missingOpenBrace => "missing left brace"
  | .missingCloseBrace => "missing right brace"
  | .unexpectedInPostfix c => s!"unexpected '{c}' in postfix expression"
  | .valuesLeftOver => "stack size != 1 after evaluation"
  | .worded message => message

/-- Which bound on the cost of a calculation was met. -/
inductive LimitFault where
  | lineTooLong (length limit : Nat)
  | operandsRefused (name : String)
  | tooManyVariables (count limit : Nat)
  /-- A fault that a caller words. -/
  | worded (message : String)
deriving DecidableEq, Repr

/-- The wording of a limit fault. -/
def LimitFault.message : LimitFault → String
  | .lineTooLong length limit => s!"expression length {length} exceeds the limit of {limit}"
  | .operandsRefused name => s!"arguments failed limitations check in {name}"
  | .tooManyVariables count limit => s!"{count} variables exceeds the limit of {limit}"
  | .worded message => message

/-- Why a call is broken off: its caller got something wrong, where no text and no bindings can be the
cause, or it asks for more than there can be room for. -/
inductive Misuse where
  /-- An operation called with a number of operands other than its arity. -/
  | operandCount (arity given : Nat)
  /-- An operator made from an operation of another arity than its place takes. -/
  | operatorArity (needed arity : Nat)
  /-- A pattern whose match begins beyond the cursor. -/
  | matchBeyondCursor (skipped : Nat)
  /-- A list that would have more bytes than any list can have. -/
  | capacityOverflow
deriving DecidableEq, Repr

/-- The wording of a misuse. -/
def Misuse.message : Misuse → String
  | .operandCount arity given => s!"operation of arity {arity} called with {given} operands"
  | .operatorArity needed arity => s!"operator of arity {needed} made from an operation of {arity}"
  | .matchBeyondCursor skipped => s!"match begins {skipped} characters beyond the cursor"
  | .capacityOverflow => "capacity overflow"

/-- Why an expression has no value. -/
inductive Error where
  | invalidSyntax (fault : SyntaxFault) (position : Option Nat)
  | invalidName (name : String) (position : Option Nat)
  | invalidArguments (name : String) (expected actual : Nat)
  | calculationLimit (fault : LimitFault)
  | domain (fault : DomainError)
  | conversion (lexeme : String) (position : Nat) (cause : ConversionError)
  | phase (expected actual : Phase)
  | misuse (fault : Misuse)
deriving DecidableEq, Repr

namespace Error

/-- The place in a message, if there is one. -/
def place : Option Nat → String
  | none => ""
  | some position => s!" at pos {position}"

/-- The wording of an error. -/
def message : Error → String
  | invalidSyntax fault position => s!"Invalid syntax: {fault.message}{place position}"
  | invalidName name position => s!"Invalid name '{name}'{place position}"
  | invalidArguments name expected actual =>
    s!"Not enough arguments for '{name}', expected {expected} but found {actual}"
  | calculationLimit fault => s!"Calculation limit exceeded: {fault.message}"
  | domain fault => fault.message
  | conversion lexeme position cause =>
    s!"Could not convert '{lexeme}' at pos {position}: {cause.reason}"
  | phase expected actual => s!"Expected expression in {expected.name} form, got {actual.name}"
  | misuse fault => fault.message

/-- What a user is told of an error. -/
def notice : Error → String
  | invalidSyntax .. => "Syntax error in expression"
  | invalidName .. => "Encountered an unknown variable"
  | invalidArguments .. => "Incorrect use of a function"
  | calculationLimit .. => "The complexity limit for calculations was reached"
  | domain .divisionByZero => "Division by zero encountered during evaluation"
  | domain _ => "Arithmetic error"
  | conversion .. => "Could not recognize a value"
  | phase .. | misuse .. => "Internal error while evaluating expression"

/-- The place in the text that an error points at. -/
def position? : Error → Option Nat
  | invalidSyntax _ position | invalidName _ position => position
  | conversion _ position _ => some position
  | _ => none

end Error

end Reckon
