/-!
# Faults

Everything that can go wrong while a line is read, an object is decoded or a command
runs. A fault is a cause; its wording is derived from the cause in one place. The
faults that arise while source text is read also say where: a span of bytes in the
line that was read.
-/

namespace Calculator

/-- A stretch of source text, measured in bytes of its UTF-8 form. -/
structure Span where
  /-- The number of bytes in front of the stretch. -/
  offset : Nat
  /-- The number of bytes in the stretch, zero at the end of the input. -/
  length : Nat
deriving DecidableEq, Repr, Inhabited

namespace Span

/-- The position just behind the stretch. -/
def stop (span : Span) : Nat := span.offset + span.length

/-- The stretch from one position up to another, empty when they are out of order. -/
def between (start stop : Nat) : Span := ⟨start, stop - start⟩

end Span

/-- Why a byte string is not the encoding of an object, or why a list of items is not
an expression. -/
inductive Malformation where
  | truncatedNumber
  | payloadTooLong
  | unknownTag
  | unknownCommand
  | invalidText
  | negativeZero
  | unreducedFraction
  | exponentTooLarge
  | nestingTooDeep
  | unitNotExpression
  | sizeMismatch
  | missingOperands
  | notOneValue
deriving DecidableEq, Repr

/-- The description of a malformation. -/
def Malformation.message : Malformation → String
  | truncatedNumber => "truncated LEB128 value"
  | payloadTooLong => "payload extends past the end"
  | unknownTag => "unknown type tag"
  | unknownCommand => "unknown command"
  | invalidText => "invalid UTF-8"
  | negativeZero => "negative zero"
  | unreducedFraction => "fraction is not reduced"
  | exponentTooLarge => "exponent out of range"
  | nestingTooDeep => "nesting too deep"
  | unitNotExpression => "unit is not an expression"
  | sizeMismatch => "encoded size does not match payload"
  | missingOperands => "operator is missing operands"
  | notOneValue => "expression does not reduce to one value"

/-- What kind of construct the input ended in. -/
inductive Construct where
  | text
  | list
  | array
  | program
  | expression
  | parentheses
deriving DecidableEq, Repr

/-- The name of a construct in a fault's wording. -/
def Construct.message : Construct → String
  | text => "text"
  | list => "list"
  | array => "array"
  | program => "program"
  | expression => "expression"
  | parentheses => "parentheses"

/-- The causes of failure. -/
inductive Fault where
  | divideByZero
  | undefinedOperation
  | badArgumentType
  | badArgumentValue
  /-- A character at which no token begins or goes on. -/
  | strayCharacter (span : Span)
  /-- A token that cannot stand where it is. -/
  | unexpectedToken (token : String) (span : Span)
  | invalidNumber (text : String) (span : Span)
  | partsNotReal (span : Span)
  | complexExpected (span : Span)
  | polynomialExpected (span : Span)
  /-- An expression that is not a polynomial, for the given reason. -/
  | notPolynomial (reason : Fault) (span : Span)
  | nestingTooDeep (span : Span)
  | unterminated (construct : Construct) (span : Span)
  | argumentExpected (span : Span)
  /-- An operator in front of which a value is missing. -/
  | valueExpected (operator : String) (span : Span)
  | notAlgebraic (name : String) (span : Span)
  | badGuess
  | noSolution
  | signReversal
  | constantValue
  | invalidFunction
  | interrupted
  | outOfMemory
  | invalidHandle
  | unimplemented
  | undefinedName (name : String)
  | tooFewArguments
  | inconsistentUnits
  | tooMuchRecursion
  | malformed (reason : Malformation)
  /-- A settings text that does not describe settings. -/
  | badSettings
  /-- A settings file that cannot be read. -/
  | unreadableSettings
deriving DecidableEq, Repr

namespace Fault

/-- The wording of a fault. -/
def message : Fault → String
  | divideByZero => "Divide by zero"
  | undefinedOperation => "Undefined operation"
  | badArgumentType => "Bad argument type"
  | badArgumentValue => "Bad argument value"
  | strayCharacter _ => "Syntax error: unexpected character"
  | unexpectedToken token _ => s!"Syntax error: unexpected '{token}'"
  | invalidNumber text _ => s!"Syntax error: invalid number '{text}'"
  | partsNotReal _ => "Syntax error: complex parts must be real numbers"
  | complexExpected _ => "Syntax error: complex number expected"
  | polynomialExpected _ => "Syntax error: expression expected after 'Ⓟ'"
  | notPolynomial reason _ => "Syntax error: not a polynomial: " ++ reason.message
  | nestingTooDeep _ => "Syntax error: nesting too deep"
  | unterminated construct _ => "Unterminated " ++ construct.message
  | argumentExpected _ => "Argument expected"
  | valueExpected operator _ => s!"Value expected before '{operator}'"
  | notAlgebraic name _ => s!"'{name}' is not allowed in an algebraic expression"
  | badGuess => "Bad guess"
  | noSolution => "No solution?"
  | signReversal => "Sign reversal"
  | constantValue => "Constant?"
  | invalidFunction => "Invalid function"
  | interrupted => "Interrupted"
  | outOfMemory => "Out of memory"
  | invalidHandle => "Invalid object handle"
  | unimplemented => "Unimplemented operation"
  | undefinedName name => s!"Undefined name '{name}'"
  | tooFewArguments => "Too few arguments"
  | inconsistentUnits => "Inconsistent units"
  | tooMuchRecursion => "Too many recursion levels"
  | malformed reason => "Malformed object encoding: " ++ reason.message
  | badSettings => "Failed to read the settings"
  | unreadableSettings => "Settings file not readable"

/-- Where in the source text a fault arose, for the faults of reading. -/
def span? : Fault → Option Span
  | strayCharacter span | unexpectedToken _ span | invalidNumber _ span | partsNotReal span
  | complexExpected span | polynomialExpected span | notPolynomial _ span
  | nestingTooDeep span | unterminated _ span | argumentExpected span
  | valueExpected _ span | notAlgebraic _ span => some span
  | _ => none

end Fault

/-- The outcome of an operation that may fail. -/
abbrev Outcome (α : Type) := Except Fault α

end Calculator
