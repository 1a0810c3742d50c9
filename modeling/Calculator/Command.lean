import Calculator.Text.Lowercase

/-!
# Commands

The sixty commands of the calculator, with their spellings and the way each is written
inside an algebraic expression. A command is an operator, a function or one of the
commands that only work on the stack. The table `Command.entry` is the single source
of all of it; looking a command up by a spelling or by its number reads the table.
-/

namespace Calculator

/-- How tightly an operator binds, from the loosest to the tightest. -/
abbrev Precedence := Nat

namespace Precedence

/-- Not written inside an expression. -/
def none : Nat := 0

/-- The level at which a parenthesised expression is read. -/
def parentheses : Nat := 1

/-- Operators as in `a|x=1`. -/
def whereBound : Nat := 2

/-- Operators as in `a=b`. -/
def equation : Nat := 3

/-- Operators as in `a and b`. -/
def logical : Nat := 4

/-- Operators as in `a<b`. -/
def relational : Nat := 5

/-- Operators as in `a+b`. -/
def additive : Nat := 6

/-- Operators as in `a*b`. -/
def multiplicative : Nat := 7

/-- Operators as in `-a`. -/
def negate : Nat := 8

/-- Operators as in `a^b`. -/
def power : Nat := 9

/-- Operators as in `sin a`. -/
def function : Nat := 10

/-- Operators as in `a²`. -/
def trailing : Nat := 11

/-- A literal, a name or a parenthesised expression. -/
def primary : Nat := 12

end Precedence

/-- How a command is written inside an algebraic expression. -/
inductive Fixity where
  /-- Between its operands, as in `a + b`. -/
  | infixed
  /-- In front of its operand, as in `not a`. -/
  | prefixed
  /-- Behind its operand, as in `a²`. -/
  | postfixed
  /-- In front of its parenthesised operands, as in `hypot(a; b)`. -/
  | function
  /-- Not at all: the command works on the stack only. -/
  | stack
deriving DecidableEq, Repr

/-- The commands, in the order of their numbers. -/
inductive Command where
  | add | subtract | multiply | divide | modulo | remainder | power | hypotenuse | arcTangent2
  | nthRoot | negate | invert | square | cube | factorial | squareRoot | absolute | sine
  | cosine | tangent | arcSine | arcCosine | arcTangent | exponential | naturalLog | commonLog
  | powerOfTen | equation | same | notEqual | less | lessOrEqual | greater | greaterOrEqual
  | and | or | xor | not | whereBound | toDecimal | toPolynomial | toExpression | evaluate
  | root | duplicate | drop | swap | copySecond | rotate | depth | pick | clear | duplicate2 | drop2
  | store | fetch | purge | createDirectory | upDirectory | home
deriving DecidableEq, Repr, Inhabited

/-- What the table knows about a command. -/
structure CommandEntry where
  /-- The usual spelling. -/
  name : String
  /-- The spelling in full. -/
  long : String
  /-- Further spellings that are understood but not written. -/
  aliases : List String
  /-- The spelling inside an expression, where it differs from the usual one. -/
  glyph : Option String
  /-- The number of stack levels the command takes. -/
  arity : Nat
  fixity : Fixity
  precedence : Precedence
deriving DecidableEq, Repr

namespace Command

/-- The table of commands. -/
def entry : Command → CommandEntry
  | add => ⟨"+", "add", [], none, 2, .infixed, Precedence.additive⟩
  | subtract => ⟨"-", "subtract", [], none, 2, .infixed, Precedence.additive⟩
  | multiply => ⟨"*", "multiply", ["×", "·"], none, 2, .infixed, Precedence.multiplicative⟩
  | divide => ⟨"/", "divide", ["÷"], none, 2, .infixed, Precedence.multiplicative⟩
  | modulo => ⟨"mod", "modulo", [], none, 2, .infixed, Precedence.multiplicative⟩
  | remainder => ⟨"rem", "remainder", [], none, 2, .infixed, Precedence.multiplicative⟩
  | power => ⟨"^", "power", ["↑", "pow"], none, 2, .infixed, Precedence.power⟩
  | hypotenuse => ⟨"hypot", "hypotenuse", [], none, 2, .function, Precedence.function⟩
  | arcTangent2 => ⟨"atan2", "arc_tangent2", [], none, 2, .function, Precedence.function⟩
  | nthRoot => ⟨"xroot", "nth_root", [], none, 2, .function, Precedence.function⟩
  | negate => ⟨"neg", "negate", [], some "-", 1, .prefixed, Precedence.negate⟩
  | invert => ⟨"inv", "invert", ["⁻¹"], some "⁻¹", 1, .postfixed, Precedence.trailing⟩
  | square => ⟨"sq", "square", ["²"], some "²", 1, .postfixed, Precedence.trailing⟩
  | cube => ⟨"cubed", "cube", ["³"], some "³", 1, .postfixed, Precedence.trailing⟩
  | factorial => ⟨"!", "factorial", ["fact"], none, 1, .postfixed, Precedence.trailing⟩
  | squareRoot => ⟨"sqrt", "square_root", ["√"], none, 1, .function, Precedence.function⟩
  | absolute => ⟨"abs", "absolute_value", ["norm"], none, 1, .function, Precedence.function⟩
  | sine => ⟨"sin", "sine", [], none, 1, .function, Precedence.function⟩
  | cosine => ⟨"cos", "cosine", [], none, 1, .function, Precedence.function⟩
  | tangent => ⟨"tan", "tangent", [], none, 1, .function, Precedence.function⟩
  | arcSine => ⟨"asin", "arc_sine", [], none, 1, .function, Precedence.function⟩
  | arcCosine => ⟨"acos", "arc_cosine", [], none, 1, .function, Precedence.function⟩
  | arcTangent => ⟨"atan", "arc_tangent", [], none, 1, .function, Precedence.function⟩
  | exponential => ⟨"exp", "exponential", [], none, 1, .function, Precedence.function⟩
  | naturalLog => ⟨"ln", "natural_log", [], none, 1, .function, Precedence.function⟩
  | commonLog => ⟨"log", "common_log", ["log10"], none, 1, .function, Precedence.function⟩
  | powerOfTen => ⟨"alog", "exp10", [], none, 1, .function, Precedence.function⟩
  | equation => ⟨"=", "equation", [], none, 2, .infixed, Precedence.equation⟩
  | same => ⟨"==", "same", [], none, 2, .infixed, Precedence.relational⟩
  | notEqual => ⟨"≠", "not_equal", ["<>", "!="], none, 2, .infixed, Precedence.relational⟩
  | less => ⟨"<", "less_than", [], none, 2, .infixed, Precedence.relational⟩
  | lessOrEqual => ⟨"≤", "less_or_equal", ["<="], none, 2, .infixed, Precedence.relational⟩
  | greater => ⟨">", "greater_than", [], none, 2, .infixed, Precedence.relational⟩
  | greaterOrEqual => ⟨"≥", "greater_or_equal", [">="], none, 2, .infixed, Precedence.relational⟩
  | and => ⟨"and", "and", [], none, 2, .infixed, Precedence.logical⟩
  | or => ⟨"or", "or", [], none, 2, .infixed, Precedence.logical⟩
  | xor => ⟨"xor", "xor", [], none, 2, .infixed, Precedence.logical⟩
  | not => ⟨"not", "not", [], none, 1, .prefixed, Precedence.logical⟩
  | whereBound => ⟨"|", "where", [], none, 2, .infixed, Precedence.whereBound⟩
  | toDecimal => ⟨"→num", "to_decimal", ["->num", "tonum"], none, 1, .stack, Precedence.none⟩
  | toPolynomial => ⟨"→poly", "to_polynomial", ["->poly"], none, 1, .stack, Precedence.none⟩
  | toExpression => ⟨"→expr", "to_expression", ["->expr"], none, 1, .stack, Precedence.none⟩
  | evaluate => ⟨"eval", "evaluate", [], none, 1, .stack, Precedence.none⟩
  | root => ⟨"root", "solve_root", ["solve"], none, 3, .stack, Precedence.none⟩
  | duplicate => ⟨"dup", "duplicate", [], none, 1, .stack, Precedence.none⟩
  | drop => ⟨"drop", "drop", [], none, 1, .stack, Precedence.none⟩
  | swap => ⟨"swap", "swap", [], none, 2, .stack, Precedence.none⟩
  | copySecond => ⟨"over", "over", [], none, 2, .stack, Precedence.none⟩
  | rotate => ⟨"rot", "rotate", [], none, 3, .stack, Precedence.none⟩
  | depth => ⟨"depth", "depth", [], none, 0, .stack, Precedence.none⟩
  | pick => ⟨"pick", "pick", [], none, 1, .stack, Precedence.none⟩
  | clear => ⟨"clear", "clear_stack", [], none, 0, .stack, Precedence.none⟩
  | duplicate2 => ⟨"dup2", "duplicate2", [], none, 2, .stack, Precedence.none⟩
  | drop2 => ⟨"drop2", "drop2", [], none, 2, .stack, Precedence.none⟩
  | store => ⟨"sto", "store", ["▶"], none, 2, .stack, Precedence.none⟩
  | fetch => ⟨"rcl", "recall", [], none, 1, .stack, Precedence.none⟩
  | purge => ⟨"purge", "purge", [], none, 1, .stack, Precedence.none⟩
  | createDirectory => ⟨"crdir", "create_directory", [], none, 1, .stack, Precedence.none⟩
  | upDirectory => ⟨"updir", "up_directory", [], none, 0, .stack, Precedence.none⟩
  | home => ⟨"home", "home", [], none, 0, .stack, Precedence.none⟩

/-- All commands, in the order of their numbers. -/
def all : List Command :=
  [.add, .subtract, .multiply, .divide, .modulo, .remainder, .power, .hypotenuse, .arcTangent2,
    .nthRoot, .negate, .invert, .square, .cube, .factorial, .squareRoot, .absolute, .sine,
    .cosine, .tangent, .arcSine, .arcCosine, .arcTangent, .exponential, .naturalLog, .commonLog,
    .powerOfTen, .equation, .same, .notEqual, .less, .lessOrEqual, .greater, .greaterOrEqual,
    .and, .or, .xor, .not, .whereBound, .toDecimal, .toPolynomial, .toExpression, .evaluate,
    .root, .duplicate, .drop, .swap, .copySecond, .rotate, .depth, .pick, .clear, .duplicate2, .drop2,
    .store, .fetch, .purge, .createDirectory, .upDirectory, .home]

/-- The number of a command. -/
def opcode (command : Command) : Nat := all.idxOf command

/-- The command that has a number. -/
def ofOpcode? (number : Nat) : Option Command := all[number]?

/-- The command that has a spelling, in any mixture of capital and small letters. -/
def lookup? (spelling : String) : Option Command :=
  let small := Text.lowercase spelling
  all.find? fun command =>
    command.entry.name == small || command.entry.long == small
      || command.entry.aliases.contains small

/-- The usual spelling. -/
def name (command : Command) : String := command.entry.name

/-- The number of stack levels the command takes. -/
def arity (command : Command) : Nat := command.entry.arity

/-- How the command is written inside an expression. -/
def fixity (command : Command) : Fixity := command.entry.fixity

/-- How tightly the command binds inside an expression. -/
def precedence (command : Command) : Precedence := command.entry.precedence

/-- The spelling inside an expression. -/
def symbol (command : Command) : String := command.entry.glyph.getD command.entry.name

/-- Whether the command may appear inside an algebraic expression. -/
def isAlgebraic (command : Command) : Bool := command.fixity != .stack

/-- The number of operands the command takes inside an algebraic expression. -/
def operands (command : Command) : Nat := if command.isAlgebraic then command.arity else 0

end Command

end Calculator
