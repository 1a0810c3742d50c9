import Calculator.Arithmetic
import Calculator.Arithmetic.Complex
import Calculator.Command
import Calculator.Console
import Calculator.Console.Arguments
import Calculator.Encoding.Bytes
import Calculator.Encoding.Leb128
import Calculator.Encoding.Reader
import Calculator.Encoding.Tag
import Calculator.Encoding.Writer
import Calculator.Expression
import Calculator.Expression.Binding
import Calculator.Fault
import Calculator.Machine
import Calculator.Machine.Evaluation
import Calculator.Machine.Stack
import Calculator.Machine.Variables
import Calculator.Main
import Calculator.Memory.Directory
import Calculator.Memory.Heap
import Calculator.Number.Decimal
import Calculator.Number.Decimal.Literal
import Calculator.Number.Decimal.Series
import Calculator.Number.Digits
import Calculator.Number.Exact
import Calculator.Number.Fraction
import Calculator.Number.Operation
import Calculator.Number.Power
import Calculator.Number.Real
import Calculator.Number.Word
import Calculator.Polynomial
import Calculator.Polynomial.Expression
import Calculator.Render
import Calculator.Settings
import Calculator.Settings.File
import Calculator.Settings.Toml
import Calculator.Settings.Toml.Reading
import Calculator.Settings.Toml.Scalar
import Calculator.Solver
import Calculator.Solver.Search
import Calculator.Source.Reading
import Calculator.Source.Token
import Calculator.Symbol
import Calculator.Text.Alphabetic
import Calculator.Text.Blank
import Calculator.Text.Lowercase
import Calculator.Value
import Calculator.Proofs.Console.Reports
import Calculator.Proofs.Encoding.Bytes
import Calculator.Proofs.Encoding.Canonical
import Calculator.Proofs.Encoding.Components
import Calculator.Proofs.Encoding.Conforming
import Calculator.Proofs.Encoding.Depth
import Calculator.Proofs.Encoding.Elements
import Calculator.Proofs.Encoding.Groups
import Calculator.Proofs.Encoding.Leb128
import Calculator.Proofs.Encoding.Lossless
import Calculator.Proofs.Encoding.Reading
import Calculator.Proofs.Encoding.RoundTrip
import Calculator.Proofs.Expression.Arithmetic
import Calculator.Proofs.Expression.Binding
import Calculator.Proofs.Expression.Complex
import Calculator.Proofs.Expression.Folding
import Calculator.Proofs.Expression.Form
import Calculator.Proofs.Expression.Operations
import Calculator.Proofs.Expression.Plain
import Calculator.Proofs.Expression.Rooted
import Calculator.Proofs.Expression.Settled
import Calculator.Proofs.Expression.Substitution
import Calculator.Proofs.Expression.Walks
import Calculator.Proofs.Expression.WellRooted
import Calculator.Proofs.Machine.Actions
import Calculator.Proofs.Machine.Atomicity
import Calculator.Proofs.Machine.Congruence
import Calculator.Proofs.Machine.Evaluation
import Calculator.Proofs.Machine.Evolution
import Calculator.Proofs.Machine.Execution
import Calculator.Proofs.Machine.Exhaustion
import Calculator.Proofs.Machine.Failure
import Calculator.Proofs.Machine.Idempotence
import Calculator.Proofs.Machine.Invisible
import Calculator.Proofs.Machine.Levels
import Calculator.Proofs.Machine.Piles
import Calculator.Proofs.Machine.ReadBack
import Calculator.Proofs.Machine.Recursion
import Calculator.Proofs.Machine.Roots
import Calculator.Proofs.Machine.Session
import Calculator.Proofs.Machine.Settling
import Calculator.Proofs.Machine.Shortcut
import Calculator.Proofs.Machine.Simulation
import Calculator.Proofs.Machine.Solver
import Calculator.Proofs.Machine.Stock
import Calculator.Proofs.Machine.Storage
import Calculator.Proofs.Machine.Tally
import Calculator.Proofs.Machine.Variables
import Calculator.Proofs.Memory.Collection
import Calculator.Proofs.Memory.Directory
import Calculator.Proofs.Memory.Layout
import Calculator.Proofs.Memory.Lifetime
import Calculator.Proofs.Memory.Orderly
import Calculator.Proofs.Memory.Placement
import Calculator.Proofs.Memory.Region
import Calculator.Proofs.Memory.Service
import Calculator.Proofs.Memory.Wrapping
import Calculator.Proofs.Number.AngleReduction
import Calculator.Proofs.Number.AreaTangent
import Calculator.Proofs.Number.Checked
import Calculator.Proofs.Number.CheckedOperation
import Calculator.Proofs.Number.CheckedSeries
import Calculator.Proofs.Number.Circular
import Calculator.Proofs.Number.Closeness
import Calculator.Proofs.Number.Commutation
import Calculator.Proofs.Number.Comparison
import Calculator.Proofs.Number.Complex
import Calculator.Proofs.Number.ComplexExponent
import Calculator.Proofs.Number.ComplexRadical
import Calculator.Proofs.Number.Denotation
import Calculator.Proofs.Number.Digits
import Calculator.Proofs.Number.Exponent
import Calculator.Proofs.Number.Exponential
import Calculator.Proofs.Number.Field
import Calculator.Proofs.Number.Gaussian
import Calculator.Proofs.Number.HalfTurn
import Calculator.Proofs.Number.Integral
import Calculator.Proofs.Number.Logarithm
import Calculator.Proofs.Number.Made
import Calculator.Proofs.Number.NaturalLog
import Calculator.Proofs.Number.Nearest
import Calculator.Proofs.Number.Numerical
import Calculator.Proofs.Number.OddPowers
import Calculator.Proofs.Number.Ordinary
import Calculator.Proofs.Number.Power
import Calculator.Proofs.Number.Projection
import Calculator.Proofs.Number.Quotient
import Calculator.Proofs.Number.Radical
import Calculator.Proofs.Number.Rational
import Calculator.Proofs.Number.Reach
import Calculator.Proofs.Number.Reductions
import Calculator.Proofs.Number.Remainder
import Calculator.Proofs.Number.Root
import Calculator.Proofs.Number.Rounding
import Calculator.Proofs.Number.Sign
import Calculator.Proofs.Number.SineCosine
import Calculator.Proofs.Number.SquareRoot
import Calculator.Proofs.Number.Tower
import Calculator.Proofs.Number.Words
import Calculator.Proofs.Number.Working
import Calculator.Proofs.Outcome
import Calculator.Proofs.Polynomial.Canonical
import Calculator.Proofs.Polynomial.Closure
import Calculator.Proofs.Polynomial.Denotation
import Calculator.Proofs.Polynomial.Element
import Calculator.Proofs.Polynomial.Evaluation
import Calculator.Proofs.Polynomial.Meaning
import Calculator.Proofs.Polynomial.Morphism
import Calculator.Proofs.Polynomial.Normal
import Calculator.Proofs.Polynomial.Order
import Calculator.Proofs.Polynomial.Ring
import Calculator.Proofs.Polynomial.Written
import Calculator.Proofs.Solver.Course
import Calculator.Proofs.Solver.Ending
import Calculator.Proofs.Source.Climbing
import Calculator.Proofs.Source.Counter
import Calculator.Proofs.Source.Decimals
import Calculator.Proofs.Source.InTurn
import Calculator.Proofs.Source.Lexemes
import Calculator.Proofs.Source.Likeness
import Calculator.Proofs.Source.Lines
import Calculator.Proofs.Source.Loops
import Calculator.Proofs.Source.Nesting
import Calculator.Proofs.Source.Numerals
import Calculator.Proofs.Source.Parentheses
import Calculator.Proofs.Source.Permitted
import Calculator.Proofs.Source.Places
import Calculator.Proofs.Source.Reading
import Calculator.Proofs.Source.Rooted
import Calculator.Proofs.Source.Shallow
import Calculator.Proofs.Source.Spelling
import Calculator.Proofs.Source.Terminals
import Calculator.Proofs.Source.Tokens
import Calculator.Proofs.Source.Tree
import Calculator.Proofs.Source.Values
import Calculator.Proofs.Symbol
import Calculator.Proofs.Text.Lowercase
