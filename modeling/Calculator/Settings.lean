/-!
# Settings

What the user may choose: how many digits decimals keep, whether fractions turn into
decimals, whether names are told apart by case, how objects are written, and the
limits of the solver, the heap and of nesting. The limits are machine words.
-/

namespace Calculator

/-- The tiers of decimal precision, each with a fixed number of significant digits. -/
inductive Precision where
  | decimal32
  | decimal64
  | decimal128
deriving DecidableEq, Repr, Inhabited

namespace Precision

/-- The number of significant digits a tier keeps. -/
def digits : Precision → Nat
  | decimal32 => 7
  | decimal64 => 16
  | decimal128 => 34

/-- The name of a tier in a settings file. -/
def name : Precision → String
  | decimal32 => "Decimal32"
  | decimal64 => "Decimal64"
  | decimal128 => "Decimal128"

/-- The tiers, narrowest first. -/
def all : List Precision := [decimal32, decimal64, decimal128]

/-- The tier with a name. -/
def ofName? (text : String) : Option Precision := all.find? fun tier => tier.name == text

/-- The wider of two tiers. -/
def widest (left right : Precision) : Precision :=
  if left.digits < right.digits then right else left

end Precision

/-- The choices about how objects are written. -/
inductive RenderFlag where
  /-- Commands are written with their spelling in full. -/
  | longNames
  | uppercase
  | lowercase
  /-- A product is written with a raised dot. -/
  | multiplyDot
  /-- A product is written with a cross. -/
  | multiplyCross
  /-- An improper fraction is written as a whole part and a proper fraction. -/
  | mixedFractions
deriving DecidableEq, Repr

namespace RenderFlag

/-- The flags, in the order of their bits. -/
def all : List RenderFlag :=
  [longNames, uppercase, lowercase, multiplyDot, multiplyCross, mixedFractions]

/-- The name of a flag in a settings file. -/
def name : RenderFlag → String
  | longNames => "LONG_NAMES"
  | uppercase => "UPPERCASE"
  | lowercase => "LOWERCASE"
  | multiplyDot => "MULTIPLY_DOT"
  | multiplyCross => "MULTIPLY_CROSS"
  | mixedFractions => "MIXED_FRACTIONS"

/-- The bit that stands for a flag. -/
def bit : RenderFlag → UInt16
  | longNames => 1
  | uppercase => 2
  | lowercase => 4
  | multiplyDot => 8
  | multiplyCross => 16
  | mixedFractions => 32

end RenderFlag

/-- A set of render flags as a word of bits. Bits without a name have no effect, but a
settings file that holds them keeps them. -/
structure RenderFlags where
  bits : UInt16 := 0
deriving DecidableEq, Repr, Inhabited

namespace RenderFlags

/-- Whether a flag is set. -/
def contains (flags : RenderFlags) (flag : RenderFlag) : Bool := flags.bits &&& flag.bit != 0

/-- The flags of both sets. -/
def union (left right : RenderFlags) : RenderFlags := ⟨left.bits ||| right.bits⟩

end RenderFlags

/-- The settings that calculations depend on. -/
structure Preferences where
  /-- The tier of decimals that arise from exact operands. -/
  precision : Precision := .decimal64
  /-- Whether a fraction that results from an operation is turned into a decimal. -/
  numericalResults : Bool := false
  /-- Whether names that differ in case are different names. -/
  caseSensitive : Bool := true
  render : RenderFlags := {}
  solverIterations : UInt32 := 1024
  /-- How many digits of the precision the solver may lose when it tests for a root. -/
  solverImprecision : UInt32 := 3
  /-- How deep evaluation and source text may nest. -/
  maxRecursion : UInt32 := 128
deriving DecidableEq, Repr, Inhabited

/-- The settings in force. The size of the heap is a matter of the machine alone; what it
computes depends on the preferences. -/
structure Settings extends Preferences where
  /-- The size of the heap at the start, in bytes. -/
  heapSize : UInt64 := 16384
  /-- The size beyond which the heap does not grow. -/
  heapLimit : UInt64 := 16777216
deriving DecidableEq, Repr, Inhabited

instance : Coe Settings Preferences := ⟨Settings.toPreferences⟩

end Calculator
