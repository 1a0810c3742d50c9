import Calculator.Proofs.Encoding.RoundTrip
import Calculator.Proofs.Expression.Plain
import Calculator.Proofs.Number.Ordinary
import Calculator.Proofs.Polynomial.Closure
import Calculator.Proofs.Source.Counter
import Calculator.Proofs.Source.Lexemes
import Calculator.Proofs.Source.Lines
import Calculator.Proofs.Source.Loops
import Calculator.Proofs.Source.Permitted
import Mathlib

/-!
# How deep values nest that are read

What takes levels of the reader does not take as many levels of the decoder. A unit takes one level
of the reader and two of the decoder, parentheses take levels of the reader only, and the parts of a
complex number and the factors of a polynomial take levels of the decoder only. Construct by
construct, a value nests at most twice as deep as there are levels of the reader.
-/

namespace Calculator

open Arithmetic (operations)
open Expression (Rooted operandsOf)
open Value (Ordinary nesting nestingOfItems nestingOfItems_le_iff nestingOfTerms_le_iff)

/-! ## Polynomials of numbers -/

namespace Value

variable {value : Value}

/-- The parts of a number are one level down. -/
theorem Ordinary.nesting_le (ordinary : Ordinary value) : value.nesting ≤ 1 := by
  cases ordinary <;> simp [nesting]

/-- An ordinary number is well formed. -/
theorem Ordinary.wellFormed (ordinary : Ordinary value) : value.WellFormed := by
  cases ordinary with
  | real x made => exact wellFormed_real made
  | complex form a b first second =>
    exact .complex form _ _ (wellFormed_real first) (wellFormed_real second)

end Value

namespace Polynomial

variable {settings : Preferences} {p : Polynomial}

/-- Whether the factors of a polynomial are ordinary numbers, and each term has an exponent for each
of the names. -/
structure OfNumbers (p : Polynomial) : Prop where
  factors : ∀ term ∈ p.terms, Ordinary term.factor
  aligned : ∀ row ∈ p.rows, row.length = p.names.length

/-- The operations on polynomials stay among those of numbers. -/
theorem closed_ofNumbers : Closed (operations settings) settings OfNumbers := by
  have sum {x y z : Value} (left : Ordinary x) (right : Ordinary y)
      (done : (operations settings).binary .add x y = .ok z) : Ordinary z :=
    Arithmetic.ordinary_computed (Arithmetic.level_upTo settings _) (by decide) (by decide) left
      right done
  have product {x y z : Value} (left : Ordinary x) (right : Ordinary y)
      (done : (operations settings).binary .multiply x y = .ok z) : Ordinary z :=
    Arithmetic.ordinary_computed (Arithmetic.level_upTo settings _) (by decide) (by decide) left
      right done
  have opposite {x z : Value} (ordinary : Ordinary x)
      (done : (operations settings).unary .negate x = .ok z) : Ordinary z :=
    Arithmetic.ordinary_unaryOver (Arithmetic.level_upTo settings _) ordinary (by rintro ⟨⟩) done
  have factors : Closed (operations settings) settings _ :=
    closed_factors sum product opposite (.real _ (Real.isMade_ofInt 1))
  have aligned : Closed (operations settings) settings _ := closed_aligned
  exact {
    negate := fun p done => ⟨factors.negate p.factors done, aligned.negate p.aligned done⟩
    add := fun p q done =>
      ⟨factors.add p.factors q.factors done, aligned.add p.aligned q.aligned done⟩
    subtract := fun p q done =>
      ⟨factors.subtract p.factors q.factors done, aligned.subtract p.aligned q.aligned done⟩
    multiply := fun p q done =>
      ⟨factors.multiply p.factors q.factors done, aligned.multiply p.aligned q.aligned done⟩
    power := fun p done => ⟨factors.power p.factors done, aligned.power p.aligned done⟩ }

/-- What an expression of ordinary numbers and of polynomials of numbers denotes is a polynomial of
numbers. -/
theorem ofNumbers_ofExpression {items : List Value}
    (numbers : ∀ value ∈ items, value.isNumber = true → Ordinary value)
    (polynomials : ∀ q, .polynomial q ∈ items → OfNumbers q)
    (done : ofExpression (operations settings) settings items = .ok p) : p.OfNumbers := by
  refine closed_ofNumbers.ofExpression (fun name _ => ?_) polynomials (fun value among number => ?_)
    done
  · exact ⟨by simpa [ofVariable] using .real _ (Real.isMade_ofInt 1),
      by simp [ofVariable, PolynomialOver.rows]⟩
  · have normal : PolynomialOver.Normal (factors (operations settings)) settings.caseSensitive
        (ofConstant value) := normal_ofConstant value
    exact ⟨factors_ofConstant (numbers value among number), normal.aligned⟩

/-- The factors of a polynomial of numbers are one level down, and their parts are two. -/
theorem OfNumbers.nesting_le (numbers : p.OfNumbers) : nesting (.polynomial p) ≤ 2 := by
  obtain ⟨names, terms⟩ := p
  rw [nesting, Value.nestingOfPolynomial, nestingOfTerms_le_iff]
  exact fun term among => Nat.succ_le_succ (numbers.factors term among).nesting_le

/-- A polynomial of numbers is well formed. -/
theorem OfNumbers.wellFormed (numbers : p.OfNumbers) : Value.WellFormed (.polynomial p) :=
  .polynomial p.names p.terms
    (fun _ among => numbers.aligned _ (List.mem_map_of_mem among))
    fun term among => (numbers.factors term among).wellFormed

end Polynomial

/-! ## Constructs -/

namespace Value

/-- A value that may stand for itself in an expression of so many levels. The innermost values in it
are at most twice as deep as there are levels below the first one. -/
structure Slight (levels : ℕ) (value : Value) : Prop where
  alone : operandsOf value = 0
  shallow : value.nesting + 2 ≤ 2 * levels
  formed : value.WellFormed
  number : value.isNumber = true → Ordinary value
  polynomial : ∀ p, value = .polynomial p → Polynomial.OfNumbers p

/-- A value that may stand on the command line with so many levels inside it. The innermost values
in it are at most twice as deep as there are levels. -/
structure Shallow (levels : ℕ) (value : Value) : Prop where
  shallow : value.nesting ≤ 2 * levels
  formed : value.WellFormed

variable {levels : ℕ} {value : Value} {items : List Value}

/-- A number that may stand for itself is made. -/
theorem Slight.isMade {x : Real} (slight : Slight levels (.real x)) : x.IsMade := by
  cases slight.number rfl with
  | real _ made => exact made

/-- The items of an expression are no deeper than its leaves. -/
theorem nestingOfItems_of_slight (rooted : Rooted (Slight levels) items) :
    nestingOfItems items + 1 ≤ 2 * levels := by
  obtain ⟨leaf, -, slight⟩ := rooted.exists_leaf
  have some := slight.shallow
  obtain ⟨below, rfl⟩ : ∃ below, levels = below + 1 := ⟨levels - 1, by omega⟩
  have inside : nestingOfItems items ≤ 2 * below + 1 := by
    refine (nestingOfItems_le_iff _ _).mpr fun item among => ?_
    cases plain : item.isCommand with
    | true =>
      cases item with
      | command => simp [nesting]
      | _ => cases plain
    | false =>
      have shallow := (rooted.leaves item among (operandsOf_of_isCommand plain)).shallow
      omega
  omega

/-- The items of an expression are well formed. -/
theorem wellFormed_of_slight (rooted : Rooted (Slight levels) items) :
    ∀ item ∈ items, item.WellFormed := by
  intro item among
  cases plain : item.isCommand with
  | true =>
    cases item with
    | command command => exact .command command
    | _ => cases plain
  | false => exact (rooted.leaves item among (operandsOf_of_isCommand plain)).formed

end Value

namespace Source

open Value (Slight Shallow)

variable {levels : ℕ} {value : Value}

/-- What has no parts may stand for itself on one level. -/
theorem slight_of_single (plain : value.isCommand = false) (single : value.nesting = 0)
    (formed : value.WellFormed) (number : value.isNumber = true → Ordinary value)
    (polynomial : ∀ p, value ≠ .polynomial p) : Slight 1 value where
  alone := Value.operandsOf_of_isCommand plain
  shallow := by rw [single]
  formed := formed
  number := number
  polynomial p same := absurd same (polynomial p)

/-- These kinds of values permit what can be read. -/
theorem permits_slight : Permits Slight Shallow where
  alone slight := slight.alone
  wider {levels _} slight :=
    { slight with shallow := slight.shallow.trans (Nat.mul_le_mul_left 2 (Nat.le_succ levels)) }
  object slight := ⟨Nat.le_of_add_le_add_right slight.shallow, slight.formed⟩
  made made := slight_of_single rfl rfl (Value.wellFormed_real made) (fun _ => .real _ made) nofun
  negated {levels x} slight :=
    { alone := rfl
      shallow := slight.shallow
      formed := Value.wellFormed_real slight.isMade.negated
      number := fun _ => .real _ slight.isMade.negated
      polynomial := nofun }
  symbol name := slight_of_single rfl rfl (.symbol name) nofun nofun
  text content := slight_of_single rfl rfl (.text content) nofun nofun
  complex {levels} form {a b} first second := by
    have ordinary : Ordinary (.complex form (.real a) (.real b)) :=
      .complex form a b first.isMade second.isMade
    refine ⟨rfl, ?_, ordinary.wellFormed, fun _ => ordinary, nofun⟩
    have shallow := first.shallow
    have parts := ordinary.nesting_le
    omega
  polynomial {levels items settings p} rooted done := by
    have numbers : p.OfNumbers := Polynomial.ofNumbers_ofExpression
      (fun value among number => (rooted.leaves value among
        (Value.operandsOf_of_isCommand (Value.isCommand_of_isNumber number))).number number)
      (fun q among => (rooted.leaves _ among rfl).polynomial q rfl) done
    refine ⟨rfl, ?_, numbers.wellFormed, nofun, fun q same => ?_⟩
    · obtain ⟨leaf, -, slight⟩ := rooted.exists_leaf
      have shallow := slight.shallow
      have factors := numbers.nesting_le
      omega
    · cases same
      exact numbers
  quantity {levels x items} slight unit := by
    refine ⟨rfl, ?_, .unit _ _ slight.formed (Value.wellFormed_of_slight unit), nofun, nofun⟩
    have single := slight.shallow
    have inside := Value.nestingOfItems_of_slight unit
    rw [nesting]
    omega
  unit {levels value items} slight unit := by
    refine ⟨?_, .unit _ _ slight.formed (Value.wellFormed_of_slight unit)⟩
    have single := slight.shallow
    have inside := Value.nestingOfItems_of_slight unit
    rw [nesting]
    omega
  sequence {levels kind items} plain inside := by
    have each : ∀ item ∈ items, Shallow levels item := by
      intro item among
      cases command : item.isCommand with
      | true =>
        cases item with
        | command => exact ⟨by simp [nesting], .command _⟩
        | _ => cases command
      | false => exact inside item among command
    refine ⟨?_, .sequence _ _ fun item among => (each item among).formed⟩
    rw [nesting, nestingOfItems_le_iff]
    intro item among
    have shallow := (each item among).shallow
    omega
  expression rooted := by
    refine ⟨?_, .sequence _ _ (Value.wellFormed_of_slight rooted)⟩
    have inside := Value.nestingOfItems_of_slight rooted
    change nesting (.sequence .expression _) ≤ _
    rw [nesting]
    omega

/-! ## Lines -/

/-- Whether the reading of a line ends of itself, and not only because its steps are counted. To split
the line takes no more steps than it has characters, and whatever is repeated in it takes no more
than there are tokens left. However far beyond the limit the recursion is unrolled, the line is read
in the same way; the counter never exceeds the limit, and it is at zero again behind the line. A
construct within others leaves the counter where it was. -/
structure Terminates (source : String) (settings : Preferences) : Prop where
  tokens {steps : ℕ} (enough : source.toList.length ≤ steps) :
    Token.splitWithin source.utf8ByteSize steps source.toList 0 = Token.split source
  repetitions (levels : ℕ) : LoopsEnd ⟨settings, source.utf8ByteSize⟩ (atMost levels)
  recursion (beyond : DeeperOn Counting) {steps : ℕ}
    (further : settings.maxRecursion.toNat < steps) :
    ∃ deepest ≤ settings.maxRecursion.toNat,
      readLineWith (unrolled beyond steps) source settings ⟨0, 0⟩ =
        (readLine source settings, ⟨0, deepest⟩)
  nested (beyond : DeeperOn Counting) (cursor : Cursor) {depth steps : ℕ}
    (inside : depth ≤ settings.maxRecursion.toNat)
    (further : settings.maxRecursion.toNat < depth + steps) :
    (∀ minimum, Balanced settings.maxRecursion.toNat depth
      ((unrolled beyond steps).algebraic minimum ⟨settings, source.utf8ByteSize⟩ cursor)) ∧
    ∀ kind opening, Balanced settings.maxRecursion.toNat depth
      ((unrolled beyond steps).sequence kind opening ⟨settings, source.utf8ByteSize⟩ cursor)

/-- The reading of every line ends of itself. -/
theorem terminates (source : String) (settings : Preferences) : Terminates source settings where
  tokens enough := Token.splitWithin_eq enough le_rfl
  repetitions levels := loopsEnd_atMost _ levels
  recursion beyond _ further := readLineWith_eq beyond source further
  nested beyond cursor _ _ inside further :=
    balanced_unrolled beyond ⟨settings, source.utf8ByteSize⟩ cursor inside further

/-- The values of a line are no deeper than the settings allow, and they are well formed. -/
theorem shallow_readLine {source : String} {settings : Preferences} {values : List Value}
    (read : readLine source settings = .ok values) :
    ∀ value ∈ values, Shallow settings.maxRecursion.toNat value := by
  intro value among
  have readable := SatisfiesM_Except_eq.mp (readable_readLine permits_slight source settings)
    values read value among
  cases plain : value.isCommand with
  | false => exact readable plain
  | true =>
    cases value with
    | command command => exact ⟨by simp [nesting], .command command⟩
    | _ => cases plain

/-- What is read is never nested too deeply to be stored, if the settings allow at most 511 levels.
The reading ends. Each value of the line nests at most twice as deep as there are levels, and the
program of all of them by one more. So decoding the encoding of a value gives the value back. That
the length of the encoding is a word holds of everything that is in a memory. -/
theorem readLine_storable (source : String) (settings : Preferences)
    (limited : settings.maxRecursion.toNat ≤ 511) :
    Terminates source settings ∧
    ∀ values, readLine source settings = .ok values →
      (Value.sequence .program values).nesting ≤ 2 * settings.maxRecursion.toNat + 1 ∧
      ∀ value ∈ values, value.nesting ≤ 2 * settings.maxRecursion.toNat ∧
        (Encoding.Addressable value → Encoding.decode (Encoding.encode value) =
          .ok (value, (Encoding.encode value).length)) := by
  refine ⟨terminates source settings, fun values read => ⟨?_, fun value among => ?_⟩⟩
  · rw [nesting, nestingOfItems_le_iff]
    exact fun value among => Nat.succ_le_succ (shallow_readLine read value among).shallow
  · have shallow := shallow_readLine read value among
    refine ⟨shallow.shallow, fun addressable => ?_⟩
    have deep : value.nesting ≤ Encoding.deepestLevel :=
      shallow.shallow.trans ((Nat.mul_le_mul_left 2 limited).trans (by decide))
    have decoded := Encoding.decode_encode value [] ⟨shallow.formed, deep, addressable⟩
    rwa [List.append_nil] at decoded

/-- A list with a quantity in it takes both of two levels, and it is stored with three. -/
theorem readLine_storable_quantity :
    let settings : Preferences := { maxRecursion := 2 }
    let value := Value.sequence .list [.unit (.ofInt 1) [.symbol ⟨"m"⟩]]
    readLine "\x7b1_m\x7d" settings = .ok [value] ∧
      (∀ beyond, ∃ deepest ≤ 2, readLineWith (unrolled beyond 3) "\x7b1_m\x7d" settings ⟨0, 0⟩ =
        (.ok [value], ⟨0, deepest⟩)) ∧
      value.nesting = 3 ∧
        Encoding.decode (Encoding.encode value) = .ok (value, (Encoding.encode value).length) := by
  intro settings value
  let row : List Token.Written := [⟨false, .openBrace⟩, ⟨false, .number (Digits.text 1)⟩,
    ⟨false, .underscore⟩, ⟨false, .name "m"⟩, ⟨false, .closeBrace⟩]
  have read : readLine "\x7b1_m\x7d" settings = .ok [value] := by
    have text : "\x7b1_m\x7d" = Token.textOf row := by with_unfolding_all rfl
    have legible : Token.Legible row := legible_of_isPlainRow (by with_unfolding_all decide)
    rw [text, readLine_spans legible]
    with_unfolding_all rfl
  have addressable : Encoding.Addressable value := by
    rw [Encoding.Addressable]
    decide_cbv
  obtain ⟨terminates, stored⟩ := readLine_storable "\x7b1_m\x7d" settings (by decide)
  refine ⟨read, fun beyond => ?_, by decide_cbv, ?_⟩
  · have counted := terminates.recursion beyond (show settings.maxRecursion.toNat < 3 by decide)
    rwa [read] at counted
  · exact ((stored _ read).2 value List.mem_cons_self).2 addressable

end Source

end Calculator
