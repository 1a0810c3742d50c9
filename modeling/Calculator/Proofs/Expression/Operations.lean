import Calculator.Proofs.Expression.Complex
import Mathlib

/-!
# Arithmetic of numbers, texts and units stays inside

Comparisons and logical operators answer numbers, texts are joined to texts, and values with units
are operated on part by part. So where the operations on the parts stay inside a kind of values, all
operations do that neither build an expression nor compute with polynomials.
-/

namespace Calculator.Arithmetic

/-- Whether a result is of a kind, if there is one. -/
def ResultIn (Inside : Value → Prop) (result : Option Value) : Prop :=
  ∀ value ∈ result, Inside value

section Result

variable {Inside : Value → Prop}

/-- Without a result there is nothing to be shown. -/
theorem resultIn_none : ResultIn Inside none := by
  rintro _ ⟨⟩

/-- A value of the kind may be a result. -/
theorem resultIn_some {value : Value} (inside : Inside value) : ResultIn Inside (some value) := by
  rintro _ ⟨⟩
  exact inside

end Result

variable {Inside : Value → Prop} {Row : List Value → Prop}
variable {parts : Operations} {settings : Preferences} {x y : Value} {command : Command}

section Domain

variable (domain : Domain Inside Row)
include domain

/-- Truth is a number. -/
theorem inside_ofBool (truth : Bool) : Inside (.ofBool truth) := domain.ofInt _

/-- A comparison answers a number. -/
theorem inside_comparison : SatisfiesM Inside (comparison parts command x y) := by
  unfold comparison
  have decided {step : Outcome Bool} {form : Bool → Bool} :
      SatisfiesM Inside (step >>= fun truth => pure (Value.ofBool (form truth))) :=
    SatisfiesM.trivial.bind fun _ _ => .pure (inside_ofBool domain _)
  have ordered {step : Outcome Ordering} {form : Ordering → Bool} :
      SatisfiesM Inside (step >>= fun order => pure (Value.ofBool (form order))) :=
    SatisfiesM.trivial.bind fun _ _ => .pure (inside_ofBool domain _)
  split
  · exact decided
  · exact decided
  · exact ordered
  · exact ordered
  · exact ordered
  · exact ordered
  · exact Outcome.satisfiesM_error _

/-- A logical operator answers a number. -/
theorem inside_logical : SatisfiesM Inside (logical command x y) := by
  unfold logical
  refine SatisfiesM.trivial.bind fun a _ => SatisfiesM.trivial.bind fun b _ => ?_
  split
  · exact .pure (inside_ofBool domain _)
  · exact .pure (inside_ofBool domain _)
  · exact .pure (inside_ofBool domain _)
  · exact Outcome.satisfiesM_error _

/-- A repeated text is a text. -/
theorem inside_repeatText {content : String} {count : Value} :
    SatisfiesM Inside (repeatText content count) := by
  unfold repeatText
  split
  · split
    · exact Outcome.satisfiesM_error _
    · exact .pure (domain.text _)
  · exact Outcome.satisfiesM_error _

/-- An operation on texts answers a text, if anything. -/
theorem resultIn_texts : SatisfiesM (ResultIn Inside) (texts command x y) := by
  have none : SatisfiesM (ResultIn Inside) (.ok none : Outcome (Option Value)) :=
    .pure resultIn_none
  unfold texts
  split
  · exact .pure (resultIn_some (domain.text _))
  · split
    · exact (inside_repeatText domain).map resultIn_some
    · exact none
  · split
    · exact (inside_repeatText domain).map resultIn_some
    · exact none
  · exact none

end Domain

/-- Arithmetic of two values is a level of it over another one. -/
theorem exists_binary_eq (command : Command) (x y : Value) (settings : Preferences) :
    ∃ level, binary command x y settings =
      binaryOver (upTo settings level) settings command x y :=
  ⟨max x.height y.height + 7, rfl⟩

/-- Arithmetic of a value is a level of it over another one. -/
theorem exists_unary_eq (command : Command) (x : Value) (settings : Preferences) :
    ∃ level, unary command x settings = unaryOver (upTo settings level) settings command x :=
  ⟨x.height + 7, rfl⟩

variable (stay : parts.Stay Inside Row)
include stay

/-- Operations on values with units combine their units to a row of the kind. -/
theorem inside_units (dyadic : command.isDyadic = true) (left : Inside x) (right : Inside y) :
    SatisfiesM Inside (units parts command x y) := by
  have both := Command.operands_of_isDyadic dyadic
  have combined {a b : Value} {row : List Value} (first : Inside a) (second : Inside b)
      (unit : Row row) :
      SatisfiesM Inside (parts.binary command a b >>= fun c => pure (Value.unit c row)) :=
    (stay.binary dyadic first second).bind fun c inside => .pure (stay.unit.mpr ⟨inside, unit⟩)
  unfold units
  split
  · obtain ⟨first, unit⟩ := stay.unit.mp left
    obtain ⟨second, unit'⟩ := stay.unit.mp right
    split
    · split
      · exact combined first second unit
      · exact Outcome.satisfiesM_error _
    · split
      · exact combined first second unit
      · exact Outcome.satisfiesM_error _
    · exact combined first second (stay.rowBinary unit unit' both)
    · exact combined first second (stay.rowBinary unit unit' both)
    · split
      · split
        · exact inside_comparison stay.toDomain
        · exact Outcome.satisfiesM_error _
      · exact Outcome.satisfiesM_error _
  · obtain ⟨first, unit⟩ := stay.unit.mp left
    split
    · exact combined first right unit
    · exact combined first right unit
    · split
      · have power := stay.rowBinary unit (stay.rowLeaf right) both
        rw [List.append_assoc] at power
        exact combined first right power
      · exact Outcome.satisfiesM_error _
    · exact Outcome.satisfiesM_error _
    · exact Outcome.satisfiesM_error _
    · exact Outcome.satisfiesM_error _
  · obtain ⟨second, unit⟩ := stay.unit.mp right
    split
    · exact combined left second unit
    · exact combined left second (stay.rowUnary unit rfl)
    · exact Outcome.satisfiesM_error _
    · exact Outcome.satisfiesM_error _
    · exact Outcome.satisfiesM_error _
  · exact Outcome.satisfiesM_error _

/-- A function of a real number has a value inside. -/
theorem inside_realUnary {number : Real} (inside : Inside (.real number)) :
    SatisfiesM Inside (realUnary parts settings command number) := by
  have applied {a : Real} (inside : Inside (.real a)) (function : Command) :
      SatisfiesM (fun result => Inside (.real result)) (a.apply function settings) :=
    SatisfiesM_Except_eq.mpr fun _ => stay.applied inside
  unfold realUnary
  split
  · exact (applied (stay.negated inside) .squareRoot).bind fun _ root =>
      .pure (Complex.inside_rectangular stay (stay.ofInt 0) root)
  · exact Complex.inside_unary stay (stay.withoutImaginary inside)
  · exact Complex.inside_unary stay (stay.withoutImaginary inside)
  · exact (applied inside _).bind fun _ result => .pure result

/-- A function of a number has a value inside. -/
theorem inside_numberUnary (inside : Inside x) :
    SatisfiesM Inside (numberUnary parts settings command x) := by
  unfold numberUnary
  split
  · exact inside_realUnary stay inside
  · exact Complex.inside_unary stay inside
  · exact Outcome.satisfiesM_error _

/-- An operation on two numbers has a result inside. -/
theorem inside_numberBinary (left : Inside x) (right : Inside y) :
    SatisfiesM Inside (numberBinary parts settings command x y) := by
  unfold numberBinary
  split
  · split
    · exact Complex.inside_binary stay left right
    · refine SatisfiesM_Except_eq.mpr fun result done => ?_
      obtain ⟨number, operated, rfl⟩ := Outcome.map_eq_ok.mp done
      exact stay.made (Real.isMade_operate operated)
  · split
    · exact Complex.inside_binary stay left right
    · exact Outcome.satisfiesM_error _

/-- A power with an inverse degree is inside. -/
theorem inside_powerOfInverse {degree : Real} (inside : Inside x) (known : Inside (.real degree)) :
    SatisfiesM Inside (powerOfInverse parts settings x degree) := by
  have inverse : SatisfiesM (fun result => Inside (.real result))
      (degree.apply .invert settings) :=
    SatisfiesM_Except_eq.mpr fun _ => stay.applied known
  unfold powerOfInverse
  exact inverse.bind fun _ exponent => inside_numberBinary stay inside exponent

/-- A root is inside. -/
theorem inside_nthRoot {degree : Real} (inside : Inside x) (known : Inside (.real degree)) :
    SatisfiesM Inside (nthRoot parts settings x degree) := by
  unfold nthRoot
  dsimp only
  split
  · exact Outcome.satisfiesM_error _
  · split
    · split
      · refine (inside_powerOfInverse stay (stay.negated inside) known).bind fun _ root => ?_
        exact inside_numberUnary stay root
      · exact inside_powerOfInverse stay inside known
    · exact inside_powerOfInverse stay inside known

/-- An operation on two values that are neither symbolic nor have units has a result inside. -/
theorem inside_plainBinary (left : Inside x) (right : Inside y) :
    SatisfiesM Inside (plainBinary parts settings command x y) := by
  unfold plainBinary
  refine (resultIn_texts stay.toDomain).bind fun result joined => ?_
  split
  · exact .pure (joined _ rfl)
  · split
    · exact inside_comparison stay.toDomain
    · split
      · exact inside_logical stay.toDomain
      · exact inside_logical stay.toDomain
      · exact inside_logical stay.toDomain
      · split
        · exact inside_nthRoot stay left right
        · exact Outcome.satisfiesM_error _
      · exact inside_numberBinary stay left right

/-- An operation on two values of which none is symbolic has a result inside. -/
theorem inside_generalBinary (dyadic : command.isDyadic = true) (left : Inside x) (right : Inside y)
    (plain : (x.isSymbolic || y.isSymbolic) = false) :
    SatisfiesM Inside (generalBinary parts settings command x y) := by
  unfold generalBinary
  rw [if_neg (Bool.eq_false_iff.mp plain)]
  split
  · exact inside_units stay dyadic left right
  · exact inside_units stay dyadic left right
  · exact inside_plainBinary stay left right

/-- One more level of operations has a result inside, on two values of which none is symbolic. -/
theorem inside_binaryOver (dyadic : command.isDyadic = true) (left : Inside x) (right : Inside y)
    (plain : (x.isSymbolic || y.isSymbolic) = false) :
    SatisfiesM Inside (binaryOver parts settings command x y) := by
  unfold binaryOver
  split
  · cases dyadic
  · cases dyadic
  · cases plain
  · simp [Value.isSymbolic] at plain
  · exact inside_generalBinary stay dyadic left right plain

/-- One more level of functions has a value inside, of a value that is not symbolic. -/
theorem inside_unaryOver (single : command.operands = 1) (inside : Inside x)
    (plain : x.isSymbolic = false) : SatisfiesM Inside (unaryOver parts settings command x) := by
  unfold unaryOver
  split
  · cases plain
  · cases plain
  · cases plain
  · obtain ⟨inner, unit⟩ := stay.unit.mp inside
    have changed {command : Command} (single : command.operands = 1) :
        SatisfiesM Inside (parts.unary command _ >>= fun result => pure (Value.unit result _)) :=
      (stay.unary single inner).bind fun _ result => .pure (stay.unit.mpr ⟨result, unit⟩)
    split
    · exact changed rfl
    · exact changed rfl
    · exact inside_units stay rfl inside (stay.ofInt 2)
    · exact inside_units stay rfl inside (stay.ofInt 3)
    · exact Outcome.satisfiesM_error _
  · exact inside_numberUnary stay inside

end Calculator.Arithmetic
