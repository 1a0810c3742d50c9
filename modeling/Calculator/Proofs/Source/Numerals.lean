import Calculator.Source.Token
import Mathlib

/-!
# Numerals

The grammar of the numbers in a source text: a mantissa, which is a row of digits with an optional
point or a point with digits behind it, and an optional exponent. What is scanned as a number is a
numeral, and a numeral is scanned as a whole wherever no number runs on behind it.
-/

namespace Calculator.Token

/-! ## The grammar -/

/-- A row of characters holds decimal digits only. -/
def AreDigits (characters : List Char) : Prop :=
  ∀ digit ∈ characters, Decimal.isDigit digit = true

/-- The mantissas of numerals. -/
inductive IsMantissa : List Char → Prop where
  | whole {digits : List Char} (nonempty : digits ≠ []) (plain : AreDigits digits) : IsMantissa digits
  | pointed {digits places : List Char} (nonempty : digits ≠ []) (plain : AreDigits digits)
      (behind : AreDigits places) : IsMantissa (digits ++ '.' :: places)
  | fraction {places : List Char} (nonempty : places ≠ []) (plain : AreDigits places) :
      IsMantissa ('.' :: places)

/-- The exponents of numerals: a mark, an optional sign and digits. -/
inductive IsExponent : List Char → Prop where
  | scale {mark : Char} {sign digits : List Char} (marked : mark ∈ ['e', 'E', '⁳'])
      (signed : sign ∈ [[], ['+'], ['-']]) (nonempty : digits ≠ []) (plain : AreDigits digits) :
      IsExponent (mark :: sign ++ digits)

/-- The numerals: a mantissa with an optional exponent. -/
inductive IsNumeral : List Char → Prop where
  | plain {mantissa : List Char} (digits : IsMantissa mantissa) : IsNumeral mantissa
  | scaled {mantissa exponent : List Char} (digits : IsMantissa mantissa) (power : IsExponent exponent) :
      IsNumeral (mantissa ++ exponent)

variable {digits mantissa exponent numeral next characters : List Char}

/-! ## Characters -/

/-- The decimal digits. -/
theorem mem_of_isDigit {character : Char} (digit : Decimal.isDigit character = true) :
    character ∈ ['0', '1', '2', '3', '4', '5', '6', '7', '8', '9'] := by
  have bounds : 48 ≤ character.toNat ∧ character.toNat ≤ 57 := by
    simpa [Decimal.isDigit, Char.le_def, UInt32.le_iff_toNat_le] using digit
  have listed : character.toNat ∈ [48, 49, 50, 51, 52, 53, 54, 55, 56, 57] := by
    simp only [List.mem_cons, List.not_mem_nil]
    omega
  rw [← Char.ofNat_toNat character]
  generalize character.toNat = point at listed
  fin_cases listed <;> decide

/-- A numeral begins with a digit or a point. -/
theorem IsNumeral.head (written : IsNumeral numeral) :
    ∃ first others, numeral = first :: others ∧
      first ∈ ['0', '1', '2', '3', '4', '5', '6', '7', '8', '9', '.'] := by
  have mantissaHead {mantissa : List Char} (written : IsMantissa mantissa) :
      ∃ first others, mantissa = first :: others ∧
        first ∈ ['0', '1', '2', '3', '4', '5', '6', '7', '8', '9', '.'] := by
    have front {digits : List Char} (nonempty : digits ≠ []) (plain : AreDigits digits) :
        ∃ first others, digits = first :: others ∧
          first ∈ ['0', '1', '2', '3', '4', '5', '6', '7', '8', '9', '.'] := by
      obtain ⟨first, others, rfl⟩ := List.exists_cons_of_ne_nil nonempty
      exact ⟨first, others, rfl,
        List.mem_append_left ['.'] (mem_of_isDigit (plain first List.mem_cons_self))⟩
    cases written with
    | whole nonempty plain => exact front nonempty plain
    | pointed nonempty plain behind =>
      obtain ⟨first, others, rfl, listed⟩ := front nonempty plain
      exact ⟨first, _, rfl, listed⟩
    | fraction nonempty plain => exact ⟨'.', _, rfl, by decide⟩
  cases written with
  | plain written => exact mantissaHead written
  | scaled written power =>
    obtain ⟨first, others, rfl, listed⟩ := mantissaHead written
    exact ⟨first, _, rfl, listed⟩

/-- Whether a number or a name in front of a character runs on in it. -/
def runsOn (character : Char) : Bool :=
  continuesName character || character == '.' || character == '⁳'

/-- Neither a number nor a name runs on in a row of characters. -/
def Ends (characters : List Char) : Prop := ∀ first ∈ characters.head?, runsOn first = false

/-- Where no number runs on there is no digit, no point and no mark of an exponent. -/
theorem Ends.head {first : Char} (ends : Ends (first :: next)) :
    continuesName first = false ∧ Decimal.isDigit first = false ∧ first ≠ '.' ∧ first ≠ 'e' ∧
      first ≠ 'E' ∧ first ≠ '⁳' := by
  have stops := ends first rfl
  simp only [runsOn, Bool.or_eq_false_iff, beq_eq_false_iff_ne] at stops
  obtain ⟨⟨name, point⟩, raised⟩ := stops
  refine ⟨name, Bool.eq_false_iff.mpr fun digit => ?_, point, ?_, ?_, raised⟩
  · obtain rfl : first = 'Ⓟ' := by simpa [continuesName, digit] using name
    exact absurd digit (by decide)
  · rintro rfl
    revert name
    decide
  · rintro rfl
    revert name
    decide

/-! ## Digits -/

/-- No digit stands at the front of a row of characters. -/
def NoDigit (characters : List Char) : Prop :=
  ∀ first ∈ characters.head?, Decimal.isDigit first = false

theorem noDigit_cons {first : Char} (digit : Decimal.isDigit first = false) :
    NoDigit (first :: next) := by
  rintro _ ⟨⟩
  exact digit

/-- Where no number runs on there is no digit. -/
theorem Ends.noDigit (ends : Ends next) : NoDigit next := by
  cases next with
  | nil => nofun
  | cons first others => exact noDigit_cons ends.head.2.1

/-- All digits in front of something else are scanned. -/
theorem scanDigits_append (plain : AreDigits digits) (stops : NoDigit next) :
    scanDigits (digits ++ next) = (digits, next) := by
  rw [scanDigits, List.takeWhile_append_of_pos plain, List.dropWhile_append_of_pos plain]
  cases next with
  | nil => simp
  | cons first others => simp [stops first rfl]

/-- What is scanned as digits are digits, and the rest is what is behind them. -/
theorem append_of_scanDigits {rest : List Char} (scanned : scanDigits characters = (digits, rest)) :
    AreDigits digits ∧ characters = digits ++ rest := by
  obtain ⟨rfl, rfl⟩ := Prod.mk.inj scanned
  exact ⟨fun _ => List.mem_takeWhile_imp, List.takeWhile_append_dropWhile.symm⟩

/-! ## Mantissas -/

/-- A mantissa is scanned as a whole if neither a digit nor a point stands behind it. -/
theorem scanMantissa?_append (written : IsMantissa mantissa) (stops : NoDigit next)
    (point : next.head? ≠ some '.') : scanMantissa? (mantissa ++ next) = some (mantissa, next) := by
  have pointStops (places : List Char) : NoDigit ('.' :: places) := noDigit_cons (by decide)
  cases written with
  | whole nonempty plain =>
    obtain ⟨digit, others, rfl⟩ := List.exists_cons_of_ne_nil nonempty
    rw [scanMantissa?, scanDigits_append plain stops]
    cases next with
    | nil => rfl
    | cons first rest =>
      have noPoint : first ≠ '.' := fun same => point (congrArg some same)
      simp [noPoint]
  | @pointed digits places nonempty plain behind =>
    obtain ⟨digit, others, rfl⟩ := List.exists_cons_of_ne_nil nonempty
    have first : scanDigits (digit :: others ++ '.' :: places ++ next) =
        (digit :: others, '.' :: (places ++ next)) := by
      rw [List.append_assoc]
      exact scanDigits_append plain (pointStops _)
    simp only [scanMantissa?, first, scanDigits_append behind stops]
  | @fraction places nonempty plain =>
    obtain ⟨digit, others, rfl⟩ := List.exists_cons_of_ne_nil nonempty
    have noDigits : AreDigits [] := by simp [AreDigits]
    have first : scanDigits ('.' :: (digit :: others ++ next)) =
        ([], '.' :: (digit :: others ++ next)) := scanDigits_append noDigits (pointStops _)
    have behind : scanDigits (digit :: others ++ next) = (digit :: others, next) :=
      scanDigits_append plain stops
    rw [scanMantissa?, List.cons_append, first]
    simp only [behind]

/-- What is scanned as a mantissa is one, and the rest is what is behind it. -/
theorem append_of_scanMantissa? {rest : List Char}
    (scanned : scanMantissa? characters = some (mantissa, rest)) :
    IsMantissa mantissa ∧ characters = mantissa ++ rest := by
  unfold scanMantissa? at scanned
  split at scanned
  · rename_i behind found
    obtain ⟨-, rfl⟩ := append_of_scanDigits found
    split at scanned
    · simp at scanned
    · rename_i places others nonempty foundPlaces
      obtain ⟨plain, rfl⟩ := append_of_scanDigits foundPlaces
      obtain ⟨rfl, rfl⟩ := Prod.mk.inj (Option.some.inj scanned)
      exact ⟨.fraction nonempty plain, rfl⟩
  · simp at scanned
  · rename_i digits behind nonempty found
    obtain ⟨plain, rfl⟩ := append_of_scanDigits found
    generalize foundPlaces : scanDigits behind = places at scanned
    obtain ⟨places, others⟩ := places
    obtain ⟨plainPlaces, rfl⟩ := append_of_scanDigits foundPlaces
    obtain ⟨rfl, rfl⟩ := Prod.mk.inj (Option.some.inj scanned)
    exact ⟨.pointed (by grind) plain plainPlaces, by simp⟩
  · rename_i nonempty _
    have found := Option.some.inj scanned
    obtain ⟨plain, rfl⟩ := append_of_scanDigits found
    refine ⟨.whole ?_ plain, rfl⟩
    rintro rfl
    exact nonempty _ found

/-! ## Exponents -/

/-- What does not begin with a mark of an exponent is no exponent. -/
theorem scanExponent?_of_ends (ends : Ends next) : scanExponent? next = none := by
  cases next with
  | nil => rfl
  | cons first rest =>
    obtain ⟨-, -, -, small, capital, raised⟩ := ends.head
    simp [scanExponent?, small, capital, raised]

/-- An exponent is scanned as a whole if no digit stands behind it. -/
theorem scanExponent?_append (written : IsExponent exponent) (stops : NoDigit next) :
    scanExponent? (exponent ++ next) = some (.ok (exponent, next)) := by
  obtain @⟨mark, sign, digits, marked, signed, nonempty, plain⟩ := written
  obtain ⟨digit, others, rfl⟩ := List.exists_cons_of_ne_nil nonempty
  have isMark : (mark == 'e' || mark == 'E' || mark == '⁳') = true := by
    fin_cases marked <;> decide
  have scannedSign : scanSign (sign ++ (digit :: others ++ next)) =
      (sign, digit :: others ++ next) := by
    have listed := mem_of_isDigit (plain digit List.mem_cons_self)
    fin_cases signed
    · fin_cases listed <;> rfl
    · rfl
    · rfl
  have scanned : scanDigits (digit :: others ++ next) = (digit :: others, next) :=
    scanDigits_append plain stops
  simp only [scanExponent?, List.cons_append, List.append_assoc, isMark, if_true]
  rw [← List.cons_append, scannedSign]
  simp only [scanned]

/-- What is scanned as an exponent is one, and the rest is what is behind it. -/
theorem append_of_scanExponent? {rest : List Char}
    (scanned : scanExponent? characters = some (.ok (exponent, rest))) :
    IsExponent exponent ∧ characters = exponent ++ rest := by
  cases characters with
  | nil => simp [scanExponent?] at scanned
  | cons mark behind =>
    unfold scanExponent? at scanned
    dsimp only at scanned
    split_ifs at scanned with isMark
    obtain ⟨sign, unsigned, signs, signed, rfl⟩ : ∃ sign unsigned,
        scanSign behind = (sign, unsigned) ∧ sign ∈ [[], ['+'], ['-']] ∧
          behind = sign ++ unsigned := by
      unfold scanSign
      split <;> simp
    rw [signs] at scanned
    split at scanned
    · simp at scanned
    · rename_i digits others nonempty found
      obtain ⟨plain, rfl⟩ := append_of_scanDigits found
      obtain ⟨rfl, rfl⟩ := Prod.mk.inj (Except.ok.inj (Option.some.inj scanned))
      exact ⟨.scale (by simpa [or_assoc] using isMark) signed nonempty plain, by simp⟩

/-! ## Numerals -/

/-- A numeral is scanned as a whole if no number runs on behind it. -/
theorem scanNumber?_append (written : IsNumeral numeral) (ends : Ends next) :
    scanNumber? (numeral ++ next) =
      some (.ok ⟨.number (String.ofList numeral), numeral, next⟩) := by
  cases written with
  | plain digits =>
    have point : next.head? ≠ some '.' := by
      cases next with
      | nil => simp
      | cons first rest =>
        intro same
        exact ends.head.2.2.1 (Option.some.inj same)
    simp only [scanNumber?, scanMantissa?_append digits ends.noDigit point,
      scanExponent?_of_ends ends]
  | @scaled mantissa exponent digits power =>
    have marks : NoDigit (exponent ++ next) ∧ (exponent ++ next).head? ≠ some '.' := by
      cases power with
      | scale marked => fin_cases marked <;> exact ⟨noDigit_cons (by decide), by simp⟩
    simp only [scanNumber?, List.append_assoc, scanMantissa?_append digits marks.1 marks.2,
      scanExponent?_append power ends.noDigit]

/-- What is scanned as a number is a numeral, and the rest is what is behind it. -/
theorem append_of_scanNumber? {found : Scanned}
    (scanned : scanNumber? characters = some (.ok found)) :
    IsNumeral found.lexeme ∧ found.token = .number (String.ofList found.lexeme) ∧
      characters = found.lexeme ++ found.rest := by
  unfold scanNumber? at scanned
  split at scanned
  · simp at scanned
  · rename_i mantissa behind foundMantissa
    obtain ⟨digits, rfl⟩ := append_of_scanMantissa? foundMantissa
    split at scanned
    · rename_i exponent rest foundExponent
      obtain ⟨power, rfl⟩ := append_of_scanExponent? foundExponent
      obtain rfl := Except.ok.inj (Option.some.inj scanned)
      exact ⟨.scaled digits power, rfl, (List.append_assoc _ _ _).symm⟩
    · split_ifs at scanned with raised
      · simp at scanned
      · obtain rfl := Except.ok.inj (Option.some.inj scanned)
        exact ⟨.plain digits, rfl, rfl⟩
    · obtain rfl := Except.ok.inj (Option.some.inj scanned)
      exact ⟨.plain digits, rfl, rfl⟩

end Calculator.Token
