import Calculator.Proofs.Encoding.Elements
import Calculator.Proofs.Encoding.RoundTrip
import Mathlib

/-!
# Decoding bytes of any origin

Bytes need not have been written by the encoder to be decoded: numbers may be longer than
necessary, and mantissas need not be rounded. Whatever the bytes were, both readers take the
same ones, and the value that comes out is one that encoding and decoding preserve. Encoding
it may take more bytes than it was decoded from, but never more than twice as many.
-/

namespace Calculator.Encoding

/-! ## Lengths -/

/-- A number that some bytes denote is not written in groups of seven bits longer than twice the
counted bytes. -/
theorem write_toNat_length (content : List UInt8) :
    (Leb128.write (Bytes.toNat content)).length ≤ 2 * (counted content).length := by
  have front := length_lt_counted content
  have bound : Bytes.toNat content < 128 ^ (2 * content.length + 1) := by
    calc Bytes.toNat content < 256 ^ content.length := Bytes.toNat_lt content
      _ ≤ (128 ^ 2) ^ content.length := Nat.pow_le_pow_left (by decide) _
      _ = 128 ^ (2 * content.length) := (Nat.pow_mul 128 2 _).symm
      _ ≤ 128 ^ (2 * content.length + 1) := Nat.pow_le_pow_right (by decide) (Nat.le_succ _)
  have short := (Leb128.write_length_le_iff _ _).mpr bound
  omega

/-- Bytes that are no more than others, or a single one instead of none, take at most one byte
more with their number in front. -/
theorem counted_length_le (shorter longer : List UInt8)
    (bound : shorter.length ≤ max 1 longer.length) :
    (counted shorter).length ≤ (counted longer).length + 1 := by
  rw [counted, counted, List.length_append, List.length_append]
  rcases Nat.eq_zero_or_pos longer.length with empty | nonempty
  · have prefixes := Leb128.write_length_mono (show shorter.length ≤ 1 by omega)
    rw [empty, show (Leb128.write 0).length = 1 by simp [Leb128.write]]
    rw [show (Leb128.write 1).length = 1 by simp [Leb128.write]] at prefixes
    omega
  · have prefixes := Leb128.write_length_mono (show shorter.length ≤ longer.length by omega)
    omega

/-- A count of up to twice as much is written in at most one byte more. -/
theorem write_double_length (number twice : Nat) (bound : twice ≤ 2 * number) :
    (Leb128.write twice).length ≤ (Leb128.write number).length + 1 := by
  obtain ⟨count, length⟩ : ∃ count, (Leb128.write number).length = count + 1 :=
    Nat.exists_eq_succ_of_ne_zero (Leb128.write_length_pos number).ne'
  have below := (Leb128.write_length_le_iff number count).mp length.le
  rw [length, Leb128.write_length_le_iff, Nat.pow_succ]
  omega

/-- If bytes at most double, so do they with their number in front. -/
theorem counted_double_length (content twice : List UInt8)
    (bound : twice.length ≤ 2 * content.length) :
    (counted twice).length ≤ 2 * (counted content).length := by
  have front := write_double_length content.length twice.length bound
  have positive := Leb128.write_length_pos content.length
  rw [counted, counted, List.length_append, List.length_append]
  omega

/-- The encoding of a real number is a tag of one byte and the payload. -/
theorem encode_real_length (number : Real) :
    (encode (.real number)).length = 1 + (realPayload number).length := by
  rw [encode, List.length_append, tagBytes_length]

/-- An integer's encoding takes at most twice the bytes that its magnitude was given by. -/
theorem realPayload_ofInt_length (number : Int) (content : List UInt8)
    (magnitude : number.natAbs = Bytes.toNat content) :
    (realPayload (.ofInt number)).length ≤ 2 * (counted content).length := by
  have front := length_lt_counted content
  rw [Real.ofInt]
  split
  · rw [realPayload, magnitude]
    have length := counted_length_le _ content (Bytes.ofNat_toNat_length content)
    omega
  · rename_i narrow
    have inside : number.natAbs < UInt64.size := Nat.lt_of_not_le narrow
    rw [realPayload, Word.ofSign_magnitude, UInt64.toNat_ofNat_of_lt' inside, magnitude]
    exact write_toNat_length content

/-- A fraction's payload takes at most twice the bytes that its parts were given by. -/
theorem realPayload_fraction_length (fraction : Fraction) (above below : List UInt8)
    (numerator : fraction.numerator.natAbs = Bytes.toNat above)
    (denominator : fraction.denominator = Bytes.toNat below) :
    (realPayload (.fraction fraction)).length ≤
      2 * ((counted above).length + (counted below).length) := by
  have aboveFront := length_lt_counted above
  have belowFront := length_lt_counted below
  rw [realPayload]
  split
  · rw [List.length_append, numerator, denominator]
    have aboveLength := write_toNat_length above
    have belowLength := write_toNat_length below
    omega
  · rw [List.length_append, numerator, denominator]
    have aboveLength := counted_length_le _ above (Bytes.ofNat_toNat_length above)
    have belowLength := counted_length_le _ below (Bytes.ofNat_toNat_length below)
    omega

/-- Rounding drops fewer than two dozen digits of a mantissa that some ten bytes denote. -/
theorem digits_le_of_short (content : List UInt8) (scale : Int64) (short : content.length < 10) :
    (⟨Bytes.toInt content, scale⟩ : Decimal).digits ≤ 24 := by
  rcases Nat.eq_zero_or_pos (Bytes.toInt content).natAbs with zero | positive
  · rw [Decimal.digits, zero]
    decide_cbv
  · refine (Digits.count_le_iff _ 24 positive).mpr ?_
    cases content with
    | nil => simp [Bytes.toInt] at positive
    | cons byte bytes =>
      have bounds := Bytes.toInt_bounds byte bytes
      have power : 256 ^ bytes.length ≤ 256 ^ 8 :=
        Nat.pow_le_pow_right (by decide) (by rw [List.length_cons] at short; omega)
      have limit : (256 : Int) ^ bytes.length ≤ 256 ^ 8 := by exact_mod_cast power
      have inside : (Bytes.toInt (byte :: bytes)).natAbs ≤ 128 * 256 ^ 8 := by omega
      exact Nat.lt_of_le_of_lt inside (by decide)

/-- A decimal's payload takes at most twice the bytes that its scale and its mantissa were given
by before rounding. -/
theorem realPayload_ofDecimal_length (content : List UInt8) (scale : Int64)
    (precision : Precision) :
    (realPayload (.ofDecimal ⟨Bytes.toInt content, scale⟩ precision)).length ≤
      2 * ((Leb128.write (Leb128.zigzag scale).toNat).length + (counted content).length) := by
  have front := length_lt_counted content
  have scaleFront := Leb128.write_length_pos (Leb128.zigzag scale).toNat
  rw [Real.ofDecimal, realPayload, List.length_append, Rounded.make]
  by_cases zero : Bytes.toInt content = 0
  · have scaleLength : (Leb128.write (Leb128.zigzag Decimal.zero.scale).toNat).length = 1 := by
      decide_cbv
    have mantissaLength : (counted (Bytes.ofInt Decimal.zero.mantissa)).length = 2 := by
      decide_cbv
    rw [if_pos (by simpa [Decimal.isZero] using zero), scaleLength, mantissaLength]
    omega
  · have counted : 0 < precision.digits := by cases precision <;> decide
    obtain ⟨rest, dropped, form, -, -, smaller, few⟩ :=
      Decimal.rounded_shape ⟨Bytes.toInt content, scale⟩ precision.digits zero counted
    rw [if_neg (by simpa [Decimal.isZero] using zero), form]
    dsimp only
    have magnitude := Decimal.natAbs_sign_mul zero rest
    have sameSign : 0 ≤ (Bytes.toInt content).sign * (rest : Int) * Bytes.toInt content := by
      rw [Int.mul_right_comm, Int.sign_mul_self_eq_natAbs]
      exact Int.mul_nonneg (by omega) (by omega)
    have mantissa := counted_length_le _ content
      (Bytes.ofInt_length_le_of_between content _ (by rw [magnitude]; exact smaller) sameSign)
    rcases Nat.lt_or_ge content.length 10 with short | long
    · have near := Leb128.write_zigzag_sub_length scale dropped
        (Nat.le_trans few (digits_le_of_short content scale short))
      have nonempty : 0 < content.length := by
        refine List.length_pos_iff.mpr ?_
        rintro rfl
        exact zero rfl
      omega
    · have longest := Leb128.write_length_le_ten _
        (Leb128.zigzag (scale - Int64.ofNat dropped)).toNat_lt
      omega

/-! ## What decoding guarantees -/

/-- What is known of bytes from which a value was decoded within so many levels. -/
structure Sound (levels : Nat) (used : List UInt8) (value : Value) : Prop where
  /-- The value is one that encoding preserves. -/
  formed : value.WellFormed
  /-- The value nests no deeper than the levels. -/
  shallow : value.nesting < levels
  /-- Passing over a value takes the same bytes. -/
  passed : ∀ fuel, used.length ≤ fuel → Accepts (skipWithin fuel) used ()
  /-- Encoding the value takes at most twice as many bytes. -/
  short : (encode value).length ≤ 2 * used.length

/-- What is known of bytes from which a value was decoded behind a tag. -/
structure SoundPayload (levels : Nat) (tag : Tag) (used : List UInt8) (value : Value) : Prop where
  /-- The value is one that encoding preserves. -/
  formed : value.WellFormed
  /-- The values inside the value nest no deeper than the levels. -/
  shallow : value.nesting ≤ levels
  /-- Passing over what the tag announces takes the same bytes. -/
  passed : ∀ fuel, used.length ≤ fuel → Accepts (skipPayload (skipWithin fuel) tag) used ()
  /-- Encoding the value takes at most twice as many bytes as there are together with a tag. -/
  short : (encode value).length ≤ 2 * (used.length + 1)

/-- Every integer is one that encoding preserves. -/
theorem wellFormed_ofInt (number : Int) : (Value.real (.ofInt number)).WellFormed := by
  rw [Real.ofInt]
  split
  · exact .wide _
  · exact .word _

/-- A real number's payload is sound if passing over it works and its new payload is not more
than twice as long. -/
theorem SoundPayload.of_real {levels : Nat} {tag : Tag} {used : List UInt8} {number : Real}
    (formed : (Value.real number).WellFormed)
    (passed : ∀ skip, Accepts (skipPayload skip tag) used ())
    (short : (realPayload number).length ≤ 2 * used.length) :
    SoundPayload levels tag used (.real number) where
  formed := formed
  shallow := Nat.zero_le _
  passed fuel _ := passed (skipWithin fuel)
  short := by
    rw [encode_real_length]
    omega

/-- Machine integers. -/
theorem reads_word (levels : Nat) (tag : Tag) (value : Reader Value)
    (integer : tag = .integer ∨ tag = .negativeInteger) :
    Reads (readPayload value tag) (SoundPayload levels tag) := by
  have sound (negative : Bool) (front : List UInt8) (magnitude : UInt64)
      (taken : Accepts Reader.number front magnitude)
      (enough : (Leb128.write magnitude.toNat).length ≤ front.length) :
      SoundPayload levels tag front (.real (.word (Word.ofSign negative magnitude))) := by
    refine .of_real (.word _) (fun skip => ?_) ?_
    · obtain rfl | rfl := integer <;> exact accepts_discard taken
    · rw [realPayload, Word.ofSign_magnitude]
      omega
  obtain rfl | rfl := integer
  · simp only [readPayload, Tag.isNegative, Bool.false_and, Bool.false_eq_true, if_false]
    exact reads_answer _ reads_number (sound false)
  · refine reads_bind reads_number fun front magnitude taken enough => ?_
    simp only [Tag.isNegative, Bool.true_and]
    split
    · have nothing : Reads (throw .negativeZero : Reader PUnit) fun _ _ => False :=
        reads_throw _ _
      exact reads_bind nothing fun _ _ _ never => never.elim
    · refine reads_pure _ _ ?_
      rw [List.append_nil]
      exact sound true front magnitude taken enough

/-- Integers of any size. -/
theorem reads_wide (levels : Nat) (tag : Tag) (value : Reader Value)
    (wide : tag = .wide ∨ tag = .negativeWide) :
    Reads (readPayload value tag) (SoundPayload levels tag) := by
  have sound (number : Int) (front content : List UInt8)
      (magnitude : number.natAbs = Bytes.toNat content)
      (taken : Accepts Reader.counted front content)
      (enough : (counted content).length ≤ front.length) :
      SoundPayload levels tag front (.real (.ofInt number)) := by
    have length := realPayload_ofInt_length number content magnitude
    refine .of_real (wellFormed_ofInt number) (fun skip => ?_) (by omega)
    obtain rfl | rfl := wide <;> exact accepts_discard taken
  obtain rfl | rfl := wide
  · refine reads_answer _ reads_counted fun front content taken enough => ?_
    exact sound _ front content (by simp [Tag.isNegative]) taken enough
  · refine reads_answer _ reads_counted fun front content taken enough => ?_
    exact sound _ front content (by simp [Tag.isNegative]) taken enough

/-- A fraction in lowest terms has the parts it is made of. -/
theorem ofReduced?_parts {numerator : Int} {denominator : Nat} {fraction : Fraction}
    (made : Fraction.ofReduced? numerator denominator = some fraction) :
    fraction.numerator = numerator ∧ fraction.denominator = denominator := by
  rw [Fraction.ofReduced?] at made
  split at made
  · rw [Option.some.injEq] at made
    subst made
    exact ⟨rfl, rfl⟩
  · simp at made

/-- What comes of a sign and two parts is a fraction with that magnitude. -/
theorem fractionOf_eq_ok {negative : Bool} {numerator denominator : Nat} {value : Value}
    (made : fractionOf negative numerator denominator = .ok value) :
    ∃ fraction : Fraction, value = .real (.fraction fraction) ∧
      fraction.numerator.natAbs = numerator ∧ fraction.denominator = denominator := by
  rw [fractionOf] at made
  by_cases zero : numerator = 0
  · simp [zero] at made
  · rw [if_neg zero] at made
    cases lowest : Fraction.ofReduced? (if negative then -(numerator : Int) else numerator)
        denominator with
    | none => simp [lowest] at made
    | some fraction =>
      obtain ⟨above, below⟩ := ofReduced?_parts lowest
      simp only [lowest, Except.ok.injEq] at made
      refine ⟨fraction, made.symm, ?_, below⟩
      rw [above]
      cases negative <;> simp

/-- Fractions whose parts are machine words. -/
theorem reads_fraction (levels : Nat) (tag : Tag) (value : Reader Value)
    (small : tag = .fraction ∨ tag = .negativeFraction) :
    Reads (readPayload value tag) (SoundPayload levels tag) := by
  have sound (negative : Bool) : Reads (do
      let numerator ← Reader.number
      let denominator ← Reader.number
      fractionOf negative numerator.toNat denominator.toNat) (SoundPayload levels tag) := by
    refine reads_bind reads_number fun front numerator above aboveEnough => ?_
    refine reads_bind reads_number fun back denominator below belowEnough => ?_
    refine reads_lift _ _ fun value made => ?_
    obtain ⟨fraction, rfl, numeratorPart, denominatorPart⟩ := fractionOf_eq_ok made
    have inside : fraction.isSmall = true := by
      have aboveFits := numerator.toNat_lt
      have belowFits := denominator.toNat_lt
      simp only [Fraction.isSmall, numeratorPart, denominatorPart, UInt64.size,
        Bool.and_eq_true, decide_eq_true_eq]
      exact ⟨aboveFits, belowFits⟩
    rw [List.append_nil]
    refine .of_real (.fraction _) (fun skip => ?_) ?_
    · obtain rfl | rfl := small <;>
        exact accepts_after (accepts_discard above) (accepts_discard below)
    · rw [realPayload, if_pos inside, numeratorPart, denominatorPart, List.length_append,
        List.length_append]
      omega
  obtain rfl | rfl := small
  · exact sound false
  · exact sound true

/-- Fractions with parts of any size. -/
theorem reads_wideFraction (levels : Nat) (tag : Tag) (value : Reader Value)
    (wide : tag = .wideFraction ∨ tag = .negativeWideFraction) :
    Reads (readPayload value tag) (SoundPayload levels tag) := by
  have sound (negative : Bool) : Reads (do
      let numerator ← Reader.counted
      let denominator ← Reader.counted
      fractionOf negative (Bytes.toNat numerator) (Bytes.toNat denominator))
      (SoundPayload levels tag) := by
    refine reads_bind reads_counted fun front numerator above aboveEnough => ?_
    refine reads_bind reads_counted fun back denominator below belowEnough => ?_
    refine reads_lift _ _ fun value made => ?_
    obtain ⟨fraction, rfl, numeratorPart, denominatorPart⟩ := fractionOf_eq_ok made
    have length := realPayload_fraction_length fraction numerator denominator numeratorPart
      denominatorPart
    rw [List.append_nil]
    refine .of_real (.fraction _) (fun skip => ?_) ?_
    · obtain rfl | rfl := wide <;>
        exact accepts_after (accepts_discard above) (accepts_discard below)
    · rw [List.length_append]
      omega
  obtain rfl | rfl := wide
  · exact sound false
  · exact sound true

/-- Decimals of any tier. -/
theorem reads_decimal (levels : Nat) (precision : Precision) (value : Reader Value) :
    Reads (readPayload value (Tag.ofPrecision precision))
      (SoundPayload levels (Tag.ofPrecision precision)) := by
  have sound : Reads (readPayload.readDecimal precision)
      (SoundPayload levels (Tag.ofPrecision precision)) := by
    refine reads_bind reads_number fun front scale scalePart scaleEnough => ?_
    refine reads_answer _ reads_counted fun back mantissa mantissaPart mantissaEnough => ?_
    have length := realPayload_ofDecimal_length mantissa (Leb128.unzigzag scale) precision
    rw [Leb128.zigzag_unzigzag] at length
    refine .of_real (.decimal _ ⟨_, rfl⟩) (fun skip => ?_) ?_
    · cases precision <;>
        exact accepts_after (accepts_discard scalePart) (accepts_discard mantissaPart)
    · rw [List.length_append]
      omega
  cases precision <;> exact sound

/-- Complex numbers of either form. -/
theorem reads_complex (levels : Nat) (form : ComplexForm) (value : Reader Value)
    (inner : Reads value (Sound levels)) :
    Reads (readPayload value (Tag.ofForm form)) (SoundPayload levels (Tag.ofForm form)) := by
  have sound : Reads (do
      let first ← value
      let second ← value
      return .complex form first second) (SoundPayload levels (Tag.ofForm form)) := by
    refine reads_bind inner fun front first _ soundFirst => ?_
    refine reads_answer _ inner fun back second _ soundSecond => ?_
    have shallowFirst := soundFirst.shallow
    have shallowSecond := soundSecond.shallow
    refine ⟨.complex _ _ _ soundFirst.formed soundSecond.formed, ?_, ?_, ?_⟩
    · rw [Value.nesting]
      omega
    · intro fuel enough
      rw [List.length_append] at enough
      have passed := accepts_after (soundFirst.passed fuel (by omega))
        (soundSecond.passed fuel (by omega))
      cases form <;> exact passed
    · have shortFirst := soundFirst.short
      have shortSecond := soundSecond.short
      rw [encode, List.length_append, List.length_append, List.length_append, tagBytes_length]
      omega
  cases form <;> exact sound

/-- Names. -/
theorem reads_symbol (levels : Nat) (value : Reader Value) :
    Reads (readPayload value .symbol) (SoundPayload levels .symbol) := by
  refine reads_answer _ reads_text fun front name _ read => ?_
  obtain ⟨taken, enough⟩ := read
  refine ⟨.symbol _, Nat.zero_le _, fun fuel _ => accepts_discard taken, ?_⟩
  rw [encode, List.length_append, tagBytes_length]
  dsimp only
  omega

/-- Texts. -/
theorem reads_string (levels : Nat) (value : Reader Value) :
    Reads (readPayload value .text) (SoundPayload levels .text) := by
  refine reads_answer _ reads_text fun front content _ read => ?_
  obtain ⟨taken, enough⟩ := read
  refine ⟨.text _, Nat.zero_le _, fun fuel _ => accepts_discard taken, ?_⟩
  rw [encode, List.length_append, tagBytes_length]
  omega

/-! ## Sequences and polynomials -/

/-- The next element of a payload and what is left are together as long as the payload. -/
theorem nextElement?_length {payload element rest : List UInt8}
    (next : nextElement? payload = some (.ok element, rest)) :
    element.length + rest.length = payload.length := by
  rcases nextElement?_cases payload with
    ⟨-, nothing⟩ | ⟨first, left, split, -, found⟩ | ⟨-, reason, malformed⟩
  · simp [next] at nothing
  · obtain ⟨rfl, rfl⟩ : element = first ∧ rest = left := by simpa [next] using found
    rw [split, List.length_append]
  · simp [next] at malformed

/-- The items decoded from the payload of a sequence. -/
theorem readItems_sound {levels : Nat} {value : Reader Value} (inner : Reads value (Sound levels))
    (steps : Nat) (payload : List UInt8) (items : List Value)
    (decoded : readItems value steps payload = .ok items) :
    (∀ item ∈ items, item.WellFormed ∧ item.nesting < levels) ∧
      (encodeItems items).length ≤ 2 * payload.length := by
  induction steps generalizing payload items with
  | zero =>
    obtain rfl : [] = items := by simpa [readItems] using decoded
    simp [encodeItems]
  | succ steps inductionHypothesis =>
    rw [readItems] at decoded
    cases next : nextElement? payload with
    | none =>
      obtain rfl : [] = items := by simpa [next, pure, Except.pure] using decoded
      simp [encodeItems]
    | some step =>
      obtain ⟨outcome, rest⟩ := step
      cases outcome with
      | error reason =>
        simp [next, throw, throwThe, MonadExceptOf.throw] at decoded
      | ok element =>
        simp only [next, bind, Except.bind] at decoded
        cases first : value element with
        | error reason => simp [first] at decoded
        | ok result =>
          cases others : readItems value steps rest with
          | error reason => simp [first, others] at decoded
          | ok following =>
            obtain rfl : result.1 :: following = items := by
              simpa [first, others, pure, Except.pure] using decoded
            obtain ⟨used, split, -, sound⟩ := inner element result.1 result.2 first
            obtain ⟨formed, length⟩ := inductionHypothesis rest following others
            have whole := nextElement?_length next
            have part := congrArg List.length split
            have short := sound.short
            rw [List.length_append] at part
            rw [List.forall_mem_cons, encodeItems, List.length_append]
            exact ⟨⟨⟨sound.formed, sound.shallow⟩, formed⟩, by omega⟩

/-- An exponent is read from at least as many bytes as it is written in. -/
theorem reads_exponent :
    Reads Reader.exponent fun used exponent =>
      (Leb128.write exponent.toNat).length ≤ used.length := by
  refine reads_bind reads_number fun front number _ enough => ?_
  split
  · rename_i small
    have same : number.toUInt32.toNat = number.toNat := by
      rw [UInt64.toNat_toUInt32, Nat.mod_eq_of_lt small]
    refine reads_pure _ _ ?_
    rw [List.append_nil, same]
    exact enough
  · exact reads_throw _ _

/-- The terms decoded up to the end of a polynomial. -/
theorem readTerms_sound {levels : Nat} {value : Reader Value} (inner : Reads value (Sound levels))
    (width steps : Nat) (bytes rest : List UInt8) (terms : List (Term Value))
    (decoded : readTerms value width steps bytes = .ok (terms, rest)) :
    (∀ term ∈ terms, term.exponents.length = width ∧ term.factor.WellFormed ∧
      term.factor.nesting < levels) ∧
      (encodeTerms terms).length + 2 * rest.length ≤ 2 * bytes.length := by
  induction steps generalizing bytes rest terms with
  | zero =>
    obtain ⟨rfl, rfl⟩ : [] = terms ∧ bytes = rest := by
      simpa [readTerms, pure, StateT.pure, Except.pure] using decoded
    simp [encodeTerms]
  | succ steps inductionHypothesis =>
    rw [readTerms, run_get] at decoded
    split at decoded
    · obtain ⟨rfl, rfl⟩ : [] = terms ∧ bytes = rest := by
        simpa [pure, StateT.pure, Except.pure] using decoded
      simp [encodeTerms]
    · obtain ⟨front, factor, middle, rfl, sound, decoded⟩ := inner.run decoded
      obtain ⟨powers, exponents, back, rfl, ⟨written, aligned⟩, decoded⟩ :=
        (reads_times (fun used exponents =>
          (exponents.flatMap fun exponent => Leb128.write (UInt32.toNat exponent)).length ≤
            used.length) (by simp) (fun front exponent back exponents single several => by
              rw [List.flatMap_cons, List.length_append, List.length_append]
              omega) reads_exponent width).run decoded
      simp only [bind, StateT.bind, Except.bind] at decoded
      cases others : readTerms value width steps back with
      | error reason => simp [others] at decoded
      | ok outcome =>
        obtain ⟨following, left⟩ := outcome
        obtain ⟨rfl, rfl⟩ : ⟨factor, exponents⟩ :: following = terms ∧ left = rest := by
          simpa [others, pure, StateT.pure, Except.pure] using decoded
        obtain ⟨formed, length⟩ := inductionHypothesis back left following others
        have short := sound.short
        rw [List.forall_mem_cons, encodeTerms, encodeTerm]
        simp only [List.length_append]
        exact ⟨⟨⟨aligned, sound.formed, sound.shallow⟩, formed⟩, by omega⟩

/-- A name is read from at least as many bytes as it is written in. -/
theorem reads_name :
    Reads (Symbol.mk <$> Reader.text) fun used name =>
      (counted (Bytes.ofText name.name)).length ≤ used.length :=
  reads_map Symbol.mk (reads_text.mono fun _ _ _ read => read.2)

/-- The polynomial decoded from a payload. -/
theorem readPolynomial_sound {levels : Nat} {value : Reader Value}
    (inner : Reads value (Sound levels)) (payload rest : List UInt8) (p : Polynomial)
    (decoded : readPolynomial value payload = .ok (p, rest)) :
    (Value.polynomial p).WellFormed ∧ (Value.polynomial p).nesting ≤ levels ∧
      (encodePolynomial p).length ≤ 2 * payload.length := by
  obtain ⟨front, count, middle, rfl, enough, decoded⟩ := reads_number.run decoded
  obtain ⟨texts, names, back, rfl, ⟨written, counted⟩, decoded⟩ :=
    (reads_times (fun used names =>
      (names.flatMap fun name : Symbol => counted (Bytes.ofText name.name)).length ≤
        used.length) (by simp) (fun front name back names single several => by
          rw [List.flatMap_cons, List.length_append, List.length_append]
          omega) reads_name count.toNat).run decoded
  rw [run_get] at decoded
  simp only [bind, StateT.bind, Except.bind] at decoded
  cases read : readTerms value count.toNat back.length back with
  | error reason => simp [read] at decoded
  | ok outcome =>
    obtain ⟨terms, left⟩ := outcome
    obtain ⟨rfl, rfl⟩ : ⟨names, terms⟩ = p ∧ left = rest := by
      simpa [read, pure, StateT.pure, Except.pure] using decoded
    obtain ⟨formed, length⟩ := readTerms_sound inner _ _ back left terms read
    refine ⟨.polynomial names terms (fun term among => ?_) (fun term among =>
      (formed term among).2.1), ?_, ?_⟩
    · rw [counted]
      exact (formed term among).1
    · rw [Value.nesting, Value.nestingOfPolynomial, Value.nestingOfTerms_le_iff]
      exact fun term among => (formed term among).2.2
    · rw [encodePolynomial, variableBytes, counted]
      simp only [List.length_append]
      omega

/-- Sequences of any kind. -/
theorem reads_sequence (levels : Nat) (kind : SequenceKind) (value : Reader Value)
    (inner : Reads value (Sound levels)) :
    Reads (readPayload value (Tag.ofKind kind)) (SoundPayload levels (Tag.ofKind kind)) := by
  have sound : Reads (readPayload.readSequence value kind)
      (SoundPayload levels (Tag.ofKind kind)) := by
    refine reads_bind reads_counted fun front payload taken enough => ?_
    refine reads_answer _ (reads_lift _ (fun used items => used = [] ∧
      readItems value payload.length payload = .ok items) fun items read => ⟨rfl, read⟩) ?_
    rintro _ items _ ⟨rfl, read⟩
    obtain ⟨formed, length⟩ := readItems_sound inner _ payload items read
    have double := counted_double_length payload (encodeItems items) length
    rw [List.append_nil]
    refine ⟨.sequence _ _ fun item among => (formed item among).1, ?_, fun fuel _ => ?_, ?_⟩
    · rw [Value.nesting, Value.nestingOfItems_le_iff]
      exact fun item among => (formed item among).2
    · cases kind <;> exact accepts_discard taken
    · rw [encode, List.length_append, tagBytes_length]
      omega
  cases kind <;> exact sound

/-- Polynomials. -/
theorem reads_polynomial (levels : Nat) (value : Reader Value)
    (inner : Reads value (Sound levels)) :
    Reads (readPayload value .polynomial) (SoundPayload levels .polynomial) := by
  refine reads_bind reads_counted fun front payload taken enough => ?_
  refine reads_answer _ (reads_lift _ (fun used outcome => used = [] ∧
    readPolynomial value payload = .ok outcome) fun outcome read => ⟨rfl, read⟩) ?_
  rintro _ ⟨p, rest⟩ _ ⟨rfl, read⟩
  obtain ⟨formed, shallow, length⟩ := readPolynomial_sound inner payload rest p read
  have double := counted_double_length payload (encodePolynomial p) length
  rw [List.append_nil]
  refine ⟨formed, shallow, fun fuel _ => accepts_discard taken, ?_⟩
  rw [encode, List.length_append, tagBytes_length]
  dsimp only
  omega

/-- Values with units. -/
theorem reads_unit (levels : Nat) (value : Reader Value) (inner : Reads value (Sound levels)) :
    Reads (readPayload value .unit) (SoundPayload levels .unit) := by
  refine reads_bind inner fun front quantity _ soundQuantity => ?_
  refine reads_bind inner fun back measure _ soundMeasure => ?_
  split
  · rename_i items
    obtain ⟨⟩ := soundMeasure.formed
    rename_i formed
    have shallowQuantity := soundQuantity.shallow
    have shallowMeasure := soundMeasure.shallow
    have shortQuantity := soundQuantity.short
    have shortMeasure := soundMeasure.short
    rw [Value.nesting] at shallowMeasure
    rw [encode, Tag.ofKind] at shortMeasure
    refine reads_pure _ _ ?_
    rw [List.append_nil]
    refine ⟨.unit _ _ soundQuantity.formed formed, ?_, fun fuel enough => ?_, ?_⟩
    · rw [Value.nesting]
      omega
    · rw [List.length_append] at enough
      exact accepts_after (soundQuantity.passed fuel (by omega))
        (soundMeasure.passed fuel (by omega))
    · rw [List.length_append] at shortMeasure
      simp only [encode, List.length_append, tagBytes_length] at shortMeasure ⊢
      omega
  · exact reads_throw _ _

/-! ## Values -/

/-- What a tag announces, whichever tag it is. -/
theorem reads_payload (levels : Nat) (tag : Tag) (value : Reader Value)
    (inner : Reads value (Sound levels)) :
    Reads (readPayload value tag) (SoundPayload levels tag) := by
  cases tag with
  | integer => exact reads_word levels _ value (.inl rfl)
  | negativeInteger => exact reads_word levels _ value (.inr rfl)
  | wide => exact reads_wide levels _ value (.inl rfl)
  | negativeWide => exact reads_wide levels _ value (.inr rfl)
  | fraction => exact reads_fraction levels _ value (.inl rfl)
  | negativeFraction => exact reads_fraction levels _ value (.inr rfl)
  | wideFraction => exact reads_wideFraction levels _ value (.inl rfl)
  | negativeWideFraction => exact reads_wideFraction levels _ value (.inr rfl)
  | decimal32 => exact reads_decimal levels .decimal32 value
  | decimal64 => exact reads_decimal levels .decimal64 value
  | decimal128 => exact reads_decimal levels .decimal128 value
  | rectangular => exact reads_complex levels .rectangular value inner
  | polar => exact reads_complex levels .polar value inner
  | symbol => exact reads_symbol levels value
  | text => exact reads_string levels value
  | list => exact reads_sequence levels .list value inner
  | array => exact reads_sequence levels .array value inner
  | program => exact reads_sequence levels .program value inner
  | expression => exact reads_sequence levels .expression value inner
  | polynomial => exact reads_polynomial levels value inner
  | unit => exact reads_unit levels value inner

/-- A command that an opcode stands for has that opcode. -/
theorem opcode_of_ofOpcode? {opcode : Nat} {command : Command}
    (found : Command.ofOpcode? opcode = some command) : command.opcode = opcode := by
  obtain ⟨inside, rfl⟩ := List.getElem?_eq_some_iff.mp found
  have distinct : Command.all.Nodup := by decide
  exact distinct.idxOf_getElem opcode inside

/-- Decoding within some levels is sound. -/
theorem reads_within (levels : Nat) : Reads (readWithin levels) (Sound levels) := by
  induction levels with
  | zero => exact reads_throw _ _
  | succ levels inductionHypothesis =>
    refine reads_bind reads_number fun front number taken enough => ?_
    have nonempty : 0 < front.length :=
      Nat.lt_of_lt_of_le (Leb128.write_length_pos _) enough
    dsimp only
    split
    · rename_i above
      split
      · rename_i command found
        have opcode := opcode_of_ofOpcode? found
        refine reads_pure _ _ ?_
        rw [List.append_nil]
        refine ⟨.command _, Nat.succ_pos _, fun fuel covered => ?_, ?_⟩
        · obtain ⟨fuel, rfl⟩ : ∃ previous, fuel = previous + 1 := ⟨fuel - 1, by omega⟩
          rw [skipWithin]
          refine accepts_last taken ?_
          rw [if_pos above]
          exact accepts_pure ()
        · rw [encode, opcode, Nat.add_sub_cancel' above]
          omega
      · exact reads_throw _ _
    · rename_i below
      split
      · rename_i tag found
        refine (reads_payload levels tag _ inductionHypothesis).mono fun back value _ sound => ?_
        refine ⟨sound.formed, Nat.lt_succ_of_le sound.shallow, fun fuel covered => ?_, ?_⟩
        · rw [List.length_append] at covered
          obtain ⟨fuel, rfl⟩ : ∃ previous, fuel = previous + 1 := ⟨fuel - 1, by omega⟩
          rw [skipWithin]
          refine accepts_bind taken ?_
          simp only [if_neg below, found]
          exact sound.passed fuel (by omega)
        · have short := sound.short
          rw [List.length_append]
          omega
      · exact reads_throw _ _

/-- Decoding and passing over agree on bytes of any origin, and decoding makes canonical. If some
bytes are decoded, then passing over takes the same ones, which are there; what follows them
does not matter; and the value is one that encoding preserves, even if the bytes were not
those of its encoding. For the last the bytes must be few enough for memory, so that the
length of the encoding, which may be larger, is still a word. -/
theorem decode_canonical (bytes : List UInt8) (value : Value) (used : Nat)
    (decoded : decode bytes = .ok (value, used)) :
    used ≤ bytes.length ∧ size bytes = .ok used ∧
      (∀ suffix, decode (bytes.take used ++ suffix) = .ok (value, used)) ∧
      (bytes.length < 2 ^ 63 → Conforming value ∧
        decode (encode value) = .ok (value, (encode value).length)) := by
  cases read : readWithin (deepestLevel + 1) bytes with
  | error reason => simp [decode, read, bind, Except.bind] at decoded
  | ok outcome =>
    obtain ⟨item, rest⟩ := outcome
    obtain ⟨taken, rfl, accepted, sound⟩ := reads_within _ bytes item rest read
    obtain ⟨rfl, rfl⟩ : item = value ∧ taken.length = used := by
      simpa [decode, read, bind, Except.bind, pure, Except.pure] using decoded
    refine ⟨by simp, ?_, fun suffix => ?_, fun memory => ?_⟩
    · rw [size, sound.passed _ (by simp)]
      simp
    · rw [List.take_left, decode, accepted suffix]
      simp [bind, Except.bind, pure, Except.pure]
    · have short := sound.short
      rw [List.length_append] at memory
      have conforming : Conforming item :=
        ⟨sound.formed, Nat.le_of_lt_succ sound.shallow, by rw [Addressable]; omega⟩
      have preserved := decode_encode item [] conforming
      rw [List.append_nil] at preserved
      exact ⟨conforming, preserved⟩

/-- A small integer with an overlong tag, in the format of large ones and with a padded
magnitude. -/
theorem decode_canonical_padded :
    let bytes : List UInt8 := [0x83, 0x80, 0x00, 0x03, 0x05, 0x00, 0x00, 0xFF]
    let value : Value := .real (.word ⟨false, 5, by decide⟩)
    size bytes = .ok 7 ∧ decode (bytes.take 7 ++ [0x01]) = .ok (value, 7) ∧
      decode (encode value) = .ok (value, (encode value).length) := by
  intro bytes value
  have decoded : decode bytes = .ok (value, 7) := rfl
  obtain ⟨-, passed, stable, preserved⟩ := decode_canonical bytes value 7 decoded
  exact ⟨passed, stable [0x01], (preserved (by decide)).2⟩

end Calculator.Encoding
