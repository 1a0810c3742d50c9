import Calculator.Machine
import Calculator.Proofs.Encoding.Conforming
import Calculator.Proofs.Encoding.Reading
import Mathlib

/-!
# Decoding what was encoded

Both readers of encoded values, the one that passes over a value and the one that decodes it,
take exactly the encoding off the front, whatever follows. No two values share an encoding
then, and no encoding begins with another one.
-/

namespace Calculator

/-- The tag with the number of a tag is that tag. -/
theorem Tag.ofNumber?_number (tag : Tag) : Tag.ofNumber? tag.number = some tag := by
  cases tag <;> rfl

/-- The numbers of tags are below those of commands. -/
theorem Tag.number_lt (tag : Tag) : tag.number < Tag.commandBase := by
  cases tag <;> decide

/-- The command with the opcode of a command is that command. -/
theorem Command.ofOpcode?_opcode (command : Command) :
    Command.ofOpcode? command.opcode = some command := by
  cases command <;> rfl

/-- The numbers of commands are words. -/
theorem Command.number_lt (command : Command) : Tag.commandBase + command.opcode < 2 ^ 64 := by
  cases command <;> decide

/-- A machine integer is made of its own sign and magnitude. -/
theorem Word.ofSign_self (word : Word) : Word.ofSign word.negative word.magnitude = word := by
  obtain ⟨negative, magnitude, canonical⟩ := word
  rw [Word.ofSign]
  split
  · rename_i zero
    cases negative with
    | false => simpa using zero.symm
    | true => exact absurd zero (canonical rfl)
  · rfl

/-- A machine integer has the magnitude that it is made of, whatever its sign. -/
theorem Word.ofSign_magnitude (negative : Bool) (magnitude : UInt64) :
    (Word.ofSign negative magnitude).magnitude = magnitude := by
  rw [Word.ofSign]
  split
  · rename_i zero
    exact zero.symm
  · rfl

namespace Encoding

/-- A tag is written in one byte. -/
theorem tagBytes_length (tag : Tag) : (tagBytes tag).length = 1 := by
  cases tag <;> simp [tagBytes, Leb128.write, Tag.number]

/-- Passing over a value passes over its tag and what the tag announces. -/
theorem accepts_skip_tag {levels : Nat} {tag : Tag} {payload : List UInt8}
    (passed : Accepts (skipPayload (skipWithin levels) tag) payload ()) :
    Accepts (skipWithin (levels + 1)) (tagBytes tag ++ payload) () := by
  have below : tag.number < Tag.commandBase := tag.number_lt
  have fits : tag.number < 2 ^ 64 := Nat.lt_trans below (by decide)
  rw [skipWithin]
  refine accepts_bind (accepts_number tag.number fits) ?_
  rw [UInt64.toNat_ofNat_of_lt' fits]
  simp only [if_neg (Nat.not_le.mpr below), Tag.ofNumber?_number]
  exact passed

/-- Decoding a value reads its tag and what the tag announces. -/
theorem accepts_read_tag {levels : Nat} {tag : Tag} {payload : List UInt8} {value : Value}
    (taken : Accepts (readPayload (readWithin levels) tag) payload value) :
    Accepts (readWithin (levels + 1)) (tagBytes tag ++ payload) value := by
  have below : tag.number < Tag.commandBase := tag.number_lt
  have fits : tag.number < 2 ^ 64 := Nat.lt_trans below (by decide)
  rw [readWithin]
  refine accepts_bind (accepts_number tag.number fits) ?_
  rw [UInt64.toNat_ofNat_of_lt' fits]
  simp only [if_neg (Nat.not_le.mpr below), Tag.ofNumber?_number]
  exact taken

/-- The number of bytes in front of counted bytes takes at least one byte. -/
theorem length_lt_counted (bytes : List UInt8) : bytes.length < (counted bytes).length := by
  have front := Leb128.write_length_pos bytes.length
  rw [counted, List.length_append]
  omega

/-- Counted bytes are passed over. -/
theorem accepts_discard_counted (bytes : List UInt8) (fits : (counted bytes).length < 2 ^ 64) :
    Accepts (discard Reader.counted) (counted bytes) () :=
  accepts_discard (accepts_counted bytes (Nat.lt_trans (length_lt_counted bytes) fits))

/-- The payload of a real number is passed over. -/
theorem accepts_skip_real (number : Real) (skip : Reader Unit)
    (fits : (realPayload number).length < 2 ^ 64) :
    Accepts (skipPayload skip (Tag.ofReal number)) (realPayload number) () := by
  cases number with
  | word value =>
    have magnitude := accepts_discard (accepts_number value.magnitude.toNat value.magnitude.toNat_lt)
    rw [Tag.ofReal]
    split <;> exact magnitude
  | wide value =>
    have magnitude := accepts_discard_counted (Bytes.ofNat value.value.natAbs) fits
    rw [Tag.ofReal]
    split <;> exact magnitude
  | fraction value =>
    rw [realPayload] at fits
    rw [Tag.ofReal, realPayload]
    cases small : value.isSmall with
    | true =>
      have inside : value.numerator.natAbs < 2 ^ 64 ∧ value.denominator < 2 ^ 64 := by
        simpa [Fraction.isSmall, UInt64.size] using small
      have parts := accepts_after (accepts_discard (accepts_number _ inside.1))
        (accepts_discard (accepts_number _ inside.2))
      cases value.isNegative <;> exact parts
    | false =>
      rw [small] at fits
      simp only [Bool.false_eq_true, if_false, List.length_append] at fits
      have parts := accepts_after
        (accepts_discard_counted (Bytes.ofNat value.numerator.natAbs) (by omega))
        (accepts_discard_counted (Bytes.ofNat value.denominator) (by omega))
      cases value.isNegative <;> exact parts
  | decimal value =>
    rw [realPayload, List.length_append] at fits
    have parts := accepts_after
      (accepts_discard (accepts_number _ (Leb128.zigzag value.value.scale).toNat_lt))
      (accepts_discard_counted (Bytes.ofInt value.value.mantissa) (by omega))
    rw [Tag.ofReal]
    cases value.precision <;> exact parts

/-- Every encoding has at least one byte. -/
theorem encode_length_pos (value : Value) : 0 < (encode value).length := by
  rw [List.length_pos_iff]
  cases value <;> simp [encode, tagBytes, Leb128.write_ne_nil]

/-- The unit of a value is encoded as the expression of its items. -/
theorem encode_expression (items : List Value) :
    tagBytes .expression ++ counted (encodeItems items) = encode (.sequence .expression items) := by
  rw [encode, Tag.ofKind]

/-- Passing over a value takes its encoding off the front, whatever follows. As many levels as
the encoding has bytes are enough. -/
theorem accepts_skip (levels : Nat) (value : Value) (addressable : Addressable value)
    (enough : (encode value).length ≤ levels) :
    Accepts (skipWithin levels) (encode value) () := by
  induction levels generalizing value with
  | zero =>
    have nonempty := encode_length_pos value
    omega
  | succ levels inductionHypothesis =>
    rw [Addressable] at addressable
    cases value with
    | real number =>
      rw [encode, List.length_append] at addressable
      exact accepts_skip_tag (accepts_skip_real number _ (by omega))
    | complex form first second =>
      rw [encode, List.length_append, List.length_append, tagBytes_length] at addressable enough
      have firstPart := inductionHypothesis first (by rw [Addressable]; omega) (by omega)
      have secondPart := inductionHypothesis second (by rw [Addressable]; omega) (by omega)
      rw [encode, List.append_assoc]
      refine accepts_skip_tag ?_
      cases form <;> exact accepts_after firstPart secondPart
    | symbol name =>
      rw [encode, List.length_append] at addressable
      exact accepts_skip_tag (accepts_discard_counted _ (by omega))
    | text content =>
      rw [encode, List.length_append] at addressable
      exact accepts_skip_tag (accepts_discard_counted _ (by omega))
    | sequence kind items =>
      rw [encode, List.length_append] at addressable
      have payload := accepts_discard_counted (encodeItems items) (by omega)
      refine accepts_skip_tag ?_
      cases kind <;> exact payload
    | polynomial p =>
      rw [encode, List.length_append] at addressable
      exact accepts_skip_tag (accepts_discard_counted _ (by omega))
    | unit value items =>
      rw [encode, encode_expression, List.length_append, List.length_append, tagBytes_length]
        at addressable enough
      have quantity := inductionHypothesis value (by rw [Addressable]; omega) (by omega)
      have measure := inductionHypothesis (.sequence .expression items)
        (by rw [Addressable]; omega) (by omega)
      rw [encode, encode_expression, List.append_assoc]
      exact accepts_skip_tag (accepts_after quantity measure)
    | command command =>
      rw [encode, skipWithin]
      refine accepts_last (accepts_number _ command.number_lt) ?_
      rw [UInt64.toNat_ofNat_of_lt' command.number_lt, if_pos (Nat.le_add_right _ _)]
      exact accepts_pure ()

/-- A fraction is made of its own sign and parts. -/
theorem fractionOf_parts (fraction : Fraction) (negative : Bool)
    (sign : fraction.isNegative = negative) :
    fractionOf negative fraction.numerator.natAbs fraction.denominator =
      .ok (.real (.fraction fraction)) := by
  obtain ⟨numerator, denominator, proper, reduced⟩ := fraction
  simp only [Fraction.isNegative] at sign
  have nonzero : numerator.natAbs ≠ 0 := by
    intro zero
    rw [zero, Nat.gcd_zero_left] at reduced
    omega
  have signed : (if negative then -(numerator.natAbs : Int) else numerator.natAbs) = numerator := by
    subst sign
    by_cases below : numerator < 0
    · rw [if_pos (by simpa using below)]
      omega
    · rw [if_neg (by simpa using below)]
      omega
  rw [fractionOf, if_neg nonzero]
  simp only [signed, Fraction.ofReduced?]
  rw [dif_pos ⟨proper, reduced⟩]

/-- A fraction is decoded from its parts, in whichever form they are read. -/
theorem accepts_fractionOf {Part : Type} {reader : Reader Part} (number : Part → Nat)
    {above below : List UInt8} {numerator denominator : Part}
    (aboveTaken : Accepts reader above numerator) (belowTaken : Accepts reader below denominator)
    {fraction : Fraction} {negative : Bool} (sign : fraction.isNegative = negative)
    (numeratorPart : number numerator = fraction.numerator.natAbs)
    (denominatorPart : number denominator = fraction.denominator) :
    Accepts (do
        let numerator ← reader
        let denominator ← reader
        fractionOf negative (number numerator) (number denominator))
      (above ++ below) (.real (.fraction fraction)) := by
  refine accepts_bind aboveTaken (accepts_last belowTaken (accepts_lift ?_))
  rw [numeratorPart, denominatorPart]
  exact fractionOf_parts fraction negative sign

/-- The payload of a machine integer is decoded to it. -/
theorem accepts_read_word (value : Reader Value) (word : Word) :
    Accepts (readPayload value (Tag.ofReal (.word word))) (realPayload (.word word))
      (.real (.word word)) := by
  have magnitude : UInt64.ofNat word.magnitude.toNat = word.magnitude := UInt64.ofNat_toNat
  have made : Word.ofSign word.negative word.magnitude = word := word.ofSign_self
  have taken := accepts_number _ word.magnitude.toNat_lt
  rw [Tag.ofReal, realPayload]
  cases sign : word.negative with
  | false =>
    rw [sign] at made
    refine accepts_last taken ?_
    simp only [Tag.isNegative, Bool.false_and, Bool.false_eq_true, if_false, magnitude, made]
    exact accepts_pure _
  | true =>
    rw [sign] at made
    have nonzero : (word.magnitude == 0) = false := by
      simpa using word.canonical sign
    rw [if_pos rfl]
    refine accepts_last taken ?_
    simp only [Tag.isNegative, Bool.true_and, magnitude, nonzero, Bool.false_eq_true, if_false,
      made]
    exact accepts_pure _

/-- The payload of an integer of any size is decoded to it. -/
theorem accepts_read_wide (value : Reader Value) (wide : Wide)
    (fits : (realPayload (.wide wide)).length < 2 ^ 64) :
    Accepts (readPayload value (Tag.ofReal (.wide wide))) (realPayload (.wide wide))
      (.real (.wide wide)) := by
  have taken := accepts_counted (Bytes.ofNat wide.value.natAbs)
    (Nat.lt_trans (length_lt_counted _) fits)
  have made : Real.ofInt wide.value = .wide wide := by
    rw [Real.ofInt, dif_pos wide.wide]
  rw [Tag.ofReal, realPayload]
  by_cases below : wide.value < 0
  · have signed : -(wide.value.natAbs : Int) = wide.value := by omega
    rw [if_pos below]
    refine accepts_last taken ?_
    simp only [Bytes.toNat_ofNat, Tag.isNegative, if_true, signed, made]
    exact accepts_pure _
  · have signed : (wide.value.natAbs : Int) = wide.value := by omega
    rw [if_neg below]
    refine accepts_last taken ?_
    simp only [Bytes.toNat_ofNat, Tag.isNegative, Bool.false_eq_true, if_false, signed, made]
    exact accepts_pure _

/-- The payload of a fraction is decoded to it. -/
theorem accepts_read_fraction (value : Reader Value) (fraction : Fraction)
    (fits : (realPayload (.fraction fraction)).length < 2 ^ 64) :
    Accepts (readPayload value (Tag.ofReal (.fraction fraction)))
      (realPayload (.fraction fraction)) (.real (.fraction fraction)) := by
  rw [realPayload] at fits
  rw [Tag.ofReal, realPayload]
  cases small : fraction.isSmall with
  | true =>
    have inside : fraction.numerator.natAbs < 2 ^ 64 ∧ fraction.denominator < 2 ^ 64 := by
      simpa [Fraction.isSmall, UInt64.size] using small
    cases sign : fraction.isNegative <;>
      exact accepts_fractionOf UInt64.toNat (accepts_number _ inside.1)
        (accepts_number _ inside.2) sign (UInt64.toNat_ofNat_of_lt' inside.1)
        (UInt64.toNat_ofNat_of_lt' inside.2)
  | false =>
    rw [small] at fits
    simp only [Bool.false_eq_true, if_false, List.length_append] at fits
    have numeratorLength := length_lt_counted (Bytes.ofNat fraction.numerator.natAbs)
    have denominatorLength := length_lt_counted (Bytes.ofNat fraction.denominator)
    cases sign : fraction.isNegative <;>
      exact accepts_fractionOf Bytes.toNat (accepts_counted _ (by omega))
        (accepts_counted _ (by omega)) sign (Bytes.toNat_ofNat _) (Bytes.toNat_ofNat _)

/-- The payload of a rounded decimal is decoded to it. -/
theorem accepts_read_decimal (value : Reader Value) (rounded : Rounded) (made : rounded.IsMade)
    (fits : (realPayload (.decimal rounded)).length < 2 ^ 64) :
    Accepts (readPayload value (Tag.ofReal (.decimal rounded))) (realPayload (.decimal rounded))
      (.real (.decimal rounded)) := by
  rw [realPayload, List.length_append] at fits
  have mantissaLength := length_lt_counted (Bytes.ofInt rounded.value.mantissa)
  have scale := accepts_number _ (Leb128.zigzag rounded.value.scale).toNat_lt
  have mantissa := accepts_counted (Bytes.ofInt rounded.value.mantissa) (by omega)
  have decoded : Accepts (readPayload.readDecimal rounded.precision)
      (realPayload (.decimal rounded)) (.real (.decimal rounded)) := by
    refine accepts_bind scale (accepts_last mantissa ?_)
    simp only [UInt64.ofNat_toNat, Leb128.unzigzag_zigzag, Bytes.toInt_ofInt, Real.ofDecimal,
      Rounded.make_of_isMade made]
    exact accepts_pure _
  rw [Tag.ofReal]
  cases precision : rounded.precision with
  | decimal32 => rw [precision] at decoded; exact decoded
  | decimal64 => rw [precision] at decoded; exact decoded
  | decimal128 => rw [precision] at decoded; exact decoded

/-- The payload of a real number is decoded to it. -/
theorem accepts_read_real (number : Real) (value : Reader Value)
    (formed : (Value.real number).WellFormed) (fits : (realPayload number).length < 2 ^ 64) :
    Accepts (readPayload value (Tag.ofReal number)) (realPayload number) (.real number) := by
  cases formed with
  | word word => exact accepts_read_word value word
  | wide wide => exact accepts_read_wide value wide fits
  | fraction fraction => exact accepts_read_fraction value fraction fits
  | decimal rounded made => exact accepts_read_decimal value rounded made fits

/-- The next element of a payload that begins with an encoding is that encoding. -/
theorem nextElement?_encode (item : Value) (rest : List UInt8) (addressable : Addressable item) :
    nextElement? (encode item ++ rest) = some (.ok (encode item), rest) := by
  have nonempty : (encode item ++ rest).isEmpty = false := by
    rw [List.isEmpty_eq_false_iff]
    have positive := encode_length_pos item
    intro empty
    rw [List.append_eq_nil_iff] at empty
    rw [empty.1] at positive
    simp at positive
  have passed := accepts_skip (encode item ++ rest).length item addressable (by simp) rest
  simp only [nextElement?, nonempty, Bool.false_eq_true, if_false, Reader.element]
  rw [passed]
  simp

/-- Items whose encodings decoding accepts are decoded from the payload of a sequence. -/
theorem readItems_encodeItems (value : Reader Value) (steps : Nat) (items : List Value)
    (enough : items.length ≤ steps) (addressable : ∀ item ∈ items, Addressable item)
    (taken : ∀ item ∈ items, Accepts value (encode item) item) :
    readItems value steps (encodeItems items) = .ok items := by
  induction items generalizing steps with
  | nil => cases steps <;> rfl
  | cons item items inductionHypothesis =>
    obtain ⟨steps, rfl⟩ : ∃ previous, steps = previous + 1 := ⟨steps - 1, by simp at enough; omega⟩
    rw [List.forall_mem_cons] at addressable taken
    have others := inductionHypothesis steps (by simpa using enough) addressable.2 taken.2
    have first := taken.1 []
    rw [List.append_nil] at first
    rw [encodeItems, readItems, nextElement?_encode item _ addressable.1]
    simp only [first, others, bind, Except.bind, pure, Except.pure]

/-- Every encoded item takes at least one byte of the payload. -/
theorem length_le_encodeItems (items : List Value) :
    items.length ≤ (encodeItems items).length := by
  induction items with
  | nil => simp
  | cons item items inductionHypothesis =>
    have positive := encode_length_pos item
    rw [encodeItems, List.length_append, List.length_cons]
    omega

/-- An item's encoding is part of the payload. -/
theorem encode_length_le_encodeItems (items : List Value) (item : Value) (among : item ∈ items) :
    (encode item).length ≤ (encodeItems items).length := by
  induction among with
  | head items => simp [encodeItems]
  | tail other among inductionHypothesis =>
    rw [encodeItems, List.length_append]
    omega

/-- An exponent is accepted as it is written. -/
theorem accepts_exponent (exponent : UInt32) :
    Accepts Reader.exponent (Leb128.write exponent.toNat) exponent := by
  have small : exponent.toNat < UInt32.size := exponent.toNat_lt
  have fits : exponent.toNat < 2 ^ 64 := Nat.lt_trans small (by decide)
  refine accepts_last (accepts_number _ fits) ?_
  rw [UInt64.toNat_ofNat_of_lt' fits, if_pos small]
  have back : (UInt64.ofNat exponent.toNat).toUInt32 = exponent := by
    apply UInt32.toNat_inj.mp
    rw [UInt64.toNat_toUInt32, UInt64.toNat_ofNat_of_lt' fits, Nat.mod_eq_of_lt small]
  rw [back]
  exact accepts_pure _

/-- Terms whose factors decoding accepts are decoded up to the end of a polynomial. -/
theorem readTerms_encodeTerms (value : Reader Value) (width steps : Nat)
    (terms : List (Term Value)) (enough : terms.length ≤ steps)
    (aligned : ∀ term ∈ terms, term.exponents.length = width)
    (taken : ∀ term ∈ terms, Accepts value (encode term.factor) term.factor) :
    readTerms value width steps (encodeTerms terms) = .ok (terms, []) := by
  induction terms generalizing steps with
  | nil => cases steps <;> rfl
  | cons term terms inductionHypothesis =>
    obtain ⟨steps, rfl⟩ : ∃ previous, steps = previous + 1 := ⟨steps - 1, by simp at enough; omega⟩
    obtain ⟨factor, exponents⟩ := term
    rw [List.forall_mem_cons] at aligned taken
    have others := inductionHypothesis steps (by simpa using enough) aligned.2 taken.2
    have written := accepts_times (fun exponent => Leb128.write exponent.toNat) exponents
      fun exponent _ => accepts_exponent exponent
    rw [aligned.1] at written
    have nonempty : (encode factor ++ (exponents.flatMap (fun exponent =>
        Leb128.write exponent.toNat) ++ encodeTerms terms)).isEmpty = false := by
      have positive := encode_length_pos factor
      cases bytes : encode factor with
      | nil => simp [bytes] at positive
      | cons byte bytes => rfl
    have body := accepts_run taken.1 (fun factor => do
      let exponents ← Reader.exponent.times width
      let others ← readTerms value width steps
      return ⟨factor, exponents⟩ :: others) (exponents.flatMap (fun exponent =>
        Leb128.write exponent.toNat) ++ encodeTerms terms)
    rw [accepts_run written] at body
    rw [encodeTerms, encodeTerm, List.append_assoc, readTerms, run_get]
    simp only [nonempty, Bool.false_eq_true, if_false]
    rw [body]
    simp only [bind, StateT.bind, Except.bind, others]
    rfl

/-- Every encoded term takes at least one byte of the payload. -/
theorem length_le_encodeTerms (terms : List (Term Value)) :
    terms.length ≤ (encodeTerms terms).length := by
  induction terms with
  | nil => simp
  | cons term terms inductionHypothesis =>
    have positive := encode_length_pos term.factor
    rw [encodeTerms, encodeTerm, List.length_append, List.length_append, List.length_cons]
    omega

/-- The encoding of a factor is part of the payload. -/
theorem encode_length_le_encodeTerms (terms : List (Term Value)) (term : Term Value)
    (among : term ∈ terms) : (encode term.factor).length ≤ (encodeTerms terms).length := by
  induction among with
  | head terms =>
    rw [encodeTerms, encodeTerm, List.length_append, List.length_append]
    omega
  | tail other among inductionHypothesis =>
    rw [encodeTerms, List.length_append]
    omega

/-- The encoding of a factor is part of what is written for a polynomial. -/
theorem encode_length_le_encodePolynomial (names : List Symbol) (terms : List (Term Value))
    (term : Term Value) (among : term ∈ terms) :
    (encode term.factor).length ≤ (encodePolynomial ⟨names, terms⟩).length := by
  have part := encode_length_le_encodeTerms terms term among
  rw [encodePolynomial, List.length_append]
  omega

/-- The names of variables are part of what is written for them. -/
theorem length_le_variableBytes (names : List Symbol) :
    names.length ≤ (variableBytes names).length := by
  have bytes : names.length ≤
      (names.flatMap fun name => counted (Bytes.ofText name.name)).length := by
    induction names with
    | nil => simp
    | cons name names inductionHypothesis =>
      have positive := length_lt_counted (Bytes.ofText name.name)
      rw [List.flatMap_cons, List.length_append, List.length_cons]
      omega
  rw [variableBytes, List.length_append]
  omega

/-- A name takes no more bytes than all that is written for the variables. -/
theorem name_length_le_variableBytes (names : List Symbol) (name : Symbol)
    (among : name ∈ names) :
    (counted (Bytes.ofText name.name)).length ≤ (variableBytes names).length := by
  have bytes : (counted (Bytes.ofText name.name)).length ≤
      (names.flatMap fun name => counted (Bytes.ofText name.name)).length := by
    induction among with
    | head names => simp
    | tail other among inductionHypothesis =>
      rw [List.flatMap_cons, List.length_append]
      omega
  rw [variableBytes, List.length_append]
  omega

/-- The names of variables are accepted in a row. -/
theorem accepts_names (names : List Symbol) (fits : (variableBytes names).length < 2 ^ 64) :
    Accepts ((Symbol.mk <$> Reader.text).times names.length)
      (names.flatMap fun name => counted (Bytes.ofText name.name)) names := by
  refine accepts_times (fun name : Symbol => counted (Bytes.ofText name.name)) names ?_
  intro name among
  have short := name_length_le_variableBytes names name among
  have content := length_lt_counted (Bytes.ofText name.name)
  exact accepts_map Symbol.mk (accepts_text name.name (by omega))

/-- A polynomial whose factors decoding accepts is decoded from its payload. -/
theorem readPolynomial_encodePolynomial (value : Reader Value) (names : List Symbol)
    (terms : List (Term Value)) (fits : (encodePolynomial ⟨names, terms⟩).length < 2 ^ 64)
    (aligned : ∀ term ∈ terms, term.exponents.length = names.length)
    (taken : ∀ term ∈ terms, Accepts value (encode term.factor) term.factor) :
    readPolynomial value (encodePolynomial ⟨names, terms⟩) = .ok (⟨names, terms⟩, []) := by
  rw [encodePolynomial, List.length_append] at fits
  have few := length_le_variableBytes names
  have count : names.length < 2 ^ 64 := by omega
  have written := accepts_names names (by omega)
  have read := readTerms_encodeTerms value names.length (encodeTerms terms).length terms
    (length_le_encodeTerms terms) aligned taken
  rw [encodePolynomial, variableBytes, List.append_assoc, readPolynomial,
    accepts_run (accepts_number names.length count)]
  simp only [UInt64.toNat_ofNat_of_lt' count]
  rw [accepts_run written, run_get]
  simp only [bind, StateT.bind, Except.bind, read]
  rfl

/-- The encodings of the items of a sequence are decoded to them. -/
theorem accepts_read_sequence (value : Reader Value) (kind : SequenceKind) (items : List Value)
    (fits : (counted (encodeItems items)).length < 2 ^ 64)
    (taken : ∀ item ∈ items, Accepts value (encode item) item) :
    Accepts (readPayload value (Tag.ofKind kind)) (counted (encodeItems items))
      (.sequence kind items) := by
  have length := length_lt_counted (encodeItems items)
  have read := readItems_encodeItems value (encodeItems items).length items
    (length_le_encodeItems items) (fun item among => by
      have part := encode_length_le_encodeItems items item among
      rw [Addressable]
      omega) taken
  have decoded : Accepts (readPayload.readSequence value kind) (counted (encodeItems items))
      (.sequence kind items) :=
    accepts_last (accepts_counted _ (by omega)) (accepts_last (accepts_lift read) (accepts_pure _))
  cases kind <;> exact decoded

/-- The bytes of a polynomial are decoded to it. -/
theorem accepts_read_polynomial (value : Reader Value) (names : List Symbol)
    (terms : List (Term Value)) (fits : (counted (encodePolynomial ⟨names, terms⟩)).length < 2 ^ 64)
    (aligned : ∀ term ∈ terms, term.exponents.length = names.length)
    (taken : ∀ term ∈ terms, Accepts value (encode term.factor) term.factor) :
    Accepts (readPayload value .polynomial) (counted (encodePolynomial ⟨names, terms⟩))
      (.polynomial ⟨names, terms⟩) := by
  have length := length_lt_counted (encodePolynomial ⟨names, terms⟩)
  have read := readPolynomial_encodePolynomial value names terms (by omega) aligned taken
  exact accepts_last (accepts_counted _ (by omega))
    (accepts_last (accepts_lift read) (accepts_pure _))

/-- Decoding takes the encoding of a well-formed value off the front, whatever follows, and gives
back the value, as long as it does not nest too deep. -/
theorem accepts_read (levels : Nat) (value : Value) (formed : value.WellFormed)
    (shallow : value.nesting < levels) (addressable : Addressable value) :
    Accepts (readWithin levels) (encode value) value := by
  induction levels generalizing value with
  | zero => omega
  | succ levels inductionHypothesis =>
    rw [Addressable] at addressable
    have part (inner : Value) (formed : inner.WellFormed) (deeper : inner.nesting + 1 ≤ levels)
        (shorter : (encode inner).length < (encode value).length) :
        Accepts (readWithin levels) (encode inner) inner :=
      inductionHypothesis inner formed (by omega) (by rw [Addressable]; omega)
    cases value with
    | real number =>
      rw [encode, List.length_append] at addressable
      exact accepts_read_tag (accepts_read_real number _ formed (by omega))
    | complex form first second =>
      obtain ⟨⟩ := formed
      rename_i formedFirst formedSecond
      rw [Value.nesting] at shallow
      rw [encode, List.length_append, List.length_append, tagBytes_length] at part
      have firstPart := part first formedFirst (by omega) (by omega)
      have secondPart := part second formedSecond (by omega) (by omega)
      rw [encode, List.append_assoc]
      refine accepts_read_tag ?_
      cases form <;> exact accepts_bind firstPart (accepts_last secondPart (accepts_pure _))
    | symbol name =>
      have length := length_lt_counted (Bytes.ofText name.name)
      rw [encode, List.length_append] at addressable
      exact accepts_read_tag (accepts_last (accepts_text name.name (by omega)) (accepts_pure _))
    | text content =>
      have length := length_lt_counted (Bytes.ofText content)
      rw [encode, List.length_append] at addressable
      exact accepts_read_tag (accepts_last (accepts_text content (by omega)) (accepts_pure _))
    | sequence kind items =>
      obtain ⟨⟩ := formed
      rename_i formed
      have length := length_lt_counted (encodeItems items)
      have inside := (Value.nestingOfItems_le_iff items levels).mp
        (by rw [Value.nesting] at shallow; omega)
      rw [encode, List.length_append] at addressable part
      refine accepts_read_tag (accepts_read_sequence _ kind items (by omega) ?_)
      intro item among
      have shorter := encode_length_le_encodeItems items item among
      exact part item (formed item among) (inside item among) (by omega)
    | polynomial p =>
      obtain ⟨⟩ := formed
      rename_i names terms aligned formed
      have front := length_lt_counted (encodePolynomial ⟨names, terms⟩)
      have inside := (Value.nestingOfTerms_le_iff terms levels).mp
        (by rw [Value.nesting, Value.nestingOfPolynomial] at shallow; omega)
      rw [encode, List.length_append] at addressable part
      refine accepts_read_tag (accepts_read_polynomial _ names terms (by omega) aligned ?_)
      intro term among
      have shorter := encode_length_le_encodePolynomial names terms term among
      exact part term.factor (formed term among) (inside term among) (by omega)
    | unit value items =>
      obtain ⟨⟩ := formed
      rename_i formedValue formedItems
      rw [Value.nesting] at shallow
      rw [encode, encode_expression, List.length_append, List.length_append, tagBytes_length] at part
      have quantity := part value formedValue (by omega) (by omega)
      have measure := part (.sequence .expression items) (.sequence .expression items formedItems)
        (by rw [Value.nesting]; omega) (by omega)
      rw [encode, encode_expression, List.append_assoc]
      exact accepts_read_tag (accepts_bind quantity (accepts_last measure (accepts_pure _)))
    | command command =>
      rw [encode, readWithin]
      refine accepts_last (accepts_number _ command.number_lt) ?_
      rw [UInt64.toNat_ofNat_of_lt' command.number_lt, if_pos (Nat.le_add_right _ _),
        Nat.add_sub_cancel_left, Command.ofOpcode?_opcode]
      exact accepts_pure _

/-- Passing over an encoding finds its length. -/
theorem size_encode (value : Value) (suffix : List UInt8) (addressable : Addressable value) :
    size (encode value ++ suffix) = .ok (encode value).length := by
  have passed := accepts_skip (encode value ++ suffix).length value addressable (by simp) suffix
  rw [size, passed]
  simp

/-- Decoding an encoding gives back the value and the length. -/
theorem decode_encode (value : Value) (suffix : List UInt8) (conforming : Conforming value) :
    decode (encode value ++ suffix) = .ok (value, (encode value).length) := by
  have taken := accepts_read (deepestLevel + 1) value conforming.formed
    (Nat.lt_succ_of_le conforming.shallow) conforming.addressable suffix
  rw [decode, taken]
  simp [bind, Except.bind, pure, Except.pure]

/-- A value enters a machine as its encoding. The check whether its size is the length never
fails. -/
theorem make_eq_place {Store Reference : Type} [Storage Store Reference] (value : Value)
    (addressable : Addressable value) :
    (Machine.make value : ActionOn Store Reference Reference) = Machine.place (encode value) := by
  have length : size (encode value) = .ok (encode value).length := by
    simpa using size_encode value [] addressable
  rw [Machine.make, length]
  simp [Except.mapError, Machine.require]

/-- Every machine integer can be encoded and decoded again. -/
theorem conforming_word (word : Word) : Conforming (.real (.word word)) where
  formed := .word word
  shallow := Nat.zero_le _
  addressable := by
    have length := Leb128.write_length_le_ten _ word.magnitude.toNat_lt
    rw [Addressable, encode, List.length_append, tagBytes_length, realPayload]
    omega

/-- Encoding and reading fit together. Passing over an encoding finds its length whatever
follows, so that nothing is refused as a mismatch when a value enters a machine. Decoding
gives back every conforming value and the length of its encoding, whatever follows.
Therefore a row of bytes begins with the encoding of at most one conforming value: encoding is
injective, and no encoding is a proper beginning of another one. -/
theorem encode_round_trip :
    (∀ value suffix, Addressable value →
      size (encode value ++ suffix) = .ok (encode value).length) ∧
    (∀ (Store Reference : Type) [Storage Store Reference] (value : Value), Addressable value →
      (Machine.make value : ActionOn Store Reference Reference) =
        Machine.place (encode value)) ∧
    (∀ value suffix, Conforming value →
      decode (encode value ++ suffix) = .ok (value, (encode value).length)) ∧
    (∀ first second firstSuffix secondSuffix, Conforming first → Conforming second →
      encode first ++ firstSuffix = encode second ++ secondSuffix →
      first = second ∧ firstSuffix = secondSuffix) := by
  refine ⟨size_encode, fun _ _ _ => make_eq_place, decode_encode, ?_⟩
  intro first second firstSuffix secondSuffix conformingFirst conformingSecond equal
  have decodedFirst := decode_encode first firstSuffix conformingFirst
  have decodedSecond := decode_encode second secondSuffix conformingSecond
  rw [equal, decodedSecond, Except.ok.injEq, Prod.mk.injEq] at decodedFirst
  obtain ⟨rfl, -⟩ := decodedFirst
  exact ⟨rfl, List.append_cancel_left equal⟩

/-- The list of the decimal 1.5 and the polynomial with the one term x². -/
theorem encode_round_trip_list :
    let value : Value := .sequence .list
      [.real (.decimal ⟨⟨15, 1⟩, .decimal32⟩),
        .polynomial ⟨[⟨"x"⟩], [⟨.real (.word ⟨false, 1, by decide⟩), [2]⟩]⟩]
    size (encode value ++ [7]) = .ok (encode value).length ∧
      decode (encode value ++ [7]) = .ok (value, (encode value).length) := by
  intro value
  have conforming : Conforming value := by
    constructor
    · refine .sequence _ _ ?_
      rw [List.forall_mem_cons, List.forall_mem_singleton]
      have settled : Decimal.Settled Precision.decimal32.digits ⟨15, 1⟩ :=
        .inr ⟨by decide, by decide⟩
      refine ⟨.decimal _ ⟨⟨15, 1⟩, (Rounded.make_of_settled _ _ settled).symm⟩, ?_⟩
      refine .polynomial _ _ (by simp) ?_
      rw [List.forall_mem_singleton]
      exact .word _
    · decide
    · rw [Addressable]
      decide_cbv
  exact ⟨encode_round_trip.1 value [7] conforming.addressable,
    encode_round_trip.2.2.1 value [7] conforming⟩

end Encoding

end Calculator
