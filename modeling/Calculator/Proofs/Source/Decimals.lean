import Calculator.Proofs.Number.Denotation
import Calculator.Proofs.Number.Made
import Calculator.Proofs.Source.Lines
import Mathlib

/-!
# Numbers in their written form

A decimal is written with zeros and a point behind its digits, with zeros and a point in front of
them, with a point between them or with an exponent. Each of the four forms is a numeral that
denotes the digits and the scale again, but for zeros at the end that rounding drops. So every
number in the form that it has at the settings is read back from its text, and a line of numbers is
read back number by number.
-/

namespace Calculator

open Token (AreDigits IsMantissa IsExponent IsNumeral)

/-! ## Rows of digits -/

namespace Digits

/-- A row of digits behind another one moves the first one to the left. -/
theorem read_append (front back : List Char) :
    read (front ++ back) = read front * 10 ^ back.length + read back := by
  have moved (number : ℕ) : back.foldl (fun number digit => 10 * number + value digit) number =
      number * 10 ^ back.length + read back := by
    induction back using List.reverseRecOn with
    | nil => simp [read]
    | append_singleton back digit inductionHypothesis =>
      simp only [read, List.foldl_append, List.foldl_cons, List.foldl_nil, inductionHypothesis,
        List.length_append, List.length_singleton, pow_succ]
      ring
  rw [read, List.foldl_append, moved]
  rfl

/-- A row of zeros denotes zero. -/
theorem read_zeros (count : ℕ) : read (Render.zeros count) = 0 := by
  induction count with
  | zero => rfl
  | succ count inductionHypothesis =>
    have first : Render.zeros (count + 1) = ['0'] ++ Render.zeros count := rfl
    rw [first, read_append, inductionHypothesis]
    simp [read, value]

/-- Zeros are digits. -/
theorem areDigits_zeros (count : ℕ) : AreDigits (Render.zeros count) := by
  intro digit member
  rw [List.eq_of_mem_replicate member]
  decide

/-- A positive number is written with as many digits as it has. -/
theorem length_write {number : ℕ} (positive : 0 < number) :
    (write number).length = count number := by
  have onto (number : ℕ) (positive : 0 < number) (rest : List Char) :
      ∃ length, (writeOnto number rest).length = length + 1 + rest.length ∧
        10 ^ length ≤ number ∧ number < 10 ^ (length + 1) := by
    induction number, rest using writeOnto.induct with
    | case1 number rest small =>
      refine ⟨0, ?_, positive, by simpa using small⟩
      rw [writeOnto, if_pos small, List.length_cons]
      omega
    | case2 number rest large inductionHypothesis =>
      obtain ⟨length, written, lower, upper⟩ := inductionHypothesis (by omega)
      refine ⟨length + 1, ?_, ?_, ?_⟩
      · rw [writeOnto, if_neg large, written, List.length_cons]
        omega
      · rw [pow_succ]
        omega
      · rw [pow_succ]
        omega
  obtain ⟨length, written, lower, upper⟩ := onto number positive []
  rw [write, written, List.length_nil, Nat.add_zero]
  have most := (count_le_iff number (length + 1) positive).mpr upper
  have least : ¬ count number ≤ length := fun fewer =>
    absurd ((count_le_iff number length positive).mp fewer) (by omega)
  omega

end Digits

/-! ## Reading decimals -/

namespace Decimal

variable {characters digits places front back base row : List Char} {letter : Char}

/-- Nothing is split where the condition does not hold. -/
theorem splitAtFirst_of_forall {condition : Char → Bool}
    (never : ∀ character ∈ characters, condition character = false) :
    splitAtFirst condition characters = (characters, none) := by
  have passed : characters.dropWhile (fun character => !condition character) = [] :=
    List.dropWhile_eq_nil_iff.mpr fun character member => by simp [never character member]
  rw [splitAtFirst, passed]

/-- A row is split at the first character for which the condition holds. -/
theorem splitAtFirst_append {condition : Char → Bool} {mark : Char}
    (never : ∀ character ∈ front, condition character = false) (holds : condition mark = true) :
    splitAtFirst condition (front ++ mark :: back) = (front, some back) := by
  have passes : ∀ character ∈ front, (!condition character) = true := fun character member => by
    simp [never character member]
  rw [splitAtFirst, List.dropWhile_append_of_pos passes, List.takeWhile_append_of_pos passes]
  simp [holds]

/-- What is no digit does not stand in a row of digits. -/
theorem notMem_of_areDigits (plain : AreDigits digits) {other : Char}
    (apart : isDigit other = false) : other ∉ digits := by
  intro member
  simp [plain other member] at apart

/-- A row of digits is read as the number that it denotes. -/
theorem readInteger?_digits (nonempty : digits ≠ []) (plain : AreDigits digits) :
    readInteger? digits = some (Digits.read digits : ℤ) := by
  have admitted : digits.all (fun c => isDigit c || c == '_') = true :=
    List.all_eq_true.mpr fun character member => by simp [plain character member]
  have kept : digits.filter isDigit = digits := List.filter_eq_self.mpr plain
  obtain ⟨digit, others, rfl⟩ := List.exists_cons_of_ne_nil nonempty
  have other {mark : Char} (apart : isDigit mark = false) : digit ≠ mark := fun same =>
    notMem_of_areDigits plain apart (by simp [same])
  have magnitude : readMagnitude? (digit :: others) = some (Digits.read (digit :: others)) := by
    have line : digit ≠ '_' := other (by decide)
    simp [readMagnitude?, line, admitted, kept]
  have minus : digit ≠ '-' := other (by decide)
  have plus : digit ≠ '+' := other (by decide)
  simp [readInteger?, minus, plus, magnitude]

/-- The characters of an integer are its digits behind an optional sign. -/
theorem toList_signedText (value : ℤ) : (Digits.signedText value).toList =
    (if value < 0 then ['-'] else []) ++ Digits.write value.natAbs := by
  rw [Digits.signedText]
  split <;> simp [Digits.text]

/-- The exponent of a decimal fits its field. -/
theorem readExponent?_signedText {exponent : ℤ} (lower : -2 ^ 63 ≤ exponent)
    (upper : exponent < 2 ^ 63) :
    readExponent? (Digits.signedText exponent).toList = some exponent := by
  obtain ⟨nonempty, plain⟩ := Digits.write_plain exponent.natAbs
  have denoted := Digits.read_write exponent.natAbs
  have power : (twoTo 127 : ℤ) = 2 ^ 127 := by norm_num [twoTo]
  have room : (-(twoTo 127 : ℤ) ≤ exponent && exponent < (twoTo 127 : ℤ)) = true := by
    rw [power, Bool.and_eq_true, decide_eq_true_eq, decide_eq_true_eq]
    omega
  have proper : ((Digits.write exponent.natAbs).isEmpty ||
      !(Digits.write exponent.natAbs).all isDigit) = false := by
    simp [List.isEmpty_eq_false_iff.mpr nonempty, List.all_eq_true.mpr plain]
  rw [toList_signedText]
  generalize Digits.write exponent.natAbs = digits at *
  split
  · rename_i negative
    have opposite : -(Digits.read digits : ℤ) = exponent := by omega
    simp only [List.cons_append, List.nil_append, readExponent?, proper, Bool.false_eq_true,
      if_false, if_true, opposite, room]
  · rename_i positive
    have same : (Digits.read digits : ℤ) = exponent := by omega
    obtain ⟨digit, others, rfl⟩ := List.exists_cons_of_ne_nil nonempty
    have other {mark : Char} (apart : isDigit mark = false) : digit ≠ mark := fun same =>
      notMem_of_areDigits plain apart (by simp [same])
    have minus : digit ≠ '-' := other (by decide)
    have plus : digit ≠ '+' := other (by decide)
    rw [List.nil_append]
    unfold readExponent?
    split
    · rename_i begins
      exact absurd (List.cons.inj begins).1 minus
    · rename_i begins
      exact absurd (List.cons.inj begins).1 plus
    · simp only [proper, Bool.false_eq_true, if_false, same, room, if_true]

/-- The digits of a base and how many of them stand behind its point, if it has one. -/
inductive Pointed : List Char → List Char → ℕ → Prop where
  | whole {digits : List Char} (nonempty : digits ≠ []) (plain : AreDigits digits) :
      Pointed digits digits 0
  | split {lead places : List Char} (nonempty : lead ≠ []) (plain : AreDigits lead)
      (behind : AreDigits places) :
      Pointed (lead ++ '.' :: places) (lead ++ places) places.length

/-- A base begins with a digit. -/
theorem Pointed.begins {count : ℕ} (pointed : Pointed base row count) :
    ∃ digit others, base = digit :: others ∧ isDigit digit = true := by
  cases pointed with
  | whole nonempty plain | split nonempty plain behind =>
    obtain ⟨digit, others, rfl⟩ := List.exists_cons_of_ne_nil nonempty
    exact ⟨digit, _, rfl, plain digit List.mem_cons_self⟩

/-- A base has digits. -/
theorem Pointed.plain {count : ℕ} (pointed : Pointed base row count) :
    row ≠ [] ∧ AreDigits row := by
  cases pointed with
  | whole nonempty plain => exact ⟨nonempty, plain⟩
  | split nonempty plain behind =>
    refine ⟨by simp [nonempty], fun digit member => ?_⟩
    exact (List.mem_append.mp member).elim (plain digit) (behind digit)

/-- A base consists of digits and the point. -/
theorem Pointed.notMem {count : ℕ} (pointed : Pointed base row count) {other : Char}
    (digit : isDigit other = false) (point : other ≠ '.') : other ∉ base := by
  cases pointed with
  | whole nonempty plain => exact notMem_of_areDigits plain digit
  | split nonempty plain behind =>
    have front := notMem_of_areDigits plain digit
    have back := notMem_of_areDigits behind digit
    simp [front, back, point]

/-- No mark of an exponent stands in a base. -/
theorem Pointed.noLetter {count : ℕ} (pointed : Pointed base row count) :
    ∀ character ∈ base, (character == 'e' || character == 'E') = false := by
  intro character member
  rw [Bool.or_eq_false_iff, beq_eq_false_iff_ne, beq_eq_false_iff_ne]
  constructor <;> rintro rfl
  · exact pointed.notMem (by decide) (by decide) member
  · exact pointed.notMem (by decide) (by decide) member

/-- A base with an exponent behind it is read as its digits at the scale that is the number of its
places less the exponent. -/
theorem read?_eq {count : ℕ} {exponent : ℤ} (pointed : Pointed base row count)
    (parted :
      splitAtFirst (fun c => c == 'e' || c == 'E') characters = (base, none) ∧ exponent = 0 ∨
        ∃ text, splitAtFirst (fun c => c == 'e' || c == 'E') characters = (base, some text) ∧
          readExponent? text = some exponent)
    (lower : -2 ^ 63 ≤ (count : ℤ) - exponent) (upper : (count : ℤ) - exponent < 2 ^ 63) :
    read? characters = some ⟨Digits.read row, Int64.ofInt (count - exponent)⟩ := by
  obtain ⟨nonempty, plain⟩ := pointed.plain
  have number := readInteger?_digits nonempty plain
  have most : Int64.maxValue.toInt = 2 ^ 63 - 1 := rfl
  have noPoint {digits : List Char} (plain : AreDigits digits) :
      ∀ digit ∈ digits, (digit == '.') = false := by
    intro digit member
    refine beq_eq_false_iff_ne.mpr ?_
    rintro rfl
    exact notMem_of_areDigits plain (by decide) member
  have point : splitAtFirst (· == '.') base = (base, none) ∧ base = row ∧ count = 0 ∨
      ∃ lead places, splitAtFirst (· == '.') base = (lead, some places) ∧ lead ++ places = row ∧
        (places.filter (· != '_')).length = count := by
    cases pointed with
    | whole _ digits => exact .inl ⟨splitAtFirst_of_forall (noPoint digits), rfl, rfl⟩
    | @split lead places _ digits behind =>
      have kept : places.filter (· != '_') = places := by
        refine List.filter_eq_self.mpr fun digit member => bne_iff_ne.mpr ?_
        rintro rfl
        exact notMem_of_areDigits behind (by decide) member
      exact .inr ⟨lead, places, splitAtFirst_append (noPoint digits) rfl, rfl, by rw [kept]⟩
  have some : base.isEmpty = false := by
    cases pointed with
    | whole nonempty plain => exact List.isEmpty_eq_false_iff.mpr nonempty
    | split nonempty plain behind => simp
  unfold read?
  rcases parted with ⟨parted, rfl⟩ | ⟨text, parted, power⟩ <;>
    rcases point with ⟨point, rfl, rfl⟩ | ⟨lead, places, point, rfl, rfl⟩
  · simp [parted, some, point, number]
    omega
  · simp [parted, some, point, number]
    omega
  · simp [parted, some, power, point, number]
    omega
  · simp [parted, some, power, point, number]
    omega

/-! ## Literals -/

/-- Without a point there is none in front of an exponent. -/
theorem joinExponent_append (point : '.' ∉ front) :
    joinExponent letter (front ++ back) = front ++ joinExponent letter back := by
  induction front with
  | nil => rfl
  | cons character front inductionHypothesis =>
    obtain ⟨apart, others⟩ := not_or.mp (mt List.mem_cons.mpr point)
    have passed := inductionHypothesis others
    cases front with
    | nil =>
      cases back with
      | nil => simp [joinExponent]
      | cons next back => simp [joinExponent, Ne.symm apart]
    | cons next front =>
      rw [List.cons_append, List.cons_append, joinExponent, ← List.cons_append, passed]
      · rfl
      · rintro _ _ rfl -
        exact apart rfl

/-- What has no point is kept. -/
theorem joinExponent_of_notMem (point : '.' ∉ characters) :
    joinExponent letter characters = characters := by
  have kept : joinExponent letter (characters ++ []) = characters ++ joinExponent letter [] :=
    joinExponent_append point
  rwa [List.append_nil, joinExponent, List.append_nil] at kept

/-- A point that does not stand in front of an exponent is kept. -/
theorem joinExponent_point (point : '.' ∉ back) (apart : back.head? ≠ some letter) :
    joinExponent letter ('.' :: back) = '.' :: back := by
  have kept : joinExponent letter back = back := joinExponent_of_notMem point
  cases back with
  | nil => rfl
  | cons next back =>
    have other : next ≠ letter := fun same => apart (congrArg some same)
    rw [joinExponent, if_neg (by simpa using other), kept]

/-- A literal without a point at either end is read as it is. -/
theorem literal?_eq (raised : '⁳' ∉ characters)
    (joined : ∀ letter ∈ ['E', 'e'], joinExponent letter characters = characters)
    (first : characters.head? ≠ some '.') (last : characters.getLast? ≠ some '.') :
    literal? (String.ofList characters) = read? characters := by
  have plain : plainExponent characters = characters := by
    refine (List.map_congr_left fun character member => ?_).trans (List.map_id _)
    have other : character ≠ '⁳' := fun same => raised (same ▸ member)
    simp [other]
  have trimmed : (characters.getLast? == some '.') = false := by simpa using last
  rw [literal?, String.toList_ofList, plain, joined 'E' (by simp), joined 'e' (by simp)]
  simp only [trimmed, Bool.false_eq_true, if_false]
  split
  · simp at first
  · rfl

/-- A base that does not end in its point is read as it is, with or without an exponent. -/
theorem literal?_append {tail : List Char} {count : ℕ} (pointed : Pointed base row count)
    (closed : base.getLast? ≠ some '.') (raised : '⁳' ∉ tail) (point : '.' ∉ tail) :
    literal? (String.ofList (base ++ tail)) = read? (base ++ tail) := by
  refine literal?_eq ?_ (fun letter member => ?_) ?_ ?_
  · simp [pointed.notMem (by decide : isDigit '⁳' = false) (by decide), raised]
  · cases pointed with
    | whole nonempty plain =>
      have none : '.' ∉ base ++ tail := by
        simp [notMem_of_areDigits plain (by decide : isDigit '.' = false), point]
      exact joinExponent_of_notMem none
    | @split lead places nonempty plain behind =>
      have front : '.' ∉ lead := notMem_of_areDigits plain (by decide)
      have back : '.' ∉ places ++ tail := by
        simp [notMem_of_areDigits behind (by decide : isDigit '.' = false), point]
      obtain ⟨digit, others, rfl⟩ : ∃ digit others, places = digit :: others := by
        refine List.exists_cons_of_ne_nil ?_
        rintro rfl
        simp at closed
      have apart : (digit :: others ++ tail).head? ≠ some letter := by
        rintro ⟨⟩
        have plainDigit := behind letter List.mem_cons_self
        fin_cases member <;> simp [isDigit] at plainDigit
      rw [List.append_assoc, List.cons_append, joinExponent_append front,
        joinExponent_point back apart]
  · obtain ⟨digit, others, rfl, plain⟩ := pointed.begins
    rintro ⟨⟩
    simp [isDigit] at plain
  · cases tail with
    | nil => rwa [List.append_nil]
    | cons first tail =>
      intro found
      rw [List.getLast?_append_of_ne_nil _ (by simp)] at found
      exact point (List.mem_of_getLast? found)

/-- A point at the end of a literal is left out. -/
theorem literal?_trailing (nonempty : digits ≠ []) (plain : AreDigits digits) :
    literal? (String.ofList (digits ++ ['.'])) = read? digits := by
  have point : '.' ∉ digits := notMem_of_areDigits plain (by decide)
  have raised : '⁳' ∉ digits ++ ['.'] := by
    simp [notMem_of_areDigits plain (by decide : isDigit '⁳' = false)]
  have same : plainExponent (digits ++ ['.']) = digits ++ ['.'] := by
    refine (List.map_congr_left fun character member => ?_).trans (List.map_id _)
    have other : character ≠ '⁳' := fun same => raised (same ▸ member)
    simp [other]
  have joined (letter : Char) : joinExponent letter (digits ++ ['.']) = digits ++ ['.'] :=
    joinExponent_append point
  obtain ⟨digit, others, rfl⟩ := List.exists_cons_of_ne_nil nonempty
  rw [literal?, String.toList_ofList, same, joined, joined]
  simp only [List.getLast?_concat, beq_self_eq_true, if_true, List.dropLast_concat]
  split
  · rename_i begins
    simp [begins] at point
  · rfl

/-- The characters of a numeral with a point or an exponent denote a decimal. -/
structure Denotes (characters : List Char) (value : Decimal) : Prop where
  numeral : IsNumeral characters
  marked : characters.all isDigit = false
  read : literal? (String.ofList characters) = some value

/-- Digits with a point behind them denote an integer. -/
theorem denotes_trailing (nonempty : digits ≠ []) (plain : AreDigits digits) :
    Denotes (digits ++ ['.']) ⟨Digits.read digits, 0⟩ where
  numeral := .plain (.pointed nonempty plain (by simp [AreDigits]))
  marked := by simp [isDigit]
  read := by
    have whole : Pointed digits digits 0 := .whole nonempty plain
    rw [literal?_trailing nonempty plain]
    exact read?_eq whole (.inl ⟨splitAtFirst_of_forall whole.noLetter, rfl⟩)
      (by decide) (by decide)

/-- Digits with a point between them denote a decimal with a digit for each place. -/
theorem denotes_split (nonempty : digits ≠ []) (plain : AreDigits digits) (some : places ≠ [])
    (behind : AreDigits places) (few : places.length < 2 ^ 63) :
    Denotes (digits ++ '.' :: places)
      ⟨Digits.read (digits ++ places), Int64.ofInt places.length⟩ where
  numeral := .plain (.pointed nonempty plain behind)
  marked := by simp [isDigit]
  read := by
    have pointed : Pointed (digits ++ '.' :: places) (digits ++ places) places.length :=
      .split nonempty plain behind
    have closed : (digits ++ '.' :: places).getLast? ≠ Option.some '.' := by
      intro found
      rw [List.getLast?_append_of_ne_nil _ (by simp), List.getLast?_cons_of_ne_nil some] at found
      exact notMem_of_areDigits behind (by decide) (List.mem_of_getLast? found)
    have literal : literal? (String.ofList (digits ++ '.' :: places ++ [])) =
        read? (digits ++ '.' :: places ++ []) :=
      literal?_append pointed closed (by simp) (by simp)
    rw [List.append_nil] at literal
    rw [literal]
    have read := read?_eq pointed (.inl ⟨splitAtFirst_of_forall pointed.noLetter, rfl⟩) (by omega)
      (by omega)
    rwa [sub_zero] at read

/-- A base with an exponent behind it denotes a decimal. -/
theorem denotes_power {count : ℕ} {exponent : ℤ} (pointed : Pointed base row count)
    (closed : base.getLast? ≠ some '.') (lower : -2 ^ 63 ≤ exponent) (upper : exponent < 2 ^ 63)
    (least : -2 ^ 63 ≤ (count : ℤ) - exponent) (most : (count : ℤ) - exponent < 2 ^ 63) :
    Denotes (base ++ 'E' :: (Digits.signedText exponent).toList)
      ⟨Digits.read row, Int64.ofInt (count - exponent)⟩ where
  numeral := by
    obtain ⟨nonempty, plain⟩ := Digits.write_plain exponent.natAbs
    refine .scaled ?_ ?_
    · cases pointed with
      | whole nonempty plain => exact .whole nonempty plain
      | split nonempty plain behind => exact .pointed nonempty plain behind
    · rw [toList_signedText, ← List.cons_append]
      exact .scale (by simp) (by split <;> simp) nonempty plain
  marked := by simp [isDigit]
  read := by
    obtain ⟨nonempty, plain⟩ := Digits.write_plain exponent.natAbs
    have apart {other : Char} (digit : isDigit other = false) (sign : other ≠ '-') :
        other ∉ (Digits.signedText exponent).toList := by
      have others := notMem_of_areDigits plain digit
      rw [toList_signedText]
      split <;> simp [others, sign]
    have raised := apart (by decide : isDigit '⁳' = false) (by decide)
    have point := apart (by decide : isDigit '.' = false) (by decide)
    rw [literal?_append pointed closed (by simp [raised]) (by simp [point])]
    exact read?_eq pointed (.inr ⟨_, splitAtFirst_append pointed.noLetter rfl,
      readExponent?_signedText lower upper⟩) least most

/-! ## Written decimals -/

variable {x : Decimal} {precision : Precision}

/-- The digits of a decimal that is not zero. -/
theorem write_mantissa (nonzero : x.mantissa ≠ 0) :
    Digits.write x.mantissa.natAbs ≠ [] ∧ AreDigits (Digits.write x.mantissa.natAbs) ∧
      Digits.read (Digits.write x.mantissa.natAbs) = x.mantissa.natAbs ∧
        (Digits.write x.mantissa.natAbs).length = x.digits := by
  obtain ⟨nonempty, plain⟩ := Digits.write_plain x.mantissa.natAbs
  exact ⟨nonempty, plain, Digits.read_write _, Digits.length_write (by omega)⟩

/-- The sign of a settled decimal may be left out. -/
theorem Settled.absolute {count : ℕ} (settled : x.Settled count) : x.absolute.Settled count := by
  rcases settled with rfl | settled
  · exact .inl rfl
  · exact .inr settled

/-- A decimal that is not negative is its own magnitude. -/
theorem absolute_eq (positive : x.isNegative = false) : x.absolute = x := by
  have least : 0 ≤ x.mantissa := by simpa [isNegative] using positive
  rw [absolute, Int.natAbs_of_nonneg least]

/-- A negative decimal is its magnitude with the sign. -/
theorem negated_absolute (negative : x.isNegative = true) : x.absolute.negated = x := by
  have below : x.mantissa < 0 := by simpa [isNegative] using negative
  rw [absolute, negated, Int.ofNat_natAbs_of_nonpos below.le, neg_neg]

/-- Characters that denote a settled decimal without its sign, but for zeros that rounding drops. -/
def Stands (precision : Precision) (characters : List Char) (x : Decimal) : Prop :=
  ∃ value, Denotes characters value ∧
    Rounded.make value precision = ⟨x.absolute, precision⟩

/-- The scale is what is written for it. -/
theorem ofInt_scale (x : Decimal) : Int64.ofInt x.scale.toInt = x.scale := Int64.ofInt_toInt _

/-- A settled decimal is denoted by its digits at its scale. -/
theorem Denotes.stands {characters : List Char} {scale : ℤ} (settled : x.Settled precision.digits)
    (denotes : Denotes characters ⟨(x.mantissa.natAbs : ℕ), Int64.ofInt scale⟩)
    (same : scale = x.scale.toInt) : Stands precision characters x := by
  subst same
  rw [ofInt_scale] at denotes
  exact ⟨_, denotes, Rounded.make_of_settled _ _ settled.absolute⟩

/-- Rounding drops the zeros of an integer that fits the tier. -/
theorem make_padded {zeros : ℕ} (last : x.mantissa.natAbs % 10 ≠ 0)
    (scale : x.scale.toInt = -zeros) (fits : x.digits + zeros ≤ precision.digits) :
    Rounded.make ⟨(x.mantissa.natAbs * 10 ^ zeros : ℕ), 0⟩ precision =
      ⟨x.absolute, precision⟩ := by
  have positive : 0 < x.mantissa.natAbs := by omega
  have product : 0 < x.mantissa.natAbs * 10 ^ zeros := Nat.mul_pos positive (by positivity)
  have below : x.mantissa.natAbs * 10 ^ zeros < 10 ^ precision.digits := by
    have digits := (Digits.count_bounds _ positive).2
    calc x.mantissa.natAbs * 10 ^ zeros
      _ < 10 ^ x.digits * 10 ^ zeros := Nat.mul_lt_mul_of_pos_right digits (by positivity)
      _ = 10 ^ (x.digits + zeros) := (pow_add _ _ _).symm
      _ ≤ 10 ^ precision.digits := Nat.pow_le_pow_right (by decide) fits
  have some : ¬ isZero ⟨(x.mantissa.natAbs * 10 ^ zeros : ℕ), 0⟩ = true := fun zero =>
    product.ne' (Int.natCast_eq_zero.mp (eq_of_beq zero))
  have short : digits ⟨(x.mantissa.natAbs * 10 ^ zeros : ℕ), 0⟩ ≤ precision.digits := by
    rw [digits, Int.natAbs_natCast]
    exact (Digits.count_le_iff _ _ product).mpr below
  have dropped : (0 : Int64) - Int64.ofNat zeros = x.scale := by
    rw [Int64.zero_sub, ← Int64.ofInt_toInt x.scale, scale, Int64.ofInt_neg, Int64.ofInt_eq_ofNat]
  rw [Rounded.make, if_neg some, normalized_withDigits short (Int.natAbs_natCast _) last, dropped,
    Int.sign_eq_one_of_pos (Int.natCast_pos.mpr product), one_mul]
  rfl

/-- A settled decimal is denoted by its digits with zeros and a point, if these fit the tier. -/
theorem stands_positional (nonzero : x.mantissa ≠ 0) (settled : x.Settled precision.digits)
    (fits : (x.digits : ℤ) - x.scale.toInt ≤ precision.digits) :
    Stands precision (Render.positional (Digits.write x.mantissa.natAbs) x.scale.toInt) x := by
  obtain ⟨nonempty, plain, denoted, length⟩ := write_mantissa nonzero
  have last : x.mantissa.natAbs % 10 ≠ 0 := by
    rcases settled with rfl | ⟨last, -⟩
    · exact absurd rfl nonzero
    · exact last
  have top : x.scale.toInt < 2 ^ 63 := x.scale.toInt_lt
  generalize Digits.write x.mantissa.natAbs = digits at *
  simp only [Render.positional]
  split_ifs with integral short
  · -- The zeros stand in front of the point and are dropped again.
    generalize zeros : x.scale.toInt.natAbs = count
    have scale : x.scale.toInt = -count := by omega
    have padded : AreDigits (digits ++ Render.zeros count) := fun digit member =>
      (List.mem_append.mp member).elim (plain digit) (Digits.areDigits_zeros count digit)
    have value : Digits.read (digits ++ Render.zeros count) = x.mantissa.natAbs * 10 ^ count := by
      rw [Digits.read_append, Digits.read_zeros, denoted, Render.zeros, List.length_replicate,
        Nat.add_zero]
    refine ⟨_, denotes_trailing (by simp [nonempty]) padded, ?_⟩
    rw [value]
    exact make_padded last scale (by omega)
  · -- The zeros stand between the point and the digits.
    have value : Digits.read
        (['0'] ++ (Render.zeros (x.scale.toInt.toNat - digits.length) ++ digits)) =
          x.mantissa.natAbs := by
      have zero : Digits.read ['0'] = 0 := by decide
      rw [Digits.read_append, Digits.read_append, Digits.read_zeros, zero, denoted]
      simp
    have places : (Render.zeros (x.scale.toInt.toNat - digits.length) ++ digits).length =
        x.scale.toInt.toNat := by
      rw [List.length_append, Render.zeros, List.length_replicate]
      omega
    have behind : AreDigits (Render.zeros (x.scale.toInt.toNat - digits.length) ++ digits) :=
      fun digit member => (List.mem_append.mp member).elim
        (Digits.areDigits_zeros _ digit) (plain digit)
    have denotes := denotes_split (by simp : ['0'] ≠ []) (by simp [AreDigits, isDigit])
      (by simp [nonempty]) behind (by omega)
    rw [value] at denotes
    exact denotes.stands settled (by omega)
  · -- The point stands between the digits.
    have value : Digits.read (digits.take (digits.length - x.scale.toInt.toNat) ++
        digits.drop (digits.length - x.scale.toInt.toNat)) = x.mantissa.natAbs := by
      rw [List.take_append_drop, denoted]
    have places : (digits.drop (digits.length - x.scale.toInt.toNat)).length =
        x.scale.toInt.toNat := by
      rw [List.length_drop]
      omega
    have front : digits.take (digits.length - x.scale.toInt.toNat) ≠ [] := by
      apply List.ne_nil_of_length_pos
      rw [List.length_take]
      omega
    have back : digits.drop (digits.length - x.scale.toInt.toNat) ≠ [] := by
      apply List.ne_nil_of_length_pos
      omega
    have denotes := denotes_split front
      (fun digit member => plain digit (List.mem_of_mem_take member))
      back (fun digit member => plain digit (List.mem_of_mem_drop member)) (by omega)
    rw [value] at denotes
    exact denotes.stands settled (by omega)

/-- A settled decimal is denoted by its digits with a point behind the first one and an exponent. -/
theorem stands_scientific (nonzero : x.mantissa ≠ 0) (settled : x.Settled precision.digits)
    (lower : -2 ^ 63 ≤ (x.digits : ℤ) - 1 - x.scale.toInt)
    (upper : (x.digits : ℤ) - 1 - x.scale.toInt < 2 ^ 63) :
    Stands precision (Render.scientific (Digits.write x.mantissa.natAbs)
      ((x.digits : ℤ) - 1 - x.scale.toInt)) x := by
  obtain ⟨nonempty, plain, denoted, length⟩ := write_mantissa nonzero
  have bottom : -2 ^ 63 ≤ x.scale.toInt := x.scale.le_toInt
  have top : x.scale.toInt < 2 ^ 63 := x.scale.toInt_lt
  generalize Digits.write x.mantissa.natAbs = digits at *
  obtain ⟨digit, places, rfl⟩ := List.exists_cons_of_ne_nil nonempty
  have first : AreDigits [digit] := fun other member =>
    plain other (by rw [List.mem_singleton.mp member]; exact List.mem_cons_self)
  have others : AreDigits places := fun other member => plain other (List.mem_cons_of_mem _ member)
  rw [List.length_cons] at length
  have parted : ∃ base, Render.scientific (digit :: places)
      ((x.digits : ℤ) - 1 - x.scale.toInt) =
        base ++ 'E' :: (Digits.signedText ((x.digits : ℤ) - 1 - x.scale.toInt)).toList ∧
      Pointed base (digit :: places) places.length ∧ base.getLast? ≠ some '.' := by
    cases places with
    | nil =>
      refine ⟨[digit], rfl, .whole (by simp) first, ?_⟩
      rintro ⟨⟩
      exact notMem_of_areDigits first (by decide) List.mem_cons_self
    | cons place places =>
      refine ⟨digit :: '.' :: place :: places, by simp [Render.scientific],
        .split (by simp) first others, ?_⟩
      intro found
      rw [List.getLast?_cons_cons, List.getLast?_cons_of_ne_nil (by simp)] at found
      exact notMem_of_areDigits others (by decide) (List.mem_of_getLast? found)
  obtain ⟨base, form, pointed, closed⟩ := parted
  have denotes := denotes_power pointed closed lower upper (by omega) (by omega)
  rw [form]
  rw [denoted] at denotes
  exact denotes.stands settled (by omega)

/-- A settled decimal is written with its sign and a numeral that stands for it. -/
theorem exists_stands (settled : x.Settled precision.digits) (fits : x.ExponentFits) :
    ∃ characters, Stands precision characters x ∧ Render.decimal ⟨x, precision⟩ =
      Render.sign x.isNegative ++ String.ofList characters := by
  by_cases zero : x.mantissa = 0
  · obtain rfl : x = .zero := by
      rcases settled with same | ⟨last, -⟩
      · exact same
      · simp [zero] at last
    have denotes := denotes_trailing (by simp : ['0'] ≠ []) (by simp [AreDigits, isDigit])
    exact ⟨['0', '.'], ⟨_, denotes, by cases precision <;> decide⟩, rfl⟩
  · obtain ⟨lower, upper⟩ := fits zero
    have nonzero : x.isZero = false := by simpa [isZero] using zero
    have single : x.mantissa.natAbs = x.mantissa.natAbs * 10 ^ 0 := by rw [pow_zero, mul_one]
    have last : x.mantissa.natAbs % 10 ≠ 0 := by
      rcases settled with rfl | ⟨last, -⟩
      · exact absurd rfl zero
      · exact last
    have normal : x.normalized = x := by
      rw [normalized_factor x _ 0 single last, Int.sign_mul_natAbs]
      cases x
      simp
    have exponent := toInt_exponent_of_fits zero lower upper
    rw [Render.decimal]
    simp only [nonzero, Bool.false_eq_true, if_false, normal, exponent]
    split_ifs with readable
    · rw [Bool.and_eq_true, decide_eq_true_eq, decide_eq_true_eq] at readable
      exact ⟨_, stands_positional zero settled (by omega), rfl⟩
    · exact ⟨_, stands_scientific zero settled lower upper, rfl⟩

end Decimal

/-! ## Lines of numbers -/

namespace Source

variable {settings : Preferences} {deeper : Deeper} {line : Line} {row rest : List Token.Written}

open Token (Written textOf textOf_cons textOf_nil Legible)

/-- A numeral with a point or an exponent is read as a decimal of the tier in the settings. -/
theorem reads_number {text : String} {value : Decimal}
    (denotes : Decimal.Denotes text.toList value) (span : Span) :
    Reads (number text span) line row (.ofDecimal value line.settings.precision) row := by
  have literal := denotes.read
  rw [String.ofList_toList] at literal
  have marked : isPlainNumber text = false := denotes.marked
  intro offset
  refine ⟨offset, ?_⟩
  unfold number
  simp only [marked, Bool.false_eq_true, if_false, literal]
  rfl

/-- What stands for a decimal of the tier in the settings is read as its magnitude. -/
theorem reads_magnitude {text : String} {x : Decimal}
    (stands : x.Stands settings.precision text.toList) (under : line.settings = settings)
    (span : Span) :
    Reads (number text span) line row (.decimal ⟨x.absolute, settings.precision⟩) row := by
  obtain ⟨value, denotes, rounded⟩ := stands
  have read : Reads (number text span) line row (.ofDecimal value line.settings.precision) row :=
    reads_number denotes span
  rwa [under, Real.ofDecimal, rounded] at read

/-- A sign in front of a numeral is not taken for the beginning of another operator. -/
theorem apart_number {text : String} {value : Decimal}
    (denotes : Decimal.Denotes text.toList value) (rest : List Written) :
    Token.Apart (Token.characters (⟨false, .number text⟩ :: rest)) := by
  obtain ⟨first, others, worded, listed⟩ := denotes.numeral.head
  have head : (Token.number text).message.toList.head? = some first := by
    rw [Token.message, worded, List.head?_cons]
  refine Token.apart_cons head ?_
  fin_cases listed <;> rfl

/-- A decimal of the tier in the settings is a literal. -/
theorem exists_isLiteral_decimal {x : Decimal} (settled : x.Settled settings.precision.digits)
    (fits : x.ExponentFits) : ∃ first others,
      IsLiteral settings (.real (.decimal ⟨x, settings.precision⟩)) first others := by
  obtain ⟨characters, stands, written⟩ := Decimal.exists_stands settled fits
  obtain ⟨text, rfl⟩ : ∃ text : String, characters = text.toList :=
    ⟨String.ofList characters, String.toList_ofList.symm⟩
  rw [String.ofList_toList] at written
  have rendered (limit : ℕ) : Render.upTo settings limit
      (.real (.decimal ⟨x, settings.precision⟩)) = Render.sign x.isNegative ++ text := by
    rw [← written]
    cases limit <;> rfl
  have ⟨_, denotes, _⟩ := stands
  cases negative : x.isNegative with
  | false =>
    refine ⟨.number text, [], ⟨fun limit => ?_, begins_number text, ?_, ?_⟩⟩
    · rw [rendered, negative]
      simp [textOf_cons, textOf_nil, Token.message, Render.sign]
    · exact fun _ _ follows ends => ⟨denotes.numeral, ends, follows⟩
    · intro deeper line row rest result under noStroke suffix span
      refine (reads_magnitude stands under span).bind ?_
      rw [Decimal.absolute_eq negative]
      exact suffix
  | true =>
    refine ⟨.operator .subtract, [⟨false, .number text⟩],
      ⟨fun limit => ?_, begins_subtract, ?_, ?_⟩⟩
    · rw [rendered, negative]
      simp [textOf_cons, textOf_nil, Token.message, Render.sign, Command.symbol, Command.entry]
    · exact fun _ rest follows ends => ⟨by simp [Token.Spelled], fun _ => apart_number denotes rest,
        denotes.numeral, ends, follows⟩
    · intro deeper line row rest result under noStroke suffix span
      refine reads_adjacentNumber? fun span => (reads_magnitude stands under span).bind ?_
      rw [Real.negated, Decimal.negated_absolute negative]
      exact suffix

/-- The numbers in the form that they have at given settings: the exact ones, and the decimals of
the tier in the settings as rounding makes them, with an exponent that fits a machine word. -/
def Canonical (settings : Preferences) : Real → Prop
  | .decimal value =>
    value.IsMade ∧ value.precision = settings.precision ∧ value.value.ExponentFits
  | _ => True

/-- A number is a literal, unless fractions are written as mixed numbers. -/
theorem exists_isLiteral_real (unmixed : settings.render.contains .mixedFractions = false)
    {number : Real} (canonical : Canonical settings number) :
    ∃ first others, IsLiteral settings (.real number) first others := by
  cases number with
  | word value =>
    rw [← Real.ofInt_toInt]
    exact ⟨_, _, isLiteral_integer settings value.toInt⟩
  | wide value =>
    rw [← Real.ofInt_value]
    exact ⟨_, _, isLiteral_integer settings value.value⟩
  | fraction value => exact ⟨_, _, isLiteral_fraction unmixed value⟩
  | decimal value =>
    obtain ⟨x, precision⟩ := value
    obtain ⟨made, rfl, fits⟩ := canonical
    exact exists_isLiteral_decimal ((Rounded.isMade_iff _).mp made) fits

/-- Numbers survive being written. Every number in its form is read back from its text as the one
value of the line, and so are numbers side by side with single blanks between their texts. -/
theorem readLine_numbers (unmixed : settings.render.contains .mixedFractions = false) :
    (∀ number, Canonical settings number →
      readLine (Render.value (.real number) settings) settings = .ok [.real number]) ∧
    ∀ numbers : List Real, (∀ number ∈ numbers, Canonical settings number) →
      readLine (Render.joinWith " " (numbers.map fun number =>
        Render.value (.real number) settings)) settings = .ok (numbers.map .real) := by
  have line (numbers : List Real) (canonical : ∀ number ∈ numbers, Canonical settings number) :
      readLine (Render.joinWith " " (numbers.map fun number =>
        Render.value (.real number) settings)) settings = .ok (numbers.map .real) := by
    have each : ∀ value ∈ numbers.map Value.real, ∃ first others,
        IsWritten settings settings.maxRecursion.toNat value first others := by
      intro value member
      obtain ⟨number, among, rfl⟩ := List.mem_map.mp member
      obtain ⟨first, others, literal⟩ := exists_isLiteral_real unmixed (canonical number among)
      exact ⟨first, others, literal.isWritten _⟩
    have apart : UnitsApart (numbers.map Value.real) :=
      (List.isChain_map _).mpr (List.isChain_iff_getElem.mpr fun _ _ unit => nomatch unit)
    obtain ⟨row, written⟩ := areWritten_of_forall apart each false
    have read := written.readLine_eq
    rwa [List.map_map] at read
  refine ⟨fun number canonical => ?_, line⟩
  exact line [number] (by simpa using canonical)

/-- One decimal of each of the four forms, with fractions and integers between them. -/
theorem readLine_numbers_forms :
    let settings : Preferences := { precision := .decimal32 }
    let decimal (mantissa : ℤ) (scale : Int64) : Real := .decimal ⟨⟨mantissa, scale⟩, .decimal32⟩
    let numbers := [decimal (-12) (-3), decimal 345 7, .fraction ⟨-1, 2, by decide, by decide⟩,
      decimal (-678) 1, .ofInt (-90), decimal 1234567 (-9223372036854775801)]
    readLine (Render.joinWith " " (numbers.map fun number =>
      Render.value (.real number) settings)) settings = .ok (numbers.map .real) := by
  intro settings decimal numbers
  have made (mantissa : ℤ) (scale : Int64)
      (settled : mantissa.natAbs % 10 ≠ 0 ∧ mantissa.natAbs < 10 ^ 7) :
      Rounded.IsMade ⟨⟨mantissa, scale⟩, .decimal32⟩ := (Rounded.isMade_iff _).mpr (.inr settled)
  have fits (mantissa : ℤ) (scale : Int64) (few : Digits.count mantissa.natAbs ≤ 7)
      (lower : -2 ^ 63 + 7 ≤ -scale.toInt) (upper : -scale.toInt ≤ 2 ^ 63 - 7) :
      Decimal.ExponentFits ⟨mantissa, scale⟩ := by
    intro _
    simp only [Decimal.digits]
    omega
  have canonical : ∀ number ∈ numbers, Canonical settings number := by
    simp only [numbers, List.forall_mem_cons]
    refine ⟨⟨made _ _ (by decide), rfl, fits _ _ ?_ (by decide) (by decide)⟩,
      ⟨made _ _ (by decide), rfl, fits _ _ ?_ (by decide) (by decide)⟩, trivial,
      ⟨made _ _ (by decide), rfl, fits _ _ ?_ (by decide) (by decide)⟩, ?_,
      ⟨made _ _ (by decide), rfl, fits _ _ ?_ (by decide) (by decide)⟩, List.forall_mem_nil _⟩
    case refine_4 =>
      rw [Real.ofInt, dif_neg (by decide)]
      trivial
    all_goals simp [Digits.count]
  have unmixed : settings.render.contains .mixedFractions = false := by decide
  exact (readLine_numbers unmixed).2 numbers canonical

end Source

end Calculator
