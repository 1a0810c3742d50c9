import Calculator.Proofs.Encoding.RoundTrip
import Mathlib

/-!
# Values that nest too deep

Passing over an encoding does not look at what is inside the payloads, but decoding does, and
goes down to a deepest level only. A value that nests deeper can be encoded and passed over all
the same, and is then refused by decoding: everything in front of the first value that lies too
deep is decoded as usual, and there decoding ends, whatever follows.
-/

namespace Calculator.Encoding

variable {Item Result : Type} {reason : Malformation}

/-- A reader fails for this reason on all bytes that begin with the given ones. -/
def Refuses (reader : Reader Item) (used : List UInt8) (reason : Malformation) : Prop :=
  ∀ suffix, reader (used ++ suffix) = .error reason

/-- What is refused is refused with more behind it. -/
theorem Refuses.append {reader : Reader Item} {used : List UInt8}
    (refused : Refuses reader used reason) (more : List UInt8) :
    Refuses reader (used ++ more) reason := by
  intro suffix
  rw [List.append_assoc]
  exact refused (more ++ suffix)

/-- Of two readers in a row, the first one refuses for both. -/
theorem Refuses.bind {reader : Reader Item} {used : List UInt8}
    (refused : Refuses reader used reason) (next : Item → Reader Result) :
    Refuses (reader >>= next) used reason := by
  intro suffix
  simp only [Bind.bind, StateT.bind, Except.bind]
  rw [refused]

/-- Of two readers in a row, the second one refuses what is behind the bytes of the first. -/
theorem refuses_bind {reader : Reader Item} {next : Item → Reader Result}
    {first second : List UInt8} {item : Item} (taken : Accepts reader first item)
    (refused : Refuses (next item) second reason) :
    Refuses (reader >>= next) (first ++ second) reason := by
  intro suffix
  rw [List.append_assoc, accepts_run taken]
  exact refused suffix

/-- A failure that has nothing to do with the bytes comes in front of all of them. -/
theorem refuses_lift {outcome : Except Malformation Item} (failed : outcome = .error reason) :
    Refuses (liftM outcome : Reader Item) [] reason := by
  subst failed
  exact fun _ => rfl

/-- Decoding a value refuses the payload that a tag announces behind the tag. -/
theorem refuses_read_tag {levels : Nat} {tag : Tag} {payload : List UInt8}
    (refused : Refuses (readPayload (readWithin levels) tag) payload reason) :
    Refuses (readWithin (levels + 1)) (tagBytes tag ++ payload) reason := by
  have below : tag.number < Tag.commandBase := tag.number_lt
  have fits : tag.number < 2 ^ 64 := Nat.lt_trans below (by decide)
  rw [readWithin]
  refine refuses_bind (accepts_number tag.number fits) ?_
  rw [UInt64.toNat_ofNat_of_lt' fits]
  simp only [if_neg (Nat.not_le.mpr below), Tag.ofNumber?_number]
  exact refused

/-- Whether a reader gets to the end of a value's encoding or refuses it. -/
def Settles (value : Reader Value) (item : Value) (reason : Malformation) : Prop :=
  Accepts value (encode item) item ∨ Refuses value (encode item) reason

/-- The items of a sequence are refused with the first item that is. -/
theorem readItems_refused {value : Reader Value} {steps : Nat} {items : List Value}
    (enough : items.length ≤ steps) (addressable : ∀ item ∈ items, Addressable item)
    (settled : ∀ item ∈ items, Settles value item reason)
    (refused : ∃ item ∈ items, Refuses value (encode item) reason) :
    readItems value steps (encodeItems items) = .error reason := by
  induction items generalizing steps with
  | nil => simp at refused
  | cons item items inductionHypothesis =>
    obtain ⟨steps, rfl⟩ : ∃ previous, steps = previous + 1 := ⟨steps - 1, by simp at enough; omega⟩
    rw [List.forall_mem_cons] at addressable settled
    rw [encodeItems, readItems, nextElement?_encode item _ addressable.1]
    by_cases here : Refuses value (encode item) reason
    · have failed := here []
      rw [List.append_nil] at failed
      simp only [failed, bind, Except.bind]
    · have read := settled.1.resolve_right here []
      have later : ∃ other ∈ items, Refuses value (encode other) reason := by
        simpa [here] using refused
      have others := inductionHypothesis (by simpa using enough) addressable.2 settled.2 later
      rw [List.append_nil] at read
      simp only [read, others, bind, Except.bind]

/-- The terms of a polynomial are refused with the first factor that is. -/
theorem readTerms_refused {value : Reader Value} {width steps : Nat} {terms : List (Term Value)}
    (enough : terms.length ≤ steps) (aligned : ∀ term ∈ terms, term.exponents.length = width)
    (settled : ∀ term ∈ terms, Settles value term.factor reason)
    (refused : ∃ term ∈ terms, Refuses value (encode term.factor) reason) :
    readTerms value width steps (encodeTerms terms) = .error reason := by
  induction terms generalizing steps with
  | nil => simp at refused
  | cons term terms inductionHypothesis =>
    obtain ⟨steps, rfl⟩ : ∃ previous, steps = previous + 1 := ⟨steps - 1, by simp at enough; omega⟩
    obtain ⟨factor, exponents⟩ := term
    rw [List.forall_mem_cons] at aligned settled
    have nonempty (rest : List UInt8) : (encode factor ++ rest).isEmpty = false := by
      have positive := encode_length_pos factor
      rw [List.isEmpty_eq_false_iff, ← List.length_pos_iff, List.length_append]
      omega
    rw [encodeTerms, encodeTerm, List.append_assoc, readTerms, run_get, nonempty]
    simp only [Bool.false_eq_true, if_false]
    by_cases here : Refuses value (encode factor) reason
    · exact here.bind _ _
    · have read := settled.1.resolve_right here
      have later : ∃ other ∈ terms, Refuses value (encode other.factor) reason := by
        simpa [here] using refused
      have others := inductionHypothesis (by simpa using enough) aligned.2 settled.2 later
      have written := accepts_times (fun exponent => Leb128.write exponent.toNat) exponents
        fun exponent _ => accepts_exponent exponent
      rw [aligned.1] at written
      rw [accepts_run read, accepts_run written]
      simp only [bind, StateT.bind, Except.bind, others]

/-- A sequence is refused with the first item that is. -/
theorem refuses_read_sequence {value : Reader Value} {kind : SequenceKind} {items : List Value}
    (fits : (counted (encodeItems items)).length < 2 ^ 64)
    (settled : ∀ item ∈ items, Settles value item reason)
    (refused : ∃ item ∈ items, Refuses value (encode item) reason) :
    Refuses (readPayload value (Tag.ofKind kind)) (counted (encodeItems items)) reason := by
  have length := length_lt_counted (encodeItems items)
  have read := readItems_refused (length_le_encodeItems items) (fun item among => by
      have part := encode_length_le_encodeItems items item among
      rw [Addressable]
      omega) settled refused
  have decoded : Refuses (readPayload.readSequence value kind)
      (counted (encodeItems items) ++ []) reason :=
    refuses_bind (accepts_counted _ (by omega)) ((refuses_lift read).bind _)
  rw [List.append_nil] at decoded
  cases kind <;> exact decoded

/-- A polynomial is refused with the first factor that is. -/
theorem refuses_read_polynomial {value : Reader Value} {names : List Symbol}
    {terms : List (Term Value)} (fits : (counted (encodePolynomial ⟨names, terms⟩)).length < 2 ^ 64)
    (aligned : ∀ term ∈ terms, term.exponents.length = names.length)
    (settled : ∀ term ∈ terms, Settles value term.factor reason)
    (refused : ∃ term ∈ terms, Refuses value (encode term.factor) reason) :
    Refuses (readPayload value .polynomial) (counted (encodePolynomial ⟨names, terms⟩)) reason := by
  have length := length_lt_counted (encodePolynomial ⟨names, terms⟩)
  have short : (encodePolynomial ⟨names, terms⟩).length < 2 ^ 64 := by omega
  have namesShort : (variableBytes names).length < 2 ^ 64 := by
    rw [encodePolynomial, List.length_append] at short
    omega
  have count := Nat.lt_of_le_of_lt (length_le_variableBytes names) namesShort
  have failed : readPolynomial value (encodePolynomial ⟨names, terms⟩) = .error reason := by
    rw [encodePolynomial, variableBytes, List.append_assoc, readPolynomial,
      accepts_run (accepts_number names.length count)]
    simp only [UInt64.toNat_ofNat_of_lt' count]
    rw [accepts_run (accepts_names names namesShort), run_get]
    simp only [bind, StateT.bind, Except.bind,
      readTerms_refused (length_le_encodeTerms terms) aligned settled refused]
  have decoded : Refuses (readPayload value .polynomial)
      (counted (encodePolynomial ⟨names, terms⟩) ++ []) reason :=
    refuses_bind (accepts_counted _ short) ((refuses_lift failed).bind _)
  rwa [List.append_nil] at decoded

/-- Decoding refuses the encoding of a value that nests as deep as there are levels, whatever
follows. -/
theorem refuses_read (levels : Nat) (value : Value) (formed : value.WellFormed)
    (deep : levels ≤ value.nesting) (addressable : Addressable value) :
    Refuses (readWithin levels) (encode value) .nestingTooDeep := by
  induction levels generalizing value with
  | zero => exact fun _ => rfl
  | succ levels inductionHypothesis =>
    rw [Addressable] at addressable
    -- What lies inside is read one level further down, where it is too deep or not.
    have refused (inner : Value) (formed : inner.WellFormed) (deeper : levels ≤ inner.nesting)
        (shorter : (encode inner).length < (encode value).length) :
        Refuses (readWithin levels) (encode inner) .nestingTooDeep :=
      inductionHypothesis inner formed deeper (by rw [Addressable]; omega)
    have taken (inner : Value) (formed : inner.WellFormed) (shallow : inner.nesting < levels)
        (shorter : (encode inner).length < (encode value).length) :
        Accepts (readWithin levels) (encode inner) inner :=
      accepts_read levels inner formed shallow (by rw [Addressable]; omega)
    have settled (inner : Value) (formed : inner.WellFormed)
        (shorter : (encode inner).length < (encode value).length) :
        Settles (readWithin levels) inner .nestingTooDeep :=
      (Nat.lt_or_ge inner.nesting levels).imp (fun shallow => taken inner formed shallow shorter)
        fun deeper => refused inner formed deeper shorter
    cases value with
    | real | symbol | text | command => simp [Value.nesting] at deep
    | complex form first second =>
      obtain ⟨⟩ := formed
      rename_i formedFirst formedSecond
      rw [Value.nesting] at deep
      rw [encode, List.length_append, List.length_append, tagBytes_length] at refused taken
      rw [encode, List.append_assoc]
      refine refuses_read_tag ?_
      rcases Nat.lt_or_ge first.nesting levels with shallow | deeper
      · have read := taken first formedFirst shallow (by omega)
        have tooDeep := refused second formedSecond (by omega) (by omega)
        cases form <;> exact refuses_bind read (tooDeep.bind _)
      · have tooDeep := (refused first formedFirst deeper (by omega)).append (encode second)
        cases form <;> exact tooDeep.bind _
    | sequence kind items =>
      obtain ⟨⟩ := formed
      rename_i formed
      have length := length_lt_counted (encodeItems items)
      have shorter (item : Value) (among : item ∈ items) :
          (encode item).length < (encode (.sequence kind items)).length := by
        have part := encode_length_le_encodeItems items item among
        rw [encode, List.length_append]
        omega
      obtain ⟨item, among, deeper⟩ : ∃ item ∈ items, levels ≤ item.nesting := by
        by_contra! shallow
        have inside := (Value.nestingOfItems_le_iff items levels).mpr shallow
        rw [Value.nesting] at deep
        omega
      rw [encode, List.length_append] at addressable
      refine refuses_read_tag (refuses_read_sequence (by omega) ?_ ⟨item, among, ?_⟩)
      · exact fun item among => settled item (formed item among) (shorter item among)
      · exact refused item (formed item among) deeper (shorter item among)
    | polynomial p =>
      obtain ⟨⟩ := formed
      rename_i names terms aligned formed
      have length := length_lt_counted (encodePolynomial ⟨names, terms⟩)
      have shorter (term : Term Value) (among : term ∈ terms) :
          (encode term.factor).length < (encode (.polynomial ⟨names, terms⟩)).length := by
        have part := encode_length_le_encodePolynomial names terms term among
        rw [encode, List.length_append]
        omega
      obtain ⟨term, among, deeper⟩ : ∃ term ∈ terms, levels ≤ term.factor.nesting := by
        by_contra! shallow
        have inside := (Value.nestingOfTerms_le_iff terms levels).mpr shallow
        rw [Value.nesting, Value.nestingOfPolynomial] at deep
        omega
      rw [encode, List.length_append] at addressable
      refine refuses_read_tag (refuses_read_polynomial (by omega) aligned ?_ ⟨term, among, ?_⟩)
      · exact fun term among => settled term.factor (formed term among) (shorter term among)
      · exact refused term.factor (formed term among) deeper (shorter term among)
    | unit value items =>
      obtain ⟨⟩ := formed
      rename_i formedValue formedItems
      rw [Value.nesting] at deep
      rw [encode, encode_expression, List.length_append, List.length_append, tagBytes_length]
        at refused taken
      rw [encode, encode_expression, List.append_assoc]
      refine refuses_read_tag ?_
      rcases Nat.lt_or_ge value.nesting levels with shallow | deeper
      · have read := taken value formedValue shallow (by omega)
        have tooDeep := refused (.sequence .expression items) (.sequence _ _ formedItems)
          (by rw [Value.nesting]; omega) (by omega)
        exact refuses_bind read (tooDeep.bind _)
      · exact ((refused value formedValue deeper (by omega)).append _).bind _

/-- A value that nests deeper than decoding goes is refused, whatever follows its encoding. -/
theorem decode_encode_deep (value : Value) (suffix : List UInt8) (formed : value.WellFormed)
    (deep : deepestLevel < value.nesting) (addressable : Addressable value) :
    decode (encode value ++ suffix) = .error .nestingTooDeep := by
  rw [decode, refuses_read (deepestLevel + 1) value formed deep addressable suffix]
  rfl

end Calculator.Encoding
