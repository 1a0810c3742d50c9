import Calculator.Proofs.Encoding.Leb128
import Mathlib

/-!
# When a number can be read

Reading looks at one byte after the other and refuses a group by its place alone. Compared with the
number that the groups stand for, this refuses every number that does not fit a word, and no other one
within ten groups. Groups of zero above a number do not change it and are accepted up to the tenth
group; from the eleventh on they are refused, although the number still fits.
-/

namespace Calculator.Leb128

/-- The number that a row of groups stands for, the least significant group first. -/
def total (groups : List UInt8) : ℕ := Nat.ofDigits 128 (groups.map fun byte => byte.toNat % 128)

/-- The groups of one number: the last byte has no high bit, and all bytes before it have one. -/
inductive Ended : List UInt8 → Prop where
  | last (byte : UInt8) (low : byte < 0x80) : Ended [byte]
  | further (byte : UInt8) (groups : List UInt8) (high : ¬ byte < 0x80) (others : Ended groups) :
      Ended (byte :: groups)

/-- A number has at least one group. -/
theorem Ended.length_pos {groups : List UInt8} (ended : Ended groups) : 0 < groups.length := by
  cases ended <;> simp

/-- Groups of zero may be put before the groups of a number. -/
theorem ended_superfluous (count : ℕ) {groups : List UInt8} (ended : Ended groups) :
    Ended (List.replicate count 0x80 ++ groups) := by
  induction count with
  | zero => exact ended
  | succ count inductionHypothesis => exact .further _ _ (by decide) inductionHypothesis

/-- The lowest group counts once, and all that is above it 128 times. -/
theorem total_cons (byte : UInt8) (groups : List UInt8) :
    total (byte :: groups) = byte.toNat % 128 + 128 * total groups := by
  simp [total, Nat.ofDigits_cons]

/-- A single group stands for itself. -/
theorem total_singleton (byte : UInt8) : total [byte] = byte.toNat % 128 := by
  simp [total]

/-- Either all bytes have their high bit set, or the groups of a number stand in front. -/
theorem exists_ended (bytes : List UInt8) :
    (∀ byte ∈ bytes, ¬ byte < 0x80) ∨ ∃ groups rest, bytes = groups ++ rest ∧ Ended groups := by
  induction bytes with
  | nil => exact .inl (by simp)
  | cons byte bytes inductionHypothesis =>
    by_cases low : byte < 0x80
    · exact .inr ⟨[byte], bytes, rfl, .last byte low⟩
    · cases inductionHypothesis with
      | inl high => exact .inl (List.forall_mem_cons.mpr ⟨low, high⟩)
      | inr found =>
        obtain ⟨groups, rest, rfl, ended⟩ := found
        exact .inr ⟨byte :: groups, rest, rfl, .further byte groups low ended⟩

/-- Nothing is read from bytes that all have their high bit set. -/
theorem readOnto_open (value : UInt64) (shift : ℕ) (bytes : List UInt8)
    (high : ∀ byte ∈ bytes, ¬ byte < 0x80) : (readOnto value shift bytes).1 = none := by
  induction bytes generalizing value shift with
  | nil => rfl
  | cons byte bytes inductionHypothesis =>
    obtain ⟨first, others⟩ := List.forall_mem_cons.mp high
    by_cases admitted : Admitted shift byte
    · rw [readOnto_admitted admitted, if_neg first]
      exact inductionHypothesis _ _ others
    · rw [readOnto_refused admitted]

/-- Reading a group on top of the bits read so far adds it to what the groups above it amount to. -/
theorem accumulate_total {value : UInt64} {shift : ℕ} {byte : UInt8} (aligned : shift % 7 = 0)
    (below : value.toNat < 2 ^ shift) (admitted : Admitted shift byte) (groups : List UInt8) :
    (accumulate value shift byte).toNat + total groups * 2 ^ (shift + 7) =
      value.toNat + total (byte :: groups) * 2 ^ shift := by
  rw [accumulate_value aligned below admitted, total_cons, Nat.pow_add]
  ring

/-- Up to the tenth group of a word a number that fits the word is read. -/
theorem readOnto_ended {groups : List UInt8} (ended : Ended groups) (rest : List UInt8)
    (value : UInt64) (shift : ℕ) (aligned : shift % 7 = 0) (below : value.toNat < 2 ^ shift)
    (few : shift + 7 * groups.length ≤ 70)
    (fits : value.toNat + total groups * 2 ^ shift < 2 ^ 64) :
    readOnto value shift (groups ++ rest) =
      (some (UInt64.ofNat (value.toNat + total groups * 2 ^ shift)), rest) := by
  induction ended generalizing value shift with
  | last byte low =>
    have admitted : Admitted shift byte := by
      rw [total_singleton, ← group_value] at fits
      refine ⟨by simpa using few, ?_⟩
      rintro rfl
      omega
    have sum : (accumulate value shift byte).toNat = value.toNat + total [byte] * 2 ^ shift := by
      rw [accumulate_value aligned below admitted, total_singleton]
    rw [List.singleton_append, readOnto_admitted admitted, if_pos low, ← sum, UInt64.ofNat_toNat]
  | further byte groups high others inductionHypothesis =>
    have positive := others.length_pos
    rw [List.length_cons] at few
    have admitted : Admitted shift byte := ⟨by omega, fun top => by omega⟩
    have sum := accumulate_total aligned below admitted groups
    rw [List.cons_append, readOnto_admitted admitted, if_neg high,
      inductionHypothesis _ (shift + 7) (by omega) (accumulate_below aligned below admitted)
        (by omega) (sum ▸ fits), sum]

/-- What is read of the groups of a number lies within the tenth group and fits the word. -/
theorem bounds_of_readOnto {groups rest left : List UInt8} (ended : Ended groups)
    {value result : UInt64} {shift : ℕ} (aligned : shift % 7 = 0) (below : value.toNat < 2 ^ shift)
    (successful : readOnto value shift (groups ++ rest) = (some result, left)) :
    shift + 7 * groups.length ≤ 70 ∧ value.toNat + total groups * 2 ^ shift < 2 ^ 64 := by
  induction ended generalizing value shift with
  | last byte low =>
    by_cases admitted : Admitted shift byte
    · have sum := accumulate_value aligned below admitted
      have word := (accumulate value shift byte).toNat_lt
      have inside := admitted.1
      rw [total_singleton, List.length_singleton]
      exact ⟨by omega, by omega⟩
    · rw [List.singleton_append, readOnto_refused admitted] at successful
      simp at successful
  | further byte groups high others inductionHypothesis =>
    by_cases admitted : Admitted shift byte
    · rw [List.cons_append, readOnto_admitted admitted, if_neg high] at successful
      have next : (shift + 7) % 7 = 0 := by omega
      obtain ⟨few, fits⟩ :=
        inductionHypothesis next (accumulate_below aligned below admitted) successful
      rw [accumulate_total aligned below admitted] at fits
      rw [List.length_cons]
      exact ⟨by omega, fits⟩
    · rw [List.cons_append, readOnto_refused admitted] at successful
      simp at successful

/-- The groups of a number are read exactly if there are at most ten and the number fits a word; then
reading gives the number and leaves what follows the groups. -/
theorem read_ended {groups : List UInt8} (ended : Ended groups) (rest : List UInt8) :
    (groups.length ≤ 10 → total groups < 2 ^ 64 →
      read (groups ++ rest) = (some (UInt64.ofNat (total groups)), rest)) ∧
    ((read (groups ++ rest)).1 = none ↔ 10 < groups.length ∨ 2 ^ 64 ≤ total groups) := by
  have readable (few : groups.length ≤ 10) (fits : total groups < 2 ^ 64) :
      read (groups ++ rest) = (some (UInt64.ofNat (total groups)), rest) := by
    have whole := readOnto_ended ended rest 0 0 rfl (by decide) (by omega) (by simpa using fits)
    simpa [read] using whole
  refine ⟨readable, ?_⟩
  constructor
  · intro refused
    by_contra both
    rw [readable (by omega) (by omega)] at refused
    simp at refused
  · intro excess
    cases outcome : read (groups ++ rest) with
    | mk result left =>
      cases result with
      | none => rfl
      | some result =>
        have start : (0 : UInt64).toNat < 2 ^ 0 := by decide
        obtain ⟨few, fits⟩ := bounds_of_readOnto ended rfl start outcome
        simp only [UInt64.toNat_zero, Nat.pow_zero] at fits
        omega

/-- When a number is read, and which one. Nothing is read exactly if no byte is without the high bit, or
the number up to the first such byte does not fit a word, or there are more than ten bytes up to it.
Otherwise reading gives that number, whether or not its upper groups are zero, and leaves what follows
the byte. -/
theorem read_decided (bytes : List UInt8) :
    ((read bytes).1 = none ↔
      (∀ byte ∈ bytes, ¬ byte < 0x80) ∨
        ∃ groups rest, bytes = groups ++ rest ∧ Ended groups ∧
          (2 ^ 64 ≤ total groups ∨ 10 < groups.length)) ∧
    (∀ groups rest, bytes = groups ++ rest → Ended groups → total groups < 2 ^ 64 →
      groups.length ≤ 10 → read bytes = (some (UInt64.ofNat (total groups)), rest)) := by
  constructor
  · constructor
    · intro refused
      cases exists_ended bytes with
      | inl high => exact .inl high
      | inr found =>
        obtain ⟨groups, rest, rfl, ended⟩ := found
        exact .inr ⟨groups, rest, rfl, ended, ((read_ended ended rest).2.mp refused).symm⟩
    · rintro (high | ⟨groups, rest, rfl, ended, excess⟩)
      · exact readOnto_open 0 0 bytes high
      · exact (read_ended ended rest).2.mpr excess.symm
  · rintro groups rest rfl ended fits few
    exact (read_ended ended rest).1 few fits

/-- Three hundred is read from ten bytes, of which the upper eight hold groups of zero. -/
theorem read_decided_superfluous :
    let groups : List UInt8 := 0xAC :: 0x82 :: (List.replicate 7 0x80 ++ [0x00])
    Ended groups ∧ total groups < 2 ^ 64 ∧ groups.length ≤ 10 ∧
      read (groups ++ [0x07]) = (some 300, [0x07]) := by
  intro groups
  have ended : Ended groups :=
    .further _ _ (by decide) (.further _ _ (by decide) (ended_superfluous 7 (.last _ (by decide))))
  have fits : total groups < 2 ^ 64 := by decide
  have few : groups.length ≤ 10 := by decide
  exact ⟨ended, fits, few, (read_decided (groups ++ [0x07])).2 groups [0x07] rfl ended fits few⟩

/-- Zero is not read from eleven bytes, although it fits a word. -/
theorem read_superfluous_refused :
    let groups : List UInt8 := List.replicate 10 0x80 ++ [0x00]
    Ended groups ∧ total groups = 0 ∧ read groups = (none, []) := by
  intro groups
  exact ⟨ended_superfluous 10 (.last _ (by decide)), by decide, by decide⟩

end Calculator.Leb128
