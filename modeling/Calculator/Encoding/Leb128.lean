import Calculator.Number.Digits

/-!
# Variable-length integers

Unsigned integers in groups of seven bits, the least significant group first; every byte
but the last has its high bit set. Tags, lengths and small magnitudes are written this
way. Reading accepts superfluous groups of zero as long as they lie within the ten
groups that a 64-bit word can need.

Signed integers are first mapped to unsigned ones so that small magnitudes stay short,
whatever their sign.
-/

namespace Calculator.Leb128

/-- Writes a number. -/
def write (number : Nat) : List UInt8 :=
  if number < 128 then [UInt8.ofNat number]
  else UInt8.ofNat (number % 128 + 128) :: write (number / 128)
termination_by number

/-- Hands the bytes of a word to an encoder one after the other, and counts them on from a number. -/
def emit {State : Type} (encoder : State → List UInt8 → State) (state : State) (size : Nat)
    (value : UInt64) : State × Nat :=
  let group := (value &&& 0x7F).toUInt8
  let rest := value >>> 7
  if last : rest = 0 then (encoder state [group], size + 1)
  else emit encoder (encoder state [group ||| 0x80]) (size + 1) rest
termination_by value.toNat
decreasing_by
  have shifted : (value >>> 7).toNat = value.toNat >>> 7 := UInt64.toNat_shiftRight value 7
  have positive : (value >>> 7).toNat ≠ 0 := fun zero => last (UInt64.toNat_inj.mp zero)
  rw [Nat.shiftRight_eq_div_pow] at shifted
  omega

/-- The number of bytes that a word is written in: one for every seven binary digits. -/
def size (number : UInt64) : Nat :=
  if number = 0 then 1 else (Digits.binaryCount number.toNat + 6) / 7

/-- Reads the groups that follow, given the bits read so far and their number. The result
is missing if the bytes end too early or the number does not fit a word; the bytes that
are left are those behind the last one looked at. -/
def readOnto (value : UInt64) (shift : Nat) : List UInt8 → Option UInt64 × List UInt8
  | [] => (none, [])
  | byte :: rest =>
    let group := byte &&& 0x7F
    if 63 < shift || (shift == 63 && 1 < group) then (none, rest)
    else
      let value := value ||| (group.toUInt64 <<< UInt64.ofNat shift)
      if byte < 0x80 then (some value, rest) else readOnto value (shift + 7) rest

/-- Reads one number from the front of a row of bytes. -/
def read (bytes : List UInt8) : Option UInt64 × List UInt8 := readOnto 0 0 bytes

/-- Maps signed words to unsigned ones: 0, -1, 1, -2 and so on become 0, 1, 2, 3. -/
def zigzag (value : Int64) : UInt64 := ((value <<< 1) ^^^ (value >>> 63)).toUInt64

/-- The signed word that `zigzag` maps to a given unsigned one. -/
def unzigzag (value : UInt64) : Int64 := (value >>> 1).toInt64 ^^^ -((value &&& 1).toInt64)

end Calculator.Leb128
