import Calculator.Proofs.Source.Tokens
import Calculator.Render

/-!
# Spellings of commands

The usual spelling of a command is one token, a sign or a name, and the command is found by it.
-/

namespace Calculator

namespace Token

/-- A Latin letter, or an arrow, with Latin letters and digits behind it is a name. -/
theorem isName_of_latin {first : Char} {others : List Char}
    (begins : first.isAlpha = true ∨ first = '→') (continues : others.all Char.isAlphanum = true) :
    isName (first :: others) = true := by
  have letters : others.all continuesName = true := by
    rw [List.all_eq_true] at continues ⊢
    intro character member
    have latin := continues character member
    have other : character ≠ 'Ⓟ' := by
      rintro rfl
      exact absurd latin (by decide)
    rw [Char.isAlphanum, Bool.or_eq_true] at latin
    rcases latin with letter | digit
    · simp [continuesName, Text.isAlphabetic, other, letter]
    · have digit : Decimal.isDigit character = true := digit
      simp [continuesName, other, digit]
  have first : beginsName first = true ∧ first ≠ '-' := by
    rcases begins with letter | rfl
    · have other : first ≠ 'Ⓟ' ∧ first ≠ '-' := by
        constructor <;> rintro rfl <;> exact absurd letter (by decide)
      simp [beginsName, Text.isAlphabetic, other, letter]
    · simp [beginsName]
  simp [isName, first, letters]

end Token

namespace Command

/-- Whether a command is spelled with a sign. -/
def isSign : Command → Bool
  | add | subtract | multiply | divide | power | factorial | equation | same | notEqual | less
  | lessOrEqual | greater | greaterOrEqual | whereBound => true
  | _ => false

/-- The token that a command is spelled with. -/
def token (command : Command) : Token :=
  if command.isSign then .operator command else .name command.name

/-- The token of a command that is written in front of its operand. -/
def prefixToken (command : Command) : Token :=
  if command = .negate then .operator .subtract else .name command.name

/-- Every command is found by its usual spelling. -/
theorem lookup?_name (command : Command) : lookup? command.name = some command := by
  have every : ∀ command ∈ all, lookup? command.name = some command := by decide +kernel
  exact every command (by cases command <;> decide)

/-- A command is spelled with the wording of its token. -/
theorem message_token (command : Command) : command.token.message = command.name := by
  cases command <;> rfl

/-- A command that is no sign is spelled with a name. -/
theorem isName_name {command : Command} (name : command.isSign = false) :
    Token.isName command.name.toList = true := by
  cases command <;> simp only [isSign, reduceCtorEq] at name
  all_goals
    simp only [Command.name, entry, String.reduceToList]
    exact Token.isName_of_latin (by decide) (by decide)

/-- A function or an operator in front of its operand is spelled with a name. -/
theorem isSign_eq_false {command : Command}
    (fixity : command.fixity = .function ∨ command.fixity = .prefixed) :
    command.isSign = false := by
  cases command <;> first | rfl | simp [Command.fixity, entry] at fixity

/-- The mark of a factorial is the only sign that stands behind its operand. -/
theorem eq_factorial {command : Command} (sign : command.isSign = true)
    (fixity : command.fixity = .postfixed) : command = .factorial := by
  cases command <;> simp_all [isSign, Command.fixity, entry]

/-- The token of a command is spelled as it is worded. -/
theorem spelled_token (command : Command) : command.token.Spelled := by
  unfold token
  split
  · rename_i sign
    cases command <;> simp_all [isSign, Token.Spelled]
  · rename_i name
    exact isName_name (Bool.eq_false_iff.mpr name)

/-- A command has a letter or a digit in its spelling if it is spelled with a name. -/
theorem hasLetter_name (command : Command) :
    Render.hasLetter command.name = !command.isSign := by
  cases sign : command.isSign
  · cases command <;> simp only [isSign, reduceCtorEq] at sign
    all_goals simp [Render.hasLetter, Command.name, entry, Text.isAlphabetic]
  · have signs : ∀ character ∈ command.name.toList, character ∈ Token.symbols ∧ character ≠ 'Ⓟ' := by
      cases command <;> simp_all [isSign, Command.name, entry, Token.symbols]
    rw [Render.hasLetter, List.any_eq_not_all_not, Bool.not_true, Bool.not_eq_false']
    rw [List.all_eq_true]
    intro character member
    obtain ⟨symbol, other⟩ := signs character member
    have letter := (Token.symbols_alphabetic character symbol).resolve_left other
    have digit : Decimal.isDigit character = false := (Token.symbols_separate character symbol).2.1
    have digit : character.isDigit = false := digit
    simp [letter, digit]

/-- The token of an operator in front of its operand is spelled as it is worded. -/
theorem spelled_prefixToken {command : Command} (fixity : command.fixity = .prefixed) :
    command.prefixToken.Spelled := by
  unfold prefixToken
  split
  · simp [Token.Spelled]
  · exact isName_name (isSign_eq_false (.inr fixity))

end Command

end Calculator
