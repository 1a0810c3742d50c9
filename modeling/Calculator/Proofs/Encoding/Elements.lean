import Calculator.Proofs.Encoding.Reading
import Mathlib

/-!
# Going through a payload

The elements of a payload are asked for one after the other. An element that is found takes at least one
byte off the front, and it has the size of its own bytes, whatever stood behind them. So as many
questions as there are bytes are enough to come to the end of the payload or to a malformed element. At
the end there is nothing from then on. A malformed element is not passed over: whoever asks again gets
the same reason, without end.
-/

namespace Calculator.Encoding

/-! ## The bytes of one element -/

/-- The bytes of one encoded value: there are some, and passing over the value takes exactly them, with
as many levels as there are bytes. -/
structure Spans (element : List UInt8) : Prop where
  nonempty : element ≠ []
  passed : ∀ levels, element.length ≤ levels → Accepts (skipWithin levels) element ()

/-- Passing over a payload takes bytes that the tag announces, if passing over a value takes those of a
value. The values inside need no more levels than there are bytes. -/
theorem reads_skipPayload {skip : Reader Unit} (inner : Reads skip fun used _ => Spans used)
    (tag : Tag) :
    Reads (skipPayload skip tag) fun used _ =>
      ∀ levels, used.length ≤ levels → Accepts (skipPayload (skipWithin levels) tag) used () := by
  -- A payload without values inside is passed over in the same way for any number of levels.
  have flat {reader : Reader Unit} (reads : Reads reader fun _ _ => True) :
      Reads reader fun used _ => ∀ levels, used.length ≤ levels → Accepts reader used () :=
    reads.mono fun _ _ taken _ _ _ => taken
  have both {first second : Reader Unit} (front : Reads first fun _ _ => True)
      (back : Reads second fun _ _ => True) : Reads (do first; second) fun _ _ => True :=
    reads_bind front fun _ _ _ _ => back
  have pair : Reads (do skip; skip) fun used _ => ∀ levels, used.length ≤ levels →
      Accepts (do skipWithin levels; skipWithin levels) used () := by
    refine reads_bind inner fun front _ _ first => inner.mono fun back _ _ second => ?_
    intro levels enough
    rw [List.length_append] at enough
    exact accepts_after (first.passed levels (by omega)) (second.passed levels (by omega))
  have number := reads_discard reads_number
  have counted := reads_discard reads_counted
  cases tag with
  | integer | negativeInteger => exact flat number
  | fraction | negativeFraction => exact flat (both number number)
  | wideFraction | negativeWideFraction => exact flat (both counted counted)
  | decimal32 | decimal64 | decimal128 => exact flat (both number counted)
  | rectangular | polar | unit => exact pair
  | wide | negativeWide | symbol | text | list | array | program | expression | polynomial =>
    exact flat counted

/-- Passing over a value takes the bytes of one. -/
theorem reads_spans (levels : ℕ) : Reads (skipWithin levels) fun used _ => Spans used := by
  induction levels with
  | zero => exact reads_throw _ _
  | succ levels inductionHypothesis =>
    refine reads_bind reads_number fun front number taken enough => ?_
    have positive : 0 < front.length := Nat.lt_of_lt_of_le (Leb128.write_length_pos _) enough
    dsimp only
    split
    · rename_i above
      refine reads_pure _ _ ?_
      rw [List.append_nil]
      refine ⟨List.length_pos_iff.mp positive, fun fuel covered => ?_⟩
      obtain ⟨fuel, rfl⟩ := Nat.exists_eq_succ_of_ne_zero (show fuel ≠ 0 by omega)
      rw [skipWithin]
      refine accepts_last taken ?_
      rw [if_pos above]
      exact accepts_pure ()
    · rename_i below
      split
      · rename_i tag found
        refine (reads_skipPayload inductionHypothesis tag).mono fun back _ _ passed => ?_
        refine ⟨by simp [List.length_pos_iff.mp positive], fun fuel covered => ?_⟩
        obtain ⟨fuel, rfl⟩ := Nat.exists_eq_succ_of_ne_zero
          (show fuel ≠ 0 by rw [List.length_append] at covered; omega)
        rw [List.length_append] at covered
        rw [skipWithin]
        refine accepts_bind taken ?_
        simp only [if_neg below, found]
        exact passed fuel (by omega)
      · exact reads_throw _ _

/-- The bytes of a value have their own number as its size. -/
theorem Spans.size_eq {element : List UInt8} (spans : Spans element) :
    size element = .ok element.length := by
  have whole := spans.passed element.length le_rfl []
  rw [List.append_nil] at whole
  simp [size, whole]

/-! ## Asking for elements -/

/-- What is answered when the next element of a payload is asked for: nothing at the end, the bytes of a
value off the front, or the reason why there is none, in which case the payload stays as it is. -/
theorem nextElement?_cases (payload : List UInt8) :
    (payload = [] ∧ nextElement? payload = none) ∨
      (∃ element rest, payload = element ++ rest ∧ Spans element ∧
        nextElement? payload = some (.ok element, rest)) ∨
      (payload ≠ [] ∧ ∃ reason, nextElement? payload = some (.error reason, payload)) := by
  by_cases empty : payload = []
  · subst empty
    exact .inl ⟨rfl, rfl⟩
  · right
    rw [nextElement?, if_neg (by simpa using empty), Reader.element]
    cases passed : skipWithin payload.length payload with
    | error reason => exact .inr ⟨empty, reason, rfl⟩
    | ok outcome =>
      obtain ⟨⟨⟩, rest⟩ := outcome
      obtain ⟨element, rfl, -, spans⟩ := reads_spans _ payload () rest passed
      refine .inl ⟨element, rest, rfl, spans, ?_⟩
      simp

/-- What is answered when the next element is asked for so many times, each time of what the time before
has left. -/
def answers : ℕ → List UInt8 → List (Option (Except Malformation (List UInt8)))
  | 0, _ => []
  | asked + 1, payload =>
    match nextElement? payload with
    | none => none :: answers asked payload
    | some (item, rest) => some item :: answers asked rest

/-- At the end of a payload there is nothing each time. -/
theorem answers_nil (asked : ℕ) : answers asked [] = List.replicate asked none := by
  induction asked with
  | zero => rfl
  | succ asked inductionHypothesis =>
    rw [answers, List.replicate_succ, ← inductionHypothesis]
    rfl

/-- At a malformed element the same reason is given each time. -/
theorem answers_error {payload : List UInt8} {reason : Malformation}
    (malformed : nextElement? payload = some (.error reason, payload)) (asked : ℕ) :
    answers asked payload = List.replicate asked (some (.error reason)) := by
  induction asked with
  | zero => rfl
  | succ asked inductionHypothesis =>
    rw [answers, malformed, List.replicate_succ, ← inductionHypothesis]

/-- How the elements of a payload lie in it, with what is left behind them: the end of the payload, or a
malformed element, for the given reason. -/
structure Divided (payload : List UInt8) (found : List (List UInt8)) (reason : Option Malformation)
    (rest : List UInt8) : Prop where
  whole : payload = found.flatten ++ rest
  spans : ∀ element ∈ found, Spans element
  complete : reason = none → rest = []
  few : found.length + reason.toList.length ≤ payload.length
  answered : ∀ asked, answers (found.length + asked) payload =
    found.map (fun element => some (.ok element)) ++ List.replicate asked (reason.map .error)

/-- As many steps as there are bytes divide a payload into its elements. -/
theorem exists_divided (steps : ℕ) (payload : List UInt8) (enough : payload.length ≤ steps) :
    ∃ rest, Divided payload (elementsWithin steps payload).1 (elementsWithin steps payload).2 rest := by
  induction steps generalizing payload with
  | zero =>
    obtain rfl : payload = [] := List.length_eq_zero_iff.mp (by omega)
    exact ⟨[], rfl, by simp [elementsWithin], fun _ => rfl, by simp [elementsWithin],
      fun asked => by simpa [elementsWithin] using answers_nil asked⟩
  | succ steps inductionHypothesis =>
    rcases nextElement?_cases payload with
      ⟨rfl, next⟩ | ⟨element, rest, rfl, spans, next⟩ | ⟨nonempty, reason, next⟩
    · refine ⟨[], ?_⟩
      rw [elementsWithin, next]
      exact ⟨rfl, by simp, fun _ => rfl, by simp, fun asked => by simpa using answers_nil asked⟩
    · have positive := List.length_pos_iff.mpr spans.nonempty
      rw [List.length_append] at enough
      obtain ⟨left, divided⟩ := inductionHypothesis rest (by omega)
      refine ⟨left, ?_⟩
      rw [elementsWithin, next]
      dsimp only
      refine ⟨?_, List.forall_mem_cons.mpr ⟨spans, divided.spans⟩, divided.complete, ?_, ?_⟩
      · rw [List.flatten_cons, List.append_assoc, ← divided.whole]
      · have few := divided.few
        rw [List.length_cons, List.length_append]
        omega
      · intro asked
        rw [List.length_cons, Nat.succ_add, answers, next, List.map_cons, List.cons_append,
          ← divided.answered asked]
    · refine ⟨payload, ?_⟩
      rw [elementsWithin, next]
      have positive := List.length_pos_iff.mpr nonempty
      exact ⟨rfl, by simp, by simp, by simpa using Nat.succ_le_of_lt positive,
        fun asked => by simpa using answers_error next asked⟩

/-- Going through a payload comes to an end or to a malformed element. What is answered first are
elements, of which each has at least one byte and the size of its own bytes; then there is nothing from
then on, or the same reason from then on. Together with a reason there are no more items than bytes. In
a row the elements are what the payload begins with, and all of it if there is no reason. -/
theorem elements_answered (payload : List UInt8) :
    ∃ found reason, elements payload = (found, reason) ∧
      found.length + reason.toList.length ≤ payload.length ∧
      (∀ element ∈ found, element ≠ [] ∧ size element = .ok element.length) ∧
      found.flatten <+: payload ∧ (reason = none → found.flatten = payload) ∧
      ∀ asked, answers (found.length + asked) payload =
        found.map (fun element => some (.ok element)) ++ List.replicate asked (reason.map .error) := by
  obtain ⟨rest, divided⟩ := exists_divided payload.length payload le_rfl
  refine ⟨_, _, rfl, divided.few, ?_, ?_, ?_, divided.answered⟩
  · intro element among
    have spans := divided.spans element among
    exact ⟨spans.nonempty, spans.size_eq⟩
  · exact ⟨rest, divided.whole.symm⟩
  · intro complete
    have whole := divided.whole
    rw [divided.complete complete, List.append_nil] at whole
    exact whole.symm

/-- An integer, a command and a text, and nothing behind them. -/
theorem elements_answered_three :
    let payload : List UInt8 := [0x01, 0x05, 0x6C, 0x11, 0x01, 0x61]
    let found : List (List UInt8) := [[0x01, 0x05], [0x6C], [0x11, 0x01, 0x61]]
    elements payload = (found, none) ∧ [0x11, 0x01, 0x61] ∈ found ∧
      size [0x11, 0x01, 0x61] = .ok 3 ∧ found.flatten = payload ∧
      answers 5 payload = found.map (fun element => some (.ok element)) ++ [none, none] := by
  intro payload found
  have through : elements payload = (found, none) := by decide
  have among : [0x11, 0x01, 0x61] ∈ found := by decide
  obtain ⟨_, _, divided, -, proper, -, complete, asked⟩ := elements_answered payload
  obtain ⟨rfl, rfl⟩ := Prod.mk.inj (divided.symm.trans through)
  exact ⟨through, among, (proper _ among).2, complete rfl, asked 2⟩

/-- A single malformed byte gives two items if it is asked for twice, and the answers never come to an
end. -/
theorem answers_endless :
    answers 2 [0x80] = [some (.error .truncatedNumber), some (.error .truncatedNumber)] ∧
      ¬ ∃ asked, none ∈ answers asked [0x80] := by
  have malformed : nextElement? [0x80] = some (.error .truncatedNumber, [0x80]) := by decide
  refine ⟨answers_error malformed 2, ?_⟩
  rintro ⟨asked, among⟩
  rw [answers_error malformed asked, List.mem_replicate] at among
  exact Option.some_ne_none _ among.2.symm

end Calculator.Encoding
