import Calculator.Console
import Calculator.Proofs.Machine.Evaluation
import Calculator.Proofs.Source.Lines
import Calculator.Proofs.Source.Places
import Mathlib

/-!
# Reports on lines that cannot be read

The fault of a line that cannot be read lies in the line, so there is something to point to. A report
marks a character even where the span of the fault is empty, though, and behind the last character
there is none. So a line cannot be reported on just if its fault is that something is missing at its
end, and then the session is broken off.
-/

namespace Calculator.Console

open Source (readLine readObject)

variable {line : String} {fault : Fault} {span : Span}

/-- All of what a report marks of a fault in a line is there, unless the fault is at the end of the
line. -/
theorem isReportable_eq_false (inside : span.LiesIn line) (there : fault.span? = some span) :
    isReportable line fault = false ↔ span = ⟨line.utf8ByteSize, 0⟩ := by
  obtain ⟨offset, length⟩ := span
  have stop : offset + length ≤ line.utf8ByteSize := inside.stop.le
  rw [isReportable, there, decide_eq_false_iff_not, Span.mk.injEq]
  simp only [Span.stop]
  omega

/-- A line that cannot be read fails with its fault, and breaks the session off if this cannot be
reported. -/
theorem calculate_unreadable (levels : ℕ) {machine : Machine}
    (failed : readLine line machine.settings.toPreferences = .error fault) :
    (calculate levels machine line).fault = some fault ∧
      ((calculate levels machine line).course = .breakOff ↔ isReportable line fault = false) := by
  have read (machine : Machine) (same : readLine line machine.settings.toPreferences = .error fault) :
      Machine.enact (Machine.performLine line) machine = (.error fault, machine) := by
    unfold Machine.performLine
    rw [Machine.enact_preferences_bind, same]
    rfl
  have run := Link.enact_run line machine
  rw [read { machine with retained := machine.stack.reverse ++ machine.retained } failed] at run
  change (Machine.run line).run.run machine = _ at run
  rw [calculate, run]
  dsimp only
  split_ifs with reportable
  · exact ⟨rfl, by simp [reportable]⟩
  · exact ⟨rfl, by simpa using reportable⟩

/-- The fault of a line, or of a text of which a value is to be read, lies in what was read and does
not cut through its characters. The range that a report marks ends behind the line, which breaks the
session off, just if the fault is at the end of the line. -/
theorem unreadable_located (source : String) (settings : Preferences) (kind : Option SequenceKind)
    (precedence : Precedence) (fault : Fault) (span : Span)
    (failed : readLine source settings = .error fault ∨
      readObject source settings kind precedence = .error fault)
    (there : fault.span? = some span) :
    span.offset + span.length ≤ source.utf8ByteSize ∧
      IsBoundary source span.offset ∧ IsBoundary source (span.offset + span.length) ∧
      (isReportable source fault = false ↔ span = ⟨source.utf8ByteSize, 0⟩) ∧
      ∀ levels machine, machine.settings.toPreferences = settings →
        readLine source settings = .error fault →
          ((calculate levels machine source).course = .breakOff ↔
            span = ⟨source.utf8ByteSize, 0⟩) := by
  have inside : span.LiesIn source := by
    rcases failed with line | object
    · exact Source.liesIn_of_readLine line span there
    · exact Source.liesIn_of_readObject object span there
  have reported := isReportable_eq_false inside there
  refine ⟨inside.stop.le, inside.start, inside.stop, reported, ?_⟩
  rintro levels machine rfl unreadable
  exact (calculate_unreadable levels unreadable).2.trans reported

/-- The end of a program is missing in a line of three bytes. Its fault is the whole line, which can
be reported. -/
theorem unreadable_located_program :
    readLine "«1" {} = .error (.unterminated .program ⟨0, 3⟩) ∧ IsBoundary "«1" 3 ∧
      (calculate 4 (Machine.start {}) "«1").course ≠ .breakOff := by
  have text : "«1" = Token.textOf ([Token.openProgram, .number "1"].map (⟨false, ·⟩)) := by
    with_unfolding_all rfl
  have failed : readLine "«1" {} = .error (.unterminated .program ⟨0, 3⟩) := by
    rw [text, Source.readLine_spans (Source.legible_of_isPlainRow (by with_unfolding_all decide))]
    with_unfolding_all rfl
  obtain ⟨-, -, stop, -, course⟩ :=
    unreadable_located "«1" {} none 0 _ ⟨0, 3⟩ (.inl failed) rfl
  refine ⟨failed, stop, fun breaks => ?_⟩
  exact absurd ((course 4 (Machine.start {}) rfl failed).mp breaks) (by decide)

/-- A line that ends behind an operator cannot be reported on: what would be marked ends behind the
line, and the session is broken off. -/
theorem unreadable_unreportable :
    readLine "'1+" {} = .error (.argumentExpected ⟨3, 0⟩) ∧
      isReportable "'1+" (.argumentExpected ⟨3, 0⟩) = false ∧
      (respond 4 (Machine.start {}) "'1+").course = .breakOff := by
  have text : "'1+" =
      Token.textOf ([Token.quote, .number "1", .operator .add].map (⟨false, ·⟩)) := by
    with_unfolding_all rfl
  have failed : readLine "'1+" {} = .error (.argumentExpected ⟨3, 0⟩) := by
    rw [text, Source.readLine_spans (Source.legible_of_isPlainRow (by with_unfolding_all decide))]
    with_unfolding_all rfl
  have reported : isReportable "'1+" (.argumentExpected ⟨3, 0⟩) = false := by decide +kernel
  have trimmed : String.ofList (Text.trimBlanks "'1+".toList) = "'1+" := by decide +kernel
  have calculated : respond 4 (Machine.start {}) "'1+" = calculate 4 (Machine.start {}) "'1+" := by
    rw [respond, trimmed]
    simp
  have unread : readLine "'1+" (Machine.start {}).settings.toPreferences =
      .error (.argumentExpected ⟨3, 0⟩) := failed
  refine ⟨failed, reported, ?_⟩
  rw [calculated]
  exact (calculate_unreadable 4 unread).2.mpr reported

end Calculator.Console
