import Calculator.Encoding.Reader
import Calculator.Proofs.Encoding.Bytes
import Calculator.Proofs.Encoding.Leb128
import Mathlib

/-!
# What readers take

Two ways to say what a reader does, and how they carry over from the parts of a reader to the
whole. That a reader accepts some bytes means that it takes exactly them off the front,
whatever follows: round trips are of this kind. That a reader reads under a relation means
that whenever it succeeds, it has taken bytes that it accepts and that are related to the
result: this is what is known of bytes of any origin.
-/

namespace Calculator.Encoding

variable {Item Result : Type}

/-- A reader takes exactly these bytes off the front, whatever follows them, and answers the
given item. -/
def Accepts (reader : Reader Item) (used : List UInt8) (item : Item) : Prop :=
  ∀ suffix, reader (used ++ suffix) = .ok (item, suffix)

/-- A reader that answers without reading accepts no bytes. -/
theorem accepts_pure (item : Item) : Accepts (pure item : Reader Item) [] item :=
  fun _ => rfl

/-- An outcome that is an item is answered without reading. -/
theorem accepts_lift {outcome : Except Malformation Item} {item : Item}
    (succeeded : outcome = .ok item) : Accepts (liftM outcome : Reader Item) [] item := by
  subst succeeded
  exact accepts_pure item

/-- Two readers in a row accept what the first accepts followed by what the second does. -/
theorem accepts_bind {reader : Reader Item} {next : Item → Reader Result}
    {first second : List UInt8} {item : Item} {result : Result}
    (taken : Accepts reader first item) (continued : Accepts (next item) second result) :
    Accepts (reader >>= next) (first ++ second) result := by
  intro suffix
  have front := taken (second ++ suffix)
  have back := continued suffix
  simp only [bind, StateT.bind, Except.bind]
  rw [List.append_assoc, front]
  exact back

/-- Behind accepted bytes, the second of two readers in a row goes on. -/
theorem accepts_run {reader : Reader Item} {used : List UInt8} {item : Item}
    (taken : Accepts reader used item) (next : Item → Reader Result) (rest : List UInt8) :
    (reader >>= next) (used ++ rest) = next item rest := by
  simp only [bind, StateT.bind, Except.bind]
  rw [taken rest]

/-- Looking at the bytes that are left takes none of them. -/
theorem run_get (next : List UInt8 → Reader Result) (bytes : List UInt8) :
    ((get : Reader (List UInt8)) >>= next) bytes = next bytes bytes :=
  rfl

/-- Two readers in a row accept the bytes of both also if the first one answers nothing. -/
theorem accepts_after {reader : Reader Unit} {next : Reader Result}
    {first second : List UInt8} {result : Result} (passed : Accepts reader first ())
    (continued : Accepts next second result) :
    Accepts (do reader; next) (first ++ second) result :=
  accepts_bind passed continued

/-- A reader whose item is only used to answer accepts the same bytes. -/
theorem accepts_last {reader : Reader Item} {next : Item → Reader Result} {used : List UInt8}
    {item : Item} {result : Result} (taken : Accepts reader used item)
    (answered : Accepts (next item) [] result) : Accepts (reader >>= next) used result := by
  have whole := accepts_bind taken answered
  rwa [List.append_nil] at whole

/-- What a reader accepts does not depend on what becomes of its item. -/
theorem accepts_map {reader : Reader Item} {used : List UInt8} {item : Item}
    (change : Item → Result) (taken : Accepts reader used item) :
    Accepts (change <$> reader) used (change item) := by
  intro suffix
  have front := taken suffix
  simp only [Functor.map, StateT.map, bind, Except.bind]
  rw [front]
  rfl

/-- A reader whose item is not needed accepts the same bytes. -/
theorem accepts_discard {reader : Reader Item} {used : List UInt8} {item : Item}
    (taken : Accepts reader used item) : Accepts (discard reader) used PUnit.unit :=
  accepts_map _ taken

/-- A written number is accepted as a number. -/
theorem accepts_number (number : Nat) (fits : number < 2 ^ 64) :
    Accepts Reader.number (Leb128.write number) (UInt64.ofNat number) := by
  intro suffix
  rw [Reader.number, Leb128.read_write number suffix fits]

/-- Bytes are accepted by their number. -/
theorem accepts_take (bytes : List UInt8) : Accepts (Reader.take bytes.length) bytes bytes := by
  intro suffix
  simp [Reader.take]

/-- Bytes with their number in front are accepted as such. -/
theorem accepts_counted (bytes : List UInt8) (fits : bytes.length < 2 ^ 64) :
    Accepts Reader.counted (counted bytes) bytes := by
  refine accepts_bind (accepts_number bytes.length fits) ?_
  rw [UInt64.toNat_ofNat_of_lt' fits]
  exact accepts_take bytes

/-- A text with the number of its bytes in front is accepted as that text. -/
theorem accepts_text (text : String) (fits : (Bytes.ofText text).length < 2 ^ 64) :
    Accepts Reader.text (counted (Bytes.ofText text)) text := by
  refine accepts_last (accepts_counted _ fits) ?_
  rw [Bytes.toText?_ofText]
  exact accepts_pure text

/-- Items that are accepted one by one are accepted in a row. -/
theorem accepts_times {reader : Reader Item} (write : Item → List UInt8) (items : List Item)
    (taken : ∀ item ∈ items, Accepts reader (write item) item) :
    Accepts (reader.times items.length) (items.flatMap write) items := by
  induction items with
  | nil => exact accepts_pure []
  | cons item items inductionHypothesis =>
    have others := inductionHypothesis fun other among =>
      taken other (List.mem_cons_of_mem item among)
    rw [List.flatMap_cons, List.length_cons]
    exact accepts_bind (taken item List.mem_cons_self) (accepts_last others (accepts_pure _))

/-- Whenever a reader succeeds, it has taken bytes that it accepts and that are related to the
item it answers. -/
def Reads (reader : Reader Item) (related : List UInt8 → Item → Prop) : Prop :=
  ∀ bytes item rest, reader bytes = .ok (item, rest) →
    ∃ used, bytes = used ++ rest ∧ Accepts reader used item ∧ related used item

/-- A weaker relation is read, too. -/
theorem Reads.mono {reader : Reader Item} {strong weak : List UInt8 → Item → Prop}
    (reads : Reads reader strong)
    (weaker : ∀ used item, Accepts reader used item → strong used item → weak used item) :
    Reads reader weak := by
  intro bytes item rest successful
  obtain ⟨used, split, taken, related⟩ := reads bytes item rest successful
  exact ⟨used, split, taken, weaker used item taken related⟩

/-- A reader that answers without reading relates its item to no bytes. -/
theorem reads_pure (item : Item) (related : List UInt8 → Item → Prop) (holds : related [] item) :
    Reads (pure item) related := by
  intro bytes answer rest successful
  obtain ⟨rfl, rfl⟩ : item = answer ∧ bytes = rest := by
    simpa [pure, StateT.pure, Except.pure] using successful
  exact ⟨[], rfl, accepts_pure item, holds⟩

/-- A reader that never succeeds reads under any relation. -/
theorem reads_throw (reason : Malformation) (related : List UInt8 → Item → Prop) :
    Reads (throw reason) related := by
  intro bytes item rest successful
  simp [throw, throwThe, MonadExceptOf.throw, StateT.lift, bind, Except.bind] at successful

/-- Two readers in a row: what the second one reads may depend on what the first one took. -/
theorem reads_bind {reader : Reader Item} {next : Item → Reader Result}
    {first : List UInt8 → Item → Prop} {related : List UInt8 → Result → Prop}
    (reads : Reads reader first)
    (continued : ∀ front item, Accepts reader front item → first front item →
      Reads (next item) fun back result => related (front ++ back) result) :
    Reads (reader >>= next) related := by
  intro bytes result rest successful
  simp only [bind, StateT.bind, Except.bind] at successful
  split at successful
  · simp at successful
  · rename_i outcome succeeded
    obtain ⟨front, rfl, taken, holds⟩ := reads bytes outcome.1 outcome.2 succeeded
    obtain ⟨back, split, further, related⟩ :=
      continued front outcome.1 taken holds outcome.2 result rest successful
    refine ⟨front ++ back, ?_, accepts_bind taken further, related⟩
    rw [split, List.append_assoc]

/-- A reader that answers with its item reads what is related to the answer. -/
theorem reads_answer {reader : Reader Item} {first : List UInt8 → Item → Prop}
    {related : List UInt8 → Result → Prop} (answer : Item → Result) (reads : Reads reader first)
    (holds : ∀ used item, Accepts reader used item → first used item → related used (answer item)) :
    Reads (reader >>= fun item => pure (answer item)) related := by
  refine reads_bind reads fun used item taken related => reads_pure _ _ ?_
  rw [List.append_nil]
  exact holds used item taken related

/-- A successful run of two readers in a row: what the first one took, and the run of the second
on what it left. -/
theorem Reads.run {reader : Reader Item} {next : Item → Reader Result}
    {related : List UInt8 → Item → Prop} (reads : Reads reader related) {bytes rest : List UInt8}
    {result : Result} (successful : (reader >>= next) bytes = .ok (result, rest)) :
    ∃ front item middle, bytes = front ++ middle ∧ related front item ∧
      next item middle = .ok (result, rest) := by
  simp only [bind, StateT.bind, Except.bind] at successful
  split at successful
  · simp at successful
  · rename_i outcome succeeded
    obtain ⟨front, split, -, holds⟩ := reads bytes outcome.1 outcome.2 succeeded
    exact ⟨front, outcome.1, outcome.2, split, holds, successful⟩

/-- A result that depends on nothing but whether some item exists. -/
theorem reads_lift (outcome : Except Malformation Item) (related : List UInt8 → Item → Prop)
    (holds : ∀ item, outcome = .ok item → related [] item) :
    Reads (liftM outcome : Reader Item) related := by
  cases outcome with
  | error reason => exact reads_throw reason related
  | ok item => exact reads_pure item related (holds item rfl)

/-- A number is read from at least as many bytes as it is written in. -/
theorem reads_number :
    Reads Reader.number fun used number =>
      (Leb128.write number.toNat).length ≤ used.length := by
  intro bytes number rest successful
  rw [Reader.number] at successful
  split at successful
  · rename_i value left result
    rw [Except.ok.injEq, Prod.mk.injEq] at successful
    obtain ⟨rfl, rfl⟩ := successful
    obtain ⟨used, split, enough, stable⟩ := Leb128.read_used bytes left value result
    refine ⟨used, split, ?_, enough⟩
    intro suffix
    rw [Reader.number, stable suffix]
  · simp at successful

/-- Taking a number of bytes answers them. -/
theorem reads_take (count : Nat) :
    Reads (Reader.take count) fun used taken => used = taken ∧ taken.length = count := by
  intro bytes taken rest successful
  simp only [Reader.take] at successful
  split at successful
  · simp at successful
  · rename_i enough
    rw [Except.ok.injEq, Prod.mk.injEq] at successful
    obtain ⟨rfl, rfl⟩ := successful
    have length : (bytes.take count).length = count := by
      have upper := List.length_take_le count bytes
      omega
    refine ⟨bytes.take count, (List.take_append_drop count bytes).symm, ?_, rfl, length⟩
    have accepted := accepts_take (bytes.take count)
    rwa [length] at accepted

/-- Counted bytes are read from at least as many bytes as they are written in. -/
theorem reads_counted :
    Reads Reader.counted fun used content => (counted content).length ≤ used.length := by
  refine reads_bind reads_number fun front number _ enough => ?_
  refine (reads_take number.toNat).mono fun back content _ taken => ?_
  obtain ⟨rfl, length⟩ := taken
  rw [counted, List.length_append, List.length_append, length]
  exact Nat.add_le_add_right enough _

/-- A text is read from its own bytes with their number in front. -/
theorem reads_text :
    Reads Reader.text fun used text =>
      Accepts Reader.counted used (Bytes.ofText text) ∧
        (counted (Bytes.ofText text)).length ≤ used.length := by
  refine reads_bind reads_counted fun front content taken enough => ?_
  split
  · rename_i text denoted
    rw [Bytes.eq_ofText_of_toText? content text denoted] at taken enough
    refine reads_pure text _ ?_
    rw [List.append_nil]
    exact ⟨taken, enough⟩
  · exact reads_throw _ _

/-- A reader whose item is changed reads under the same relation to the item before. -/
theorem reads_map {reader : Reader Item} {related : List UInt8 → Result → Prop}
    (change : Item → Result) (reads : Reads reader fun used item => related used (change item)) :
    Reads (change <$> reader) related := by
  intro bytes result rest successful
  simp only [Functor.map, StateT.map, bind, Except.bind] at successful
  split at successful
  · simp at successful
  · rename_i outcome succeeded
    obtain ⟨used, rfl, taken, holds⟩ := reads bytes outcome.1 outcome.2 succeeded
    obtain ⟨rfl, rfl⟩ : change outcome.1 = result ∧ outcome.2 = rest := by
      simpa [pure, Except.pure] using successful
    exact ⟨used, rfl, accepts_map change taken, holds⟩

/-- A reader whose item is not needed takes what it would take. -/
theorem reads_discard {reader : Reader Item} {related : List UInt8 → Item → Prop}
    (reads : Reads reader related) : Reads (discard reader) fun _ _ => True :=
  reads_map (fun _ => PUnit.unit) (reads.mono fun _ _ _ _ => trivial)

/-- Items that are read one by one are read in a row, under the relation between all the bytes
and all the items that the relations of the single ones give. -/
theorem reads_times {reader : Reader Item} {single : List UInt8 → Item → Prop}
    (related : List UInt8 → List Item → Prop) (none : related [] [])
    (more : ∀ front item back items, single front item → related back items →
      related (front ++ back) (item :: items))
    (reads : Reads reader single) (count : Nat) :
    Reads (reader.times count) fun used items => related used items ∧ items.length = count := by
  induction count with
  | zero => exact reads_pure [] _ ⟨none, rfl⟩
  | succ count inductionHypothesis =>
    refine reads_bind reads fun front item _ holds => ?_
    refine reads_answer (item :: ·) inductionHypothesis fun back items _ others => ?_
    exact ⟨more front item back items holds others.1, by rw [List.length_cons, others.2]⟩

end Calculator.Encoding
