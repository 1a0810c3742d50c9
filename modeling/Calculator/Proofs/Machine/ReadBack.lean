import Calculator.Proofs.Encoding.Depth
import Calculator.Proofs.Machine.Atomicity
import Calculator.Proofs.Machine.Invisible
import Mathlib

/-!
# Values that are read back

A value that a machine accepts, on its stack or under a name, enters the storage as its encoding,
and is decoded whenever it is read. When it enters, only the size of the encoding is checked, by
passing over it, which goes down to no deepest level. So a value that nests deeper than decoding
goes is accepted like any other one, and cannot be read back.
-/

namespace Calculator

namespace Encoding

/-- What a well-formed value is read as after it was encoded: itself, unless it nests deeper than
decoding goes. -/
def readBack (value : Value) : Outcome Value :=
  if value.nesting ≤ deepestLevel then .ok value else .error (.malformed .nestingTooDeep)

/-- The encoding of a well-formed value is read as the value, or refused if it nests too deep. -/
theorem reading_eq_readBack {value : Value} (formed : value.WellFormed)
    (addressable : Addressable value) : reading (encode value) = readBack value := by
  rw [readBack]
  split
  · rename_i shallow
    exact reading_encode ⟨formed, shallow, addressable⟩
  · rename_i deep
    have refused := decode_encode_deep value [] formed (Nat.lt_of_not_le deep) addressable
    rw [List.append_nil] at refused
    rw [reading, refused]
    rfl

end Encoding

namespace Machine

section Actions

variable {Store Reference : Type} [Storage Store Reference]
variable {machine after : Machine Store Reference}

/-- What has been pushed is in the storage, and on top of the levels there were. -/
theorem enact_push_ok {value : Value} (pushed : enact (push value) machine = (.ok (), after)) :
    ∃ reference storage, Storage.place machine.storage machine.roots (Encoding.encode value) =
        (.ok reference, storage) ∧
      after = { machine with storage, stack := reference :: machine.stack } := by
  unfold push at pushed
  rcases made : enact (make value) machine with ⟨outcome, between⟩
  cases outcome with
  | error fault =>
    rw [enact_bind_error made] at pushed
    cases pushed
  | ok reference =>
    rw [enact_bind_ok made] at pushed
    obtain ⟨storage, placed, rfl⟩ := enact_make_ok made
    exact ⟨reference, storage, placed, (congrArg Prod.snd pushed).symm⟩

/-- What has been stored is in the storage, and a variable of the current directory. -/
theorem enact_store_ok {name : Symbol} {value : Value}
    (stored : enact (store name value) machine = (.ok (), after)) :
    ∃ reference storage, Storage.place machine.storage machine.roots (Encoding.encode value) =
        (.ok reference, storage) ∧
      Directory.missing? machine.settings.caseSensitive machine.path machine.tree = none ∧
      after = { machine with
        storage
        tree := Directory.replaceAt machine.settings.caseSensitive
          (Directory.insert name (.value reference) machine.settings.caseSensitive machine.current)
          machine.path machine.tree } := by
  unfold store at stored
  rw [enact_preferences_bind, enact_get_bind] at stored
  split at stored
  · cases stored
  · rcases made : enact (make value) machine with ⟨outcome, between⟩
    cases outcome with
    | error fault =>
      rw [enact_bind_error made] at stored
      cases stored
    | ok reference =>
      rw [enact_bind_ok made] at stored
      obtain ⟨storage, placed, rfl⟩ := enact_make_ok made
      unfold changeCurrent at stored
      rw [enact_get_bind] at stored
      dsimp only at stored
      split at stored
      · cases stored
      · rename_i present
        exact ⟨reference, storage, placed, present, (congrArg Prod.snd stored).symm⟩

/-- The value on top is that of the uppermost level. -/
theorem enact_top {reference : Reference} {levels : List Reference}
    (stack : machine.stack = reference :: levels) :
    enact top machine = (machine.valueOf reference, machine) := by
  have found : enact (levelHandle 1) machine = (.ok reference, machine) := by
    unfold levelHandle
    rw [if_neg (by decide), enact_get_bind, stack]
    rfl
  unfold top level
  rw [enact_bind_ok found, Link.enact_value]

/-- To fetch a variable answers what is found under the name and changes nothing. -/
theorem enact_fetch? (name : Symbol) (machine : Machine Store Reference) :
    enact (fetch? name) machine = (.ok (machine.lookup? name), machine) :=
  rfl

omit [Storage Store Reference] in
/-- A variable of the current directory is found under the name it was made with. -/
theorem reference?_insert (name : Symbol) (reference : Reference) (storage : Store)
    (present : Directory.missing? machine.settings.caseSensitive machine.path machine.tree = none) :
    reference? { machine with
      storage
      tree := Directory.replaceAt machine.settings.caseSensitive
        (Directory.insert name (.value reference) machine.settings.caseSensitive machine.current)
        machine.path machine.tree } name = some reference := by
  unfold reference? directories
  dsimp only
  obtain ⟨around, chain⟩ := Directory.exists_chain_eq machine.settings.caseSensitive machine.path
    (Directory.replaceAt machine.settings.caseSensitive
      (Directory.insert name (.value reference) machine.settings.caseSensitive machine.current)
      machine.path machine.tree)
  rw [chain, Directory.along_replaceAt present, List.reverse_append, List.reverse_singleton,
    List.singleton_append, List.findSome?_cons, referenceIn?, Directory.find?_insert]

end Actions

/-- What an intact machine has placed in its heap is read back. -/
theorem Intact.valueOf_placed {machine : Machine} (intact : machine.Intact) {value : Value}
    (formed : value.WellFormed) (limited : machine.heap.limit < 2 ^ 64) {handle : Handle}
    {next : Heap} (answer : Storage.place machine.storage machine.roots (Encoding.encode value) =
      (.ok handle, next)) (few : next.slots.size ≤ UInt32.size) :
    next.valueOf handle = Encoding.readBack value := by
  obtain ⟨found, placed, same⟩ := Heap.place?_of_storage answer
  obtain ⟨sound, -, held⟩ := Heap.place?_spec placed intact.sound few
  have object := held handle (same handle rfl)
  have limit : next.limit = machine.heap.limit := by
    have kept := Heap.limit_place? machine.storage machine.roots (Encoding.encode value)
    rw [placed] at kept
    exact kept
  -- Nothing in the heap is longer than its limit, so the length of the encoding is a word.
  have addressable : Encoding.Addressable value :=
    Nat.lt_of_le_of_lt (limit ▸ sound.length_le_limit object) limited
  rw [WatchedHeap.valueOf_eq_reading object, Encoding.reading_eq_readBack formed addressable]

end Machine

namespace Session

open Machine

/-- Whether a word numbers the slots of a machine's heap, as it always does if the size and the
limit of the heap are words. -/
def Numbered (settings : Settings) (machine : Machine) : Prop :=
  max settings.heapLimit.toNat settings.heapSize.toNat ≤ UInt32.size ∨
    machine.heap.slots.size ≤ UInt32.size

/-- What a machine has become since nothing had happened on it has slots that a word numbers. -/
theorem Numbered.few {settings : Settings} {machine : Machine} (numbered : Numbered settings machine)
    (safe : Safe (start settings) machine) : machine.heap.slots.size ≤ UInt32.size := by
  rcases numbered with word | few
  · exact (safe.dense (Heap.dense_empty word)).sound.few
  · exact few

/-- Whatever a machine was asked to do before, what it then places in its heap is read back. -/
theorem placed_read_back {settings : Settings} {requests : List Request} {after : Machine}
    {value : Value} {handle : Handle} (formed : value.WellFormed)
    (numbered : Numbered settings after)
    (safe : Safe (requested requests (start settings)) after)
    (answer : Storage.place (requested requests (start settings)).storage
      (requested requests (start settings)).roots (Encoding.encode value) =
        (.ok handle, after.storage)) :
    after.valueOf handle = Encoding.readBack value := by
  have before := safe_requested requests (start settings)
  have few : after.heap.slots.size ≤ UInt32.size := numbered.few (before.trans safe)
  have limited : (requested requests (start settings)).heap.limit < 2 ^ 64 := by
    rw [before.limit]
    exact Nat.max_lt.mpr ⟨settings.heapLimit.toNat_lt, settings.heapSize.toNat_lt⟩
  exact (before.intact (intact_start settings) (safe.slots.trans few)).valueOf_placed formed limited
    answer few

/-- What was pushed is on top. -/
theorem top_pushed {settings : Settings} {requests : List Request} {value : Value}
    (formed : value.WellFormed)
    (accepted : (enact (push value) (requested requests (start settings))).1 = .ok ())
    (numbered : Numbered settings (enact (push value) (requested requests (start settings))).2) :
    (enact top (enact (push value) (requested requests (start settings))).2).1 =
      Encoding.readBack value := by
  have safe := (evolving_push value).safe (requested requests (start settings))
  rcases pushed : enact (push value) (requested requests (start settings)) with ⟨outcome, after⟩
  rw [pushed] at accepted numbered safe
  obtain rfl : outcome = .ok () := accepted
  obtain ⟨handle, storage, placed, rfl⟩ := enact_push_ok pushed
  rw [enact_top rfl]
  exact placed_read_back formed numbered safe placed

/-- What was stored is found under its name. -/
theorem fetch_stored {settings : Settings} {requests : List Request} {name : Symbol} {value : Value}
    (formed : value.WellFormed)
    (accepted : (enact (store name value) (requested requests (start settings))).1 = .ok ())
    (numbered :
      Numbered settings (enact (store name value) (requested requests (start settings))).2) :
    (enact (fetch? name) (enact (store name value) (requested requests (start settings))).2).1 =
      .ok (Encoding.readBack value).toOption := by
  have safe := (evolving_store name value).safe (requested requests (start settings))
  rcases stored : enact (store name value) (requested requests (start settings)) with
    ⟨outcome, after⟩
  rw [stored] at accepted numbered safe
  obtain rfl : outcome = .ok () := accepted
  obtain ⟨handle, storage, placed, present, rfl⟩ := enact_store_ok stored
  have found := reference?_insert name handle storage present
  have read := placed_read_back formed numbered safe placed
  rw [enact_fetch?, lookup?, found]
  exact congrArg (fun outcome => Except.ok outcome.toOption) read

/-- Whatever a machine was asked to do before: a well-formed value that is then pushed, without an
error, is on top, and one that is stored is found under its name, as long as it does not nest
deeper than decoding goes. If it does, it is accepted as well, but what is on top cannot be decoded,
and nothing is found. -/
theorem accepted_read_back (settings : Settings) (requests : List Request) (value : Value)
    (formed : value.WellFormed) :
    let before := requested requests (start settings)
    let pushed := enact (push value) before
    (pushed.1 = .ok () → Numbered settings pushed.2 →
      (enact top pushed.2).1 = Encoding.readBack value) ∧
    ∀ name,
      let stored := enact (store name value) before
      stored.1 = .ok () → Numbered settings stored.2 →
        (enact (fetch? name) stored.2).1 = .ok (Encoding.readBack value).toOption :=
  ⟨top_pushed formed, fun _ => fetch_stored formed⟩

/-- A list of a list that is pushed and stored on a heap that has to be collected for that. -/
theorem accepted_read_back_collected :
    let settings : Settings := { heapSize := 8, heapLimit := 16 }
    let value : Value := .sequence .list [.sequence .list [.ofInt 1]]
    let before := requested [.plain (.push (.ofInt 1)), .plain .clear] (start settings)
    (enact top (enact (push value) before).2).1 = .ok value ∧
      (enact (fetch? ⟨"N"⟩) (enact (store ⟨"N"⟩ value) before).2).1 = .ok (some value) := by
  intro settings value before
  have formed : value.WellFormed := by
    refine .sequence _ _ (List.forall_mem_singleton.mpr ?_)
    exact .sequence _ _ (List.forall_mem_singleton.mpr (.word _))
  have shallow : Encoding.readBack value = .ok value := if_pos (by decide)
  obtain ⟨top, found⟩ := accepted_read_back settings
    [.plain (.push (.ofInt 1)), .plain .clear] value formed
  rw [shallow] at top found
  exact ⟨top (by with_unfolding_all rfl) (.inl (by decide)),
    found ⟨"N"⟩ (by with_unfolding_all rfl) (.inl (by decide))⟩

/-! ## Values that are not read back -/

/-- A value that nests too deep, but is short enough for a heap of the default size, is accepted by
a machine on which nothing has happened, pushed as well as stored, and cannot be read back. -/
theorem not_read_back_of_deep {value : Value} (formed : value.WellFormed)
    (deep : Encoding.deepestLevel < value.nesting)
    (short : (Encoding.encode value).length ≤ 16384) (name : Symbol) :
    let pushed := enact (push value) (start {})
    let stored := enact (store name value) (start {})
    (pushed.1 = .ok () ∧ (enact top pushed.2).1 = .error (.malformed .nestingTooDeep)) ∧
      (stored.1 = .ok () ∧ (enact (fetch? name) stored.2).1 = .ok none) := by
  intro pushed stored
  have refused : Encoding.readBack value = .error (.malformed .nestingTooDeep) :=
    if_neg (Nat.not_le_of_lt deep)
  have addressable : Encoding.Addressable value := Nat.lt_of_le_of_lt short (by decide)
  have room : (start {}).heap.used + (Encoding.encode value).length ≤ (start {}).heap.capacity := by
    have used : (start {}).heap.used = 0 := rfl
    have capacity : (start {}).heap.capacity = 16384 := Array.size_replicate
    omega
  have made := enact_make_appended addressable rfl room
  have acceptedPush : pushed.1 = .ok () := congrArg Prod.fst (enact_bind_ok made _)
  have acceptedStore : stored.1 = .ok () := by
    change (enact (store name value) (start {})).1 = _
    unfold store
    rw [enact_preferences_bind, enact_get_bind]
    dsimp only
    rw [if_neg (show ¬ (start {}).isDirectory name = true from Bool.false_ne_true),
      enact_bind_ok made]
    rfl
  have top := @top_pushed {} [] value formed acceptedPush (.inl (by decide))
  have found := @fetch_stored {} [] name value formed acceptedStore (.inl (by decide))
  rw [refused] at top found
  exact ⟨⟨acceptedPush, top⟩, acceptedStore, found⟩

/-- The number one within so many lists. -/
def nestedLists : Nat → Value
  | 0 => .ofInt 1
  | count + 1 => .sequence .list [nestedLists count]

/-- Lists within each other are well formed. -/
theorem wellFormed_nestedLists (count : Nat) : (nestedLists count).WellFormed := by
  induction count with
  | zero => exact .word _
  | succ count inductionHypothesis =>
    exact .sequence _ _ (List.forall_mem_singleton.mpr inductionHypothesis)

/-- Every list is one level. -/
theorem nesting_nestedLists (count : Nat) : (nestedLists count).nesting = count := by
  induction count with
  | zero => rfl
  | succ count inductionHypothesis =>
    simp [nestedLists, Value.nesting, Value.nestingOfItems, inductionHypothesis]

/-- Every list adds a tag and a length to the encoding. -/
theorem length_nestedLists (count : Nat) (word : 11 * count + 2 < 2 ^ 64) :
    (Encoding.encode (nestedLists count)).length ≤ 11 * count + 2 := by
  induction count with
  | zero => decide_cbv
  | succ count inductionHypothesis =>
    have inside := inductionHypothesis (by omega)
    have front := Leb128.write_length_le_ten (Encoding.encode (nestedLists count)).length (by omega)
    rw [nestedLists, Encoding.encode, List.length_append, Encoding.tagBytes_length,
      Encoding.counted, Encoding.encodeItems, Encoding.encodeItems, List.append_nil,
      List.length_append]
    omega

/-- One list more than decoding goes down is accepted, pushed as well as stored, and cannot be
read back. -/
theorem accepted_not_read_back :
    let value := nestedLists 1025
    let pushed := enact (push value) (start {})
    let stored := enact (store ⟨"N"⟩ value) (start {})
    Value.WellFormed value ∧
      (pushed.1 = .ok () ∧ (enact top pushed.2).1 = .error (.malformed .nestingTooDeep)) ∧
      (stored.1 = .ok () ∧ (enact (fetch? ⟨"N"⟩) stored.2).1 = .ok none) := by
  have short := length_nestedLists 1025 (by decide)
  exact ⟨wellFormed_nestedLists 1025, not_read_back_of_deep (wellFormed_nestedLists 1025)
    (by rw [nesting_nestedLists]; decide) (by omega) ⟨"N"⟩⟩

end Session

end Calculator
