import Calculator.Proofs.Memory.Directory
import Mathlib

/-!
# Trees without double names

To denote the same thing is an equivalence of names. So if no directory has two entries whose names
denote the same thing, it does not matter which of the entries a search finds. What is done to a tree
is done at the end of a path, to the one entry of a name: everything else stays as it is, in its place
and with its spelling, and the path can still be followed.
-/

namespace Calculator

namespace Directory

variable {Content : Type} {caseSensitive : Bool}

/-! ## Names in a directory -/

/-- Whether no two entries of a directory have names that denote the same thing. -/
def Distinct (caseSensitive : Bool) (entries : Directory Content) : Prop :=
  entries.Pairwise fun first second => first.1.sameAs second.1 caseSensitive = false

/-- The first entry that a name denotes, with the entries before and behind it. -/
structure Denoted (caseSensitive : Bool) (name : Symbol) (entries front : Directory Content)
    (spelled : Symbol) (entry : Entry Content) (back : Directory Content) : Prop where
  split : entries = front ++ (spelled, entry) :: back
  same : spelled.sameAs name caseSensitive = true
  first : ∀ named ∈ front, named.1.sameAs name caseSensitive = false

/-- An entry that is found is the first one that the name denotes. -/
theorem exists_denoted {entries : Directory Content} {name : Symbol} {entry : Entry Content}
    (found : find? entries name caseSensitive = some entry) :
    ∃ front spelled back, Denoted caseSensitive name entries front spelled entry back := by
  rw [find?, Option.map_eq_some_iff] at found
  obtain ⟨⟨spelled, former⟩, among, rfl⟩ := found
  obtain ⟨same, front, back, split, first⟩ := List.find?_eq_some_iff_append.mp among
  exact ⟨front, spelled, back, split, same, fun named member => by simpa using first named member⟩

/-- A name is not found if it denotes no entry. -/
theorem find?_eq_none {entries : Directory Content} {name : Symbol} :
    find? entries name caseSensitive = none ↔
      ∀ named ∈ entries, named.1.sameAs name caseSensitive = false := by
  rw [find?, Option.map_eq_none_iff, List.find?_eq_none]
  simp

namespace Denoted

variable {name spelled : Symbol} {entries front back : Directory Content} {entry : Entry Content}

/-- An insertion replaces the first entry that the name denotes. -/
theorem insert (denoted : Denoted caseSensitive name entries front spelled entry back)
    (next : Entry Content) :
    Directory.insert name next caseSensitive entries = front ++ (spelled, next) :: back := by
  obtain ⟨rfl, same, first⟩ := denoted
  induction front with
  | nil => rw [List.nil_append, Directory.insert, if_pos same, List.nil_append]
  | cons named front inductionHypothesis =>
    obtain ⟨other, others⟩ := List.forall_mem_cons.mp first
    rw [List.cons_append, Directory.insert, if_neg (by simp [other]), inductionHypothesis others,
      List.cons_append]

/-- A removal takes out the first entry that the name denotes. -/
theorem remove (denoted : Denoted caseSensitive name entries front spelled entry back) :
    Directory.remove entries name caseSensitive = front ++ back := by
  obtain ⟨rfl, same, first⟩ := denoted
  rw [Directory.remove, List.eraseP_append_right _ (by simpa using first)]
  exact congrArg (front ++ ·) (List.eraseP_cons_of_pos same)

end Denoted

/-- An insertion under a new name adds an entry behind all others. -/
theorem insert_of_find?_eq_none {entries : Directory Content} {name : Symbol} {next : Entry Content}
    (vacant : find? entries name caseSensitive = none) :
    insert name next caseSensitive entries = entries ++ [(name, next)] := by
  rw [find?_eq_none] at vacant
  induction entries with
  | nil => rfl
  | cons named entries inductionHypothesis =>
    obtain ⟨other, others⟩ := List.forall_mem_cons.mp vacant
    rw [insert, if_neg (by simp [other]), inductionHypothesis others, List.cons_append]

/-- An insertion makes no name double. -/
theorem Distinct.insert {entries : Directory Content} (distinct : Distinct caseSensitive entries)
    (name : Symbol) (next : Entry Content) :
    Distinct caseSensitive (Directory.insert name next caseSensitive entries) := by
  cases found : find? entries name caseSensitive with
  | none =>
    rw [insert_of_find?_eq_none found]
    rw [find?_eq_none] at found
    exact List.pairwise_append.mpr ⟨distinct, List.pairwise_singleton _ _,
      fun named among added new => List.mem_singleton.mp new ▸ found named among⟩
  | some entry =>
    obtain ⟨front, spelled, back, denoted⟩ := exists_denoted found
    rw [denoted.insert next]
    rw [Distinct, denoted.split] at distinct
    -- Whether names are double depends on the names only, and these are the same.
    have names (entry : Entry Content) :
        Distinct caseSensitive (front ++ (spelled, entry) :: back) ↔
          (names front ++ spelled :: names back).Pairwise
            fun first second => first.sameAs second caseSensitive = false := by
      have whole : names front ++ spelled :: names back =
          names (front ++ (spelled, entry) :: back) := by simp [names]
      rw [whole, names, List.pairwise_map]
      rfl
    exact (names next).mpr ((names entry).mp distinct)

/-- A removal makes no name double. -/
theorem Distinct.remove {entries : Directory Content} (distinct : Distinct caseSensitive entries)
    (name : Symbol) : Distinct caseSensitive (Directory.remove entries name caseSensitive) :=
  distinct.sublist List.eraseP_sublist

/-- After a removal the name denotes nothing. -/
theorem Distinct.find?_remove {entries : Directory Content} (distinct : Distinct caseSensitive entries)
    (name : Symbol) : find? (Directory.remove entries name caseSensitive) name caseSensitive = none := by
  rw [find?_eq_none]
  intro named among
  cases found : find? entries name caseSensitive with
  | none => exact find?_eq_none.mp found named (List.mem_of_mem_eraseP among)
  | some entry =>
    obtain ⟨front, spelled, back, denoted⟩ := exists_denoted found
    rw [denoted.remove] at among
    rcases List.mem_append.mp among with before | behind
    · exact denoted.first named before
    · rw [Distinct, denoted.split] at distinct
      have apart := (List.pairwise_cons.mp (List.pairwise_append.mp distinct).2.1).1 named behind
      -- The name denotes the entry taken out, so it cannot denote a later one as well.
      by_contra denotes
      rw [Bool.not_eq_false, Symbol.sameAs_iff, ← Symbol.sameAs_iff.mp denoted.same,
        eq_comm, ← Symbol.sameAs_iff] at denotes
      exact absurd denotes (by simp [apart])

/-! ## Trees -/

/-- The directories of a tree. -/
inductive Within (tree : Directory Content) : Directory Content → Prop
  | outermost : Within tree tree
  | inner {entries inner : Directory Content} {name : Symbol} (outer : Within tree entries)
      (among : (name, .directory inner) ∈ entries) : Within tree inner

/-- Whether no directory of a tree has two entries whose names denote the same thing. -/
def Orderly (caseSensitive : Bool) (tree : Directory Content) : Prop :=
  ∀ entries, Within tree entries → Distinct caseSensitive entries

/-- The directories of a tree are itself and those of its subdirectories. -/
theorem orderly_iff {tree : Directory Content} :
    Orderly caseSensitive tree ↔ Distinct caseSensitive tree ∧
      ∀ name inner, (name, .directory inner) ∈ tree → Orderly caseSensitive inner := by
  have deeper {name : Symbol} {inner entries : Directory Content}
      (among : (name, .directory inner) ∈ tree) (within : Within inner entries) :
      Within tree entries := by
    induction within with
    | outermost => exact .inner .outermost among
    | inner _ member inductionHypothesis => exact .inner inductionHypothesis member
  have parts {entries : Directory Content} (within : Within tree entries) : entries = tree ∨
      ∃ name inner, (name, .directory inner) ∈ tree ∧ Within inner entries := by
    induction within with
    | outermost => exact .inl rfl
    | inner outer member inductionHypothesis =>
      rcases inductionHypothesis with rfl | ⟨name, directory, among, within⟩
      · exact .inr ⟨_, _, member, .outermost⟩
      · exact .inr ⟨name, directory, among, .inner within member⟩
  constructor
  · intro orderly
    exact ⟨orderly tree .outermost, fun name inner among entries within =>
      orderly entries (deeper among within)⟩
  · rintro ⟨distinct, inside⟩ entries within
    rcases parts within with rfl | ⟨name, inner, among, further⟩
    · exact distinct
    · exact inside name inner among entries further

/-- An entry after an insertion is the one that was inserted or was there before. -/
theorem eq_or_mem_of_mem_insert {entries : Directory Content} {name : Symbol} {next : Entry Content}
    {named : Symbol × Entry Content} (among : named ∈ insert name next caseSensitive entries) :
    named.2 = next ∨ named ∈ entries := by
  cases found : find? entries name caseSensitive with
  | none =>
    rw [insert_of_find?_eq_none found] at among
    rcases List.mem_append.mp among with before | new
    · exact .inr before
    · exact .inl (congrArg Prod.snd (List.mem_singleton.mp new))
  | some entry =>
    obtain ⟨front, spelled, back, denoted⟩ := exists_denoted found
    rw [denoted.insert next] at among
    rw [denoted.split]
    simp only [List.mem_append, List.mem_cons] at among ⊢
    rcases among with before | rfl | behind
    · exact .inr (.inl before)
    · exact .inl rfl
    · exact .inr (.inr (.inr behind))

/-- The subdirectory with a name is an entry. -/
theorem exists_mem_of_subdirectory? {entries inner : Directory Content} {name : Symbol}
    (found : subdirectory? entries name caseSensitive = some inner) :
    find? entries name caseSensitive = some (.directory inner) ∧
      ∃ spelled, (spelled, .directory inner) ∈ entries := by
  unfold subdirectory? at found
  split at found
  · rename_i directory entry
    obtain rfl := Option.some.inj found
    obtain ⟨⟨spelled, _⟩, among, rfl⟩ := exists_mem_of_find? entry
    exact ⟨entry, spelled, among⟩
  · cases found

/-- An insertion keeps a tree orderly, if what it inserts is. -/
theorem Orderly.insert {entries : Directory Content} (orderly : Orderly caseSensitive entries)
    (name : Symbol) {next : Entry Content}
    (inserted : ∀ inner, next = .directory inner → Orderly caseSensitive inner) :
    Orderly caseSensitive (Directory.insert name next caseSensitive entries) := by
  obtain ⟨distinct, inside⟩ := orderly_iff.mp orderly
  refine orderly_iff.mpr ⟨distinct.insert name next, fun spelled inner among => ?_⟩
  rcases eq_or_mem_of_mem_insert among with new | before
  · exact inserted inner new.symm
  · exact inside spelled inner before

/-- A removal keeps a tree orderly. -/
theorem Orderly.remove {entries : Directory Content} (orderly : Orderly caseSensitive entries)
    (name : Symbol) : Orderly caseSensitive (Directory.remove entries name caseSensitive) := by
  obtain ⟨distinct, inside⟩ := orderly_iff.mp orderly
  exact orderly_iff.mpr ⟨distinct.remove name, fun spelled inner among =>
    inside spelled inner (List.mem_of_mem_eraseP among)⟩

/-- A subdirectory of an orderly tree is orderly. -/
theorem Orderly.subdirectory? {entries inner : Directory Content}
    (orderly : Orderly caseSensitive entries) {name : Symbol}
    (found : Directory.subdirectory? entries name caseSensitive = some inner) :
    Orderly caseSensitive inner := by
  obtain ⟨-, spelled, among⟩ := exists_mem_of_subdirectory? found
  exact (orderly_iff.mp orderly).2 spelled inner among

/-- The directory at the end of a path of an orderly tree is orderly. -/
theorem Orderly.along {tree : Directory Content} (orderly : Orderly caseSensitive tree)
    (path : List Symbol) : Orderly caseSensitive (Directory.along caseSensitive path tree) := by
  induction path generalizing tree with
  | nil => exact orderly
  | cons name path inductionHypothesis =>
    rw [Directory.along]
    split
    · rename_i inner found
      exact inductionHypothesis (orderly.subdirectory? found)
    · exact orderly

/-- An orderly directory at the end of a path keeps a tree orderly. -/
theorem Orderly.replaceAt {tree replacement : Directory Content}
    (orderly : Orderly caseSensitive tree) (next : Orderly caseSensitive replacement)
    (path : List Symbol) :
    Orderly caseSensitive (Directory.replaceAt caseSensitive replacement path tree) := by
  induction path generalizing tree with
  | nil => exact next
  | cons name path inductionHypothesis =>
    rw [Directory.replaceAt]
    split
    · rename_i inner found
      refine orderly.insert name fun directory same => ?_
      obtain rfl := Entry.directory.inj same
      exact inductionHypothesis (orderly.subdirectory? found)
    · exact orderly

/-! ## Paths -/

/-- A path that can be followed can still be followed after the directory at its end was replaced. -/
theorem missing?_replaceAt {path : List Symbol} {tree replacement : Directory Content}
    (present : missing? caseSensitive path tree = none) :
    missing? caseSensitive path (replaceAt caseSensitive replacement path tree) = none := by
  induction path generalizing tree with
  | nil => rfl
  | cons name path inductionHypothesis =>
    rw [missing?] at present
    cases found : subdirectory? tree name caseSensitive with
    | none => simp [found] at present
    | some inner =>
      simp only [found] at present
      rw [replaceAt, found, missing?, subdirectory?, find?_insert]
      exact inductionHypothesis present

/-- A path can be followed further into a subdirectory of the directory at its end. -/
theorem missing?_append {path : List Symbol} {tree : Directory Content} {name : Symbol}
    (present : missing? caseSensitive path tree = none)
    (inside : (subdirectory? (along caseSensitive path tree) name caseSensitive).isSome = true) :
    missing? caseSensitive (path ++ [name]) tree = none := by
  induction path generalizing tree with
  | nil =>
    obtain ⟨inner, found⟩ := Option.isSome_iff_exists.mp inside
    rw [along] at found
    simp only [List.nil_append, missing?, found]
  | cons step path inductionHypothesis =>
    rw [missing?] at present
    rw [along] at inside
    rw [List.cons_append, missing?]
    cases found : subdirectory? tree step caseSensitive with
    | none => simp [found] at present
    | some inner =>
      simp only [found] at present inside
      exact inductionHypothesis present inside

/-- A path that can be followed can be followed except for its last name. -/
theorem missing?_dropLast {path : List Symbol} {tree : Directory Content}
    (present : missing? caseSensitive path tree = none) :
    missing? caseSensitive path.dropLast tree = none := by
  induction path generalizing tree with
  | nil => rfl
  | cons name path inductionHypothesis =>
    cases path with
    | nil => rfl
    | cons next path =>
      rw [missing?] at present
      rw [List.dropLast_cons_cons, missing?]
      cases found : subdirectory? tree name caseSensitive with
      | none => simp [found] at present
      | some inner =>
        simp only [found] at present
        exact inductionHypothesis present

/-- Along a path that can be followed there is a directory for every name, and the outermost one. -/
theorem length_chain {path : List Symbol} {tree : Directory Content}
    (present : missing? caseSensitive path tree = none) :
    (chain caseSensitive path tree).length = path.length + 1 := by
  induction path generalizing tree with
  | nil => rfl
  | cons name path inductionHypothesis =>
    rw [missing?] at present
    rw [chain]
    cases found : subdirectory? tree name caseSensitive with
    | none => simp [found] at present
    | some inner =>
      simp only [found] at present
      exact congrArg (· + 1) (inductionHypothesis present)

/-! ## Changes of a single entry -/

/-- Two directories that agree in everything but one entry: what a name denotes is another entry in
the same place, or there is an entry under the name behind all others, or the entry that the name
denotes is missing. -/
inductive DiffersAt (caseSensitive : Bool) (name : Symbol) :
    Directory Content → Directory Content → Prop
  | replaced {front back : Directory Content} {spelled : Symbol} {former next : Entry Content}
      (same : spelled.sameAs name caseSensitive = true) :
      DiffersAt caseSensitive name (front ++ (spelled, former) :: back)
        (front ++ (spelled, next) :: back)
  | added {entries : Directory Content} {next : Entry Content} :
      DiffersAt caseSensitive name entries (entries ++ [(name, next)])
  | removed {front back : Directory Content} {spelled : Symbol} {former : Entry Content}
      (same : spelled.sameAs name caseSensitive = true) :
      DiffersAt caseSensitive name (front ++ (spelled, former) :: back) (front ++ back)

/-- Two trees that agree in everything but one entry of the directory at the end of a path. -/
inductive DiffersAlong (caseSensitive : Bool) (name : Symbol) :
    List Symbol → Directory Content → Directory Content → Prop
  | here {entries next : Directory Content} (differs : DiffersAt caseSensitive name entries next) :
      DiffersAlong caseSensitive name [] entries next
  | inside {front back inner next : Directory Content} {spelled step : Symbol} {path : List Symbol}
      (same : spelled.sameAs step caseSensitive = true)
      (differs : DiffersAlong caseSensitive name path inner next) :
      DiffersAlong caseSensitive name (step :: path) (front ++ (spelled, .directory inner) :: back)
        (front ++ (spelled, .directory next) :: back)

/-- An insertion changes the entry of its name only. -/
theorem differsAt_insert (entries : Directory Content) (name : Symbol) (next : Entry Content) :
    DiffersAt caseSensitive name entries (insert name next caseSensitive entries) := by
  cases found : find? entries name caseSensitive with
  | none =>
    rw [insert_of_find?_eq_none found]
    exact .added
  | some entry =>
    obtain ⟨front, spelled, back, denoted⟩ := exists_denoted found
    rw [denoted.insert next, denoted.split]
    exact .replaced denoted.same

/-- A removal changes the entry of its name only. -/
theorem differsAt_remove {entries : Directory Content} {name : Symbol}
    (found : (find? entries name caseSensitive).isSome = true) :
    DiffersAt caseSensitive name entries (remove entries name caseSensitive) := by
  obtain ⟨entry, found⟩ := Option.isSome_iff_exists.mp found
  obtain ⟨front, spelled, back, denoted⟩ := exists_denoted found
  rw [denoted.remove, denoted.split]
  exact .removed denoted.same

/-- To change one entry of the directory at the end of a path changes nothing else of the tree. -/
theorem differsAlong_replaceAt {path : List Symbol} {tree next : Directory Content} {name : Symbol}
    (present : missing? caseSensitive path tree = none)
    (differs : DiffersAt caseSensitive name (along caseSensitive path tree) next) :
    DiffersAlong caseSensitive name path tree (replaceAt caseSensitive next path tree) := by
  induction path generalizing tree with
  | nil => exact .here differs
  | cons step path inductionHypothesis =>
    rw [missing?] at present
    rw [along] at differs
    rw [replaceAt]
    cases found : subdirectory? tree step caseSensitive with
    | none => simp [found] at present
    | some inner =>
      simp only [found] at present differs
      dsimp only
      obtain ⟨front, spelled, back, denoted⟩ := exists_denoted (exists_mem_of_subdirectory? found).1
      rw [denoted.insert, denoted.split]
      exact .inside denoted.same (inductionHypothesis present differs)

/-! ## Steps -/

/-- What a single step does to a path and a tree: a value becomes an entry of the directory at the
end of the path, unless a subdirectory has its name, an entry is removed, a subdirectory is made
under a new name, or the path is made longer or shorter. -/
inductive Step (caseSensitive : Bool) :
    List Symbol × Directory Content → List Symbol × Directory Content → Prop
  | stored {path : List Symbol} {tree : Directory Content} (name : Symbol) (content : Content)
      (vacant : subdirectory? (along caseSensitive path tree) name caseSensitive = none) :
      Step caseSensitive (path, tree) (path, replaceAt caseSensitive
        (insert name (.value content) caseSensitive (along caseSensitive path tree)) path tree)
  | removed {path : List Symbol} {tree : Directory Content} (name : Symbol)
      (found : (find? (along caseSensitive path tree) name caseSensitive).isSome = true) :
      Step caseSensitive (path, tree) (path, replaceAt caseSensitive
        (remove (along caseSensitive path tree) name caseSensitive) path tree)
  | founded {path : List Symbol} {tree : Directory Content} (name : Symbol)
      (vacant : find? (along caseSensitive path tree) name caseSensitive = none) :
      Step caseSensitive (path, tree) (path, replaceAt caseSensitive
        (insert name (.directory []) caseSensitive (along caseSensitive path tree)) path tree)
  | entered {path : List Symbol} {tree : Directory Content} (name : Symbol)
      (inside : (subdirectory? (along caseSensitive path tree) name caseSensitive).isSome = true) :
      Step caseSensitive (path, tree) (path ++ [name], tree)
  | ascended {path : List Symbol} {tree : Directory Content} :
      Step caseSensitive (path, tree) (path.dropLast, tree)
  | returned {path : List Symbol} {tree : Directory Content} :
      Step caseSensitive (path, tree) ([], tree)

/-- A path that can be followed in an orderly tree. -/
structure Followed (caseSensitive : Bool) (place : List Symbol × Directory Content) : Prop where
  orderly : Orderly caseSensitive place.2
  present : missing? caseSensitive place.1 place.2 = none

/-- The outermost directory without entries. -/
theorem followed_empty : Followed caseSensitive (([], empty) : List Symbol × Directory Content) :=
  ⟨orderly_iff.mpr ⟨List.Pairwise.nil, fun _ _ among => absurd among List.not_mem_nil⟩, rfl⟩

/-- No step makes a name double or breaks the path. -/
theorem Step.followed {place next : List Symbol × Directory Content} (step : Step caseSensitive place next)
    (followed : Followed caseSensitive place) : Followed caseSensitive next := by
  obtain ⟨orderly, present⟩ := followed
  cases step with
  | stored name content vacant =>
    refine ⟨orderly.replaceAt ((orderly.along _).insert name fun inner same => ?_) _,
      missing?_replaceAt present⟩
    cases same
  | removed name found =>
    exact ⟨orderly.replaceAt ((orderly.along _).remove name) _, missing?_replaceAt present⟩
  | founded name vacant =>
    refine ⟨orderly.replaceAt ((orderly.along _).insert name fun inner same => ?_) _,
      missing?_replaceAt present⟩
    obtain rfl := Entry.directory.inj same
    exact followed_empty.orderly
  | entered name inside => exact ⟨orderly, missing?_append present inside⟩
  | ascended => exact ⟨orderly, missing?_dropLast present⟩
  | returned => exact ⟨orderly, rfl⟩

/-- A row of steps. -/
abbrev Steps (caseSensitive : Bool) :
    List Symbol × Directory Content → List Symbol × Directory Content → Prop :=
  Relation.ReflTransGen (Step caseSensitive)

/-- No row of steps makes a name double or breaks the path. -/
theorem Steps.followed {place next : List Symbol × Directory Content}
    (steps : Steps caseSensitive place next) (followed : Followed caseSensitive place) :
    Followed caseSensitive next := by
  induction steps with
  | refl => exact followed
  | tail _ step inductionHypothesis => exact step.followed inductionHypothesis

end Directory

end Calculator
