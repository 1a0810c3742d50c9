import Calculator.Memory.Directory
import Calculator.Proofs.Symbol
import Mathlib

/-!
# Directories with their values replaced

Every operation on a directory treats the values in it as they come. So it makes no difference
whether the values of a directory are replaced before an operation or after it, and no
operation brings in a value that neither the directory nor the operation's arguments hold. What is
put under a name, or at the end of a path, is found there.
-/

namespace Calculator

namespace Directory

variable {Content Replaced Other : Type}

/-! ## Values in a directory -/

/-- The values of a directory are those of its entries. -/
theorem mem_contents {entries : Directory Content} {content : Content} :
    content ∈ contents entries ↔ ∃ named ∈ entries, content ∈ contentsOfEntry named.2 := by
  induction entries with
  | nil => simp [contents]
  | cons named others inductionHypothesis =>
    obtain ⟨name, entry⟩ := named
    rw [contents, List.mem_append, inductionHypothesis]
    simp

/-- The entry with a name is one of the directory's. -/
theorem exists_mem_of_find? {entries : Directory Content} {name : Symbol} {caseSensitive : Bool}
    {entry : Entry Content} (found : find? entries name caseSensitive = some entry) :
    ∃ named ∈ entries, named.2 = entry := by
  rw [find?, Option.map_eq_some_iff] at found
  obtain ⟨named, first, second⟩ := found
  exact ⟨named, List.mem_of_find?_eq_some first, second⟩

/-- The value under a name is one of the directory's. -/
theorem mem_contents_of_find? {entries : Directory Content} {name : Symbol}
    {caseSensitive : Bool} {content : Content}
    (found : find? entries name caseSensitive = some (.value content)) :
    content ∈ contents entries := by
  obtain ⟨named, among, same⟩ := exists_mem_of_find? found
  refine mem_contents.mpr ⟨named, among, ?_⟩
  rw [same, contentsOfEntry]
  exact List.mem_singleton_self content

/-- The values of a subdirectory are values of the directory. -/
theorem mem_contents_of_subdirectory? {entries inner : Directory Content} {name : Symbol}
    {caseSensitive : Bool} {content : Content}
    (found : subdirectory? entries name caseSensitive = some inner)
    (held : content ∈ contents inner) : content ∈ contents entries := by
  unfold subdirectory? at found
  split at found
  · rename_i entered directory
    obtain rfl := Option.some.inj found
    obtain ⟨named, among, same⟩ := exists_mem_of_find? directory
    refine mem_contents.mpr ⟨named, among, ?_⟩
    rw [same, contentsOfEntry]
    exact held
  · simp at found

/-- The values of the last directory along a path are values of the directory. -/
theorem mem_contents_of_along {caseSensitive : Bool} {path : List Symbol}
    {entries : Directory Content} {content : Content}
    (held : content ∈ contents (along caseSensitive path entries)) :
    content ∈ contents entries := by
  induction path generalizing entries with
  | nil => exact held
  | cons name path inductionHypothesis =>
    rw [along] at held
    split at held
    · rename_i inner found
      exact mem_contents_of_subdirectory? found (inductionHypothesis held)
    · exact held

/-- The values of the directories along a path are values of the directory. -/
theorem mem_contents_of_chain {caseSensitive : Bool} {path : List Symbol}
    {entries inner : Directory Content} {content : Content}
    (among : inner ∈ chain caseSensitive path entries) (held : content ∈ contents inner) :
    content ∈ contents entries := by
  induction path generalizing entries with
  | nil =>
    obtain rfl := List.mem_singleton.mp among
    exact held
  | cons name path inductionHypothesis =>
    rw [chain] at among
    split at among
    · rename_i deeper found
      rcases List.mem_cons.mp among with rfl | among
      · exact held
      · exact mem_contents_of_subdirectory? found (inductionHypothesis among)
    · obtain rfl := List.mem_singleton.mp among
      exact held

/-- An insertion brings in no values but those of the new entry. -/
theorem mem_contents_of_insert {entries : Directory Content} {name : Symbol}
    {entry : Entry Content} {caseSensitive : Bool} {content : Content}
    (held : content ∈ contents (insert name entry caseSensitive entries)) :
    content ∈ contentsOfEntry entry ∨ content ∈ contents entries := by
  induction entries with
  | nil => simpa [insert, contents] using held
  | cons named others inductionHypothesis =>
    obtain ⟨spelled, former⟩ := named
    rw [insert] at held
    rw [contents, List.mem_append]
    split at held
    · rw [contents, List.mem_append] at held
      exact held.imp_right .inr
    · rw [contents, List.mem_append] at held
      rcases held with held | held
      · exact .inr (.inl held)
      · exact (inductionHypothesis held).imp_right .inr

/-- A removal brings in no values. -/
theorem mem_contents_of_remove {entries : Directory Content} {name : Symbol}
    {caseSensitive : Bool} {content : Content}
    (held : content ∈ contents (remove entries name caseSensitive)) :
    content ∈ contents entries := by
  obtain ⟨named, among, inside⟩ := mem_contents.mp held
  exact mem_contents.mpr ⟨named, List.mem_of_mem_eraseP among, inside⟩

/-- The replacement of the directory at the end of a path brings in no values but those of the
replacement. -/
theorem mem_contents_of_replaceAt {caseSensitive : Bool} {replacement : Directory Content}
    {path : List Symbol} {entries : Directory Content} {content : Content}
    (held : content ∈ contents (replaceAt caseSensitive replacement path entries)) :
    content ∈ contents replacement ∨ content ∈ contents entries := by
  induction path generalizing entries with
  | nil => exact .inl held
  | cons name path inductionHypothesis =>
    rw [replaceAt] at held
    split at held
    · rename_i inner found
      rcases mem_contents_of_insert held with held | held
      · rw [contentsOfEntry] at held
        exact (inductionHypothesis held).imp_right (mem_contents_of_subdirectory? found)
      · exact .inr held
    · exact .inr held

/-! ## Finding what was put there -/

/-- An entry is found under the name that it was inserted with. -/
theorem find?_insert (entries : Directory Content) (name : Symbol) (entry : Entry Content)
    (caseSensitive : Bool) :
    find? (insert name entry caseSensitive entries) name caseSensitive = some entry := by
  induction entries with
  | nil => simp [insert, find?, Symbol.sameAs_self]
  | cons named others inductionHypothesis =>
    rw [insert]
    by_cases same : named.1.sameAs name caseSensitive = true
    · simp [find?, same]
    · simpa [find?, same] using inductionHypothesis

/-- A directory that is replaced at the end of a path is found there. -/
theorem along_replaceAt {caseSensitive : Bool} {replacement : Directory Content}
    {path : List Symbol} {entries : Directory Content}
    (present : missing? caseSensitive path entries = none) :
    along caseSensitive path (replaceAt caseSensitive replacement path entries) = replacement := by
  induction path generalizing entries with
  | nil => rfl
  | cons name path inductionHypothesis =>
    rw [missing?] at present
    cases found : subdirectory? entries name caseSensitive with
    | none => simp [found] at present
    | some inner =>
      simp only [found] at present
      rw [replaceAt, found, along, subdirectory?, find?_insert]
      exact inductionHypothesis present

/-- The last of the directories along a path is the one at its end. -/
theorem exists_chain_eq (caseSensitive : Bool) (path : List Symbol)
    (entries : Directory Content) :
    ∃ around, chain caseSensitive path entries = around ++ [along caseSensitive path entries] := by
  induction path generalizing entries with
  | nil => exact ⟨[], rfl⟩
  | cons name path inductionHypothesis =>
    rw [chain, along]
    cases subdirectory? entries name caseSensitive with
    | none => exact ⟨[], rfl⟩
    | some inner =>
      obtain ⟨around, inside⟩ := inductionHypothesis inner
      exact ⟨entries :: around, congrArg (entries :: ·) inside⟩

/-! ## Replacement of values -/

variable (replace : Content → Replaced)

mutual

/-- The values of a directory are replaced one by one. -/
theorem contents_map : ∀ entries : Directory Content,
    contents (map replace entries) = (contents entries).map replace
  | [] => rfl
  | (_, entry) :: others => by
    rw [map, contents, contents, contentsOfEntry_mapEntry entry, contents_map others,
      List.map_append]

/-- The values of an entry are replaced one by one. -/
theorem contentsOfEntry_mapEntry : ∀ entry : Entry Content,
    contentsOfEntry (mapEntry replace entry) = (contentsOfEntry entry).map replace
  | .value _ => rfl
  | .directory entries => by
    rw [mapEntry, contentsOfEntry, contentsOfEntry, contents_map entries]

end

mutual

/-- Only the values that are there matter for a replacement. -/
theorem map_congr {replace other : Content → Replaced} : ∀ entries : Directory Content,
    (∀ content ∈ contents entries, replace content = other content) →
      map replace entries = map other entries
  | [], _ => rfl
  | (_, entry) :: others, same => by
    rw [contents] at same
    rw [map, map, mapEntry_congr entry fun content held => same content
      (List.mem_append_left _ held), map_congr others fun content held => same content
      (List.mem_append_right _ held)]

/-- Only the values that are there matter for a replacement. -/
theorem mapEntry_congr {replace other : Content → Replaced} : ∀ entry : Entry Content,
    (∀ content ∈ contentsOfEntry entry, replace content = other content) →
      mapEntry replace entry = mapEntry other entry
  | .value content, same => by
    rw [contentsOfEntry] at same
    rw [mapEntry, mapEntry, same content (List.mem_singleton_self content)]
  | .directory entries, same => by
    rw [contentsOfEntry] at same
    rw [mapEntry, mapEntry, map_congr entries same]

end

mutual

/-- Two replacements in a row are one. -/
theorem map_map (again : Replaced → Other) : ∀ entries : Directory Content,
    map again (map replace entries) = map (again ∘ replace) entries
  | [] => rfl
  | (_, entry) :: others => by
    rw [map, map, map, mapEntry_mapEntry again entry, map_map again others]

/-- Two replacements in a row are one. -/
theorem mapEntry_mapEntry (again : Replaced → Other) : ∀ entry : Entry Content,
    mapEntry again (mapEntry replace entry) = mapEntry (again ∘ replace) entry
  | .value _ => rfl
  | .directory entries => by rw [mapEntry, mapEntry, mapEntry, map_map again entries]

end

mutual

/-- Every value replaced by itself leaves the tree as it is. -/
theorem map_itself : ∀ entries : Directory Content, map (fun content => content) entries = entries
  | [] => rfl
  | (_, entry) :: others => by rw [map, mapEntry_itself entry, map_itself others]

/-- Every value replaced by itself leaves the entry as it is. -/
theorem mapEntry_itself : ∀ entry : Entry Content, mapEntry (fun content => content) entry = entry
  | .value _ => rfl
  | .directory entries => by rw [mapEntry, map_itself entries]

end

/-- The entry with a name is found before and after its values are replaced. -/
theorem find?_map (entries : Directory Content) (name : Symbol) (caseSensitive : Bool) :
    find? (map replace entries) name caseSensitive =
      (find? entries name caseSensitive).map (mapEntry replace) := by
  induction entries with
  | nil => rfl
  | cons named others inductionHypothesis =>
    obtain ⟨spelled, entry⟩ := named
    rw [map]
    unfold find? at inductionHypothesis ⊢
    rw [List.find?_cons, List.find?_cons]
    by_cases same : spelled.sameAs name caseSensitive = true
    · simp [same]
    · simpa [same] using inductionHypothesis

/-- An insertion commutes with the replacement of values. -/
theorem insert_map (name : Symbol) (entry : Entry Content) (caseSensitive : Bool)
    (entries : Directory Content) :
    insert name (mapEntry replace entry) caseSensitive (map replace entries) =
      map replace (insert name entry caseSensitive entries) := by
  induction entries with
  | nil => rfl
  | cons named others inductionHypothesis =>
    obtain ⟨spelled, former⟩ := named
    rw [map, insert, insert]
    by_cases same : spelled.sameAs name caseSensitive = true
    · rw [if_pos same, if_pos same, map]
    · rw [if_neg same, if_neg same, map, inductionHypothesis]

/-- A removal commutes with the replacement of values. -/
theorem remove_map (entries : Directory Content) (name : Symbol) (caseSensitive : Bool) :
    remove (map replace entries) name caseSensitive =
      map replace (remove entries name caseSensitive) := by
  induction entries with
  | nil => rfl
  | cons named others inductionHypothesis =>
    obtain ⟨spelled, entry⟩ := named
    unfold remove at inductionHypothesis ⊢
    rw [map, List.eraseP_cons, List.eraseP_cons]
    dsimp only
    cases spelled.sameAs name caseSensitive with
    | true => rfl
    | false => rw [cond_false, cond_false, map, inductionHypothesis]

/-- The subdirectory with a name is found before and after values are replaced. -/
theorem subdirectory?_map (entries : Directory Content) (name : Symbol) (caseSensitive : Bool) :
    subdirectory? (map replace entries) name caseSensitive =
      (subdirectory? entries name caseSensitive).map (map replace) := by
  unfold subdirectory?
  rw [find?_map]
  cases find? entries name caseSensitive with
  | none => rfl
  | some entry =>
    cases entry with
    | value content => rfl
    | directory inner => rw [Option.map_some, mapEntry, Option.map_some]

/-- The directories along a path are found before and after values are replaced. -/
theorem chain_map (caseSensitive : Bool) (path : List Symbol) (entries : Directory Content) :
    chain caseSensitive path (map replace entries) =
      (chain caseSensitive path entries).map (map replace) := by
  induction path generalizing entries with
  | nil => rfl
  | cons name path inductionHypothesis =>
    rw [chain, chain, subdirectory?_map]
    cases subdirectory? entries name caseSensitive with
    | none => rfl
    | some inner =>
      rw [Option.map_some, List.map_cons, ← inductionHypothesis]

/-- The last directory along a path is found before and after values are replaced. -/
theorem along_map (caseSensitive : Bool) (path : List Symbol) (entries : Directory Content) :
    along caseSensitive path (map replace entries) =
      map replace (along caseSensitive path entries) := by
  induction path generalizing entries with
  | nil => rfl
  | cons name path inductionHypothesis =>
    rw [along, along, subdirectory?_map]
    cases subdirectory? entries name caseSensitive with
    | none => rfl
    | some inner => exact inductionHypothesis inner

/-- How far a path can be followed does not depend on the values. -/
theorem missing?_map (caseSensitive : Bool) (path : List Symbol) (entries : Directory Content) :
    missing? caseSensitive path (map replace entries) = missing? caseSensitive path entries := by
  induction path generalizing entries with
  | nil => rfl
  | cons name path inductionHypothesis =>
    rw [missing?, missing?, subdirectory?_map]
    cases subdirectory? entries name caseSensitive with
    | none => rfl
    | some inner => exact inductionHypothesis inner

/-- The replacement of a directory at the end of a path commutes with that of values. -/
theorem replaceAt_map (caseSensitive : Bool) (replacement : Directory Content)
    (path : List Symbol) (entries : Directory Content) :
    replaceAt caseSensitive (map replace replacement) path (map replace entries) =
      map replace (replaceAt caseSensitive replacement path entries) := by
  induction path generalizing entries with
  | nil => rfl
  | cons name path inductionHypothesis =>
    rw [replaceAt, replaceAt, subdirectory?_map]
    cases subdirectory? entries name caseSensitive with
    | none => rfl
    | some inner =>
      simp only [Option.map_some]
      rw [inductionHypothesis, ← insert_map, mapEntry]

end Directory

end Calculator
