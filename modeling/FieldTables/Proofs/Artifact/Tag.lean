import FieldTables.Proofs.Accessor.Selection
import FieldTables.Proofs.Artifact.Identifier
import FieldTables.Proofs.Source.Lexing

/-!
# How the tags of enumerations are used

Structures and enumerations share their tags, so no text of both files should name a structure by
the tag of an enumeration. Declarations and signatures only name the declared structures, and the
tag of an enumeration is none of these. But a size is taken of the type that a field is declared
with, and a pointer or an array length may name a structure that is not declared.
-/

namespace FieldTables

open Outcome Text

namespace Text

variable {s t tag : Text} {c : Char}

/-- A text names a structure: the keyword and the tag stand in it as words, with nothing but blanks
between them. -/
def NamesStructure (t tag : Text) : Prop :=
  ∃ front gap back : Text, t = front ++ (structKeyword ++ gap ++ tag) ++ back ∧
    front.endsApart = true ∧ gap ≠ [] ∧ (∀ c ∈ gap, isBlank c = true) ∧ back.startsApart = true

/-- There are no words in blanks. -/
theorem words_of_isBlank (blank : ∀ c ∈ t, isBlank c = true) : t.words = [] := by
  induction t with
  | nil => rfl
  | cons c rest ih =>
    obtain ⟨here, later⟩ := List.forall_mem_cons.mp blank
    rw [words_cons (isNameCharacter_of_isBlank here), ih later]

/-- Blanks keep words apart. -/
theorem separates_of_isBlank (nonempty : t ≠ []) (blank : ∀ c ∈ t, isBlank c = true) :
    t.separates = true := by
  have other : ∀ c ∈ t, (!isNameCharacter c) = true := fun c mem => by
    rw [isNameCharacter_of_isBlank (blank c mem), Bool.not_false]
  rw [separates, startsApart, endsApart, List.head?_eq_some_head nonempty,
    List.getLast?_eq_some_getLast nonempty, Option.all_some, Option.all_some,
    other _ (List.head_mem nonempty), other _ (List.getLast_mem nonempty),
    List.isEmpty_eq_false_iff.mpr nonempty]
  rfl

/-- The keyword and the tag of a structure that is named are words behind each other. -/
theorem NamesStructure.words_isInfix (names : t.NamesStructure tag) (word : tag.IsWord) :
    [structKeyword, tag] <:+: t.words := by
  obtain ⟨front, gap, back, rfl, before, nonempty, blank, behind⟩ := names
  have keyword : structKeyword.words = [structKeyword] := by decide
  refine ⟨front.words, back.words, ?_⟩
  rw [words_append_of_startsApart _ behind, words_append_of_endsApart _ before,
    words_append_append _ _ (separates_of_isBlank nonempty blank), keyword, words_of_isBlank blank,
    word.words_eq]
  rfl

theorem not_namesStructure_nil : ¬NamesStructure [] tag := by
  rintro ⟨front, gap, back, split, -⟩
  have nonempty : structKeyword ≠ [] := by decide
  simp [nonempty] at split

/-- A run that a character is not in stands on one side of the character. -/
private theorem append_cons_eq_append_iff {front run back : Text} (apart : c ∉ run) :
    s ++ c :: t = front ++ run ++ back ↔
      (∃ rest, s = front ++ run ++ rest ∧ back = rest ++ c :: t) ∨
        ∃ rest, t = rest ++ run ++ back ∧ front = s ++ c :: rest := by
  constructor
  · intro split
    rcases List.append_eq_append_iff.mp split with ⟨later, whole, same⟩ | ahead
    · cases later with
      | nil => exact .inl ⟨[], by rw [whole, List.append_nil, List.append_nil], same.symm⟩
      | cons d later =>
        obtain ⟨rfl, rfl⟩ := List.cons.inj same
        rcases List.append_eq_append_iff.mp whole with ⟨more, -, tail⟩ | ⟨more, rfl, tail⟩
        · exact absurd (tail ▸ List.mem_append_right more List.mem_cons_self) apart
        · cases more with
          | nil =>
            rw [List.nil_append] at tail
            exact absurd (tail ▸ List.mem_cons_self) apart
          | cons e more =>
            obtain ⟨rfl, rfl⟩ := List.cons.inj tail
            exact .inr ⟨more, rfl, rfl⟩
    · exact .inl ahead
  · rintro (⟨rest, rfl, rfl⟩ | ⟨rest, rfl, rfl⟩) <;> simp

/-- What a text starts with is decided in front of a character that is in no name. -/
private theorem startsApart_append_cons (other : isNameCharacter c = false) :
    startsApart (s ++ c :: t) = s.startsApart := by
  cases s with
  | nil => simp [startsApart, other]
  | cons d rest => rfl

/-- What a text ends with is decided behind a character that is in no name. -/
private theorem endsApart_append_cons (other : isNameCharacter c = false) :
    endsApart (s ++ c :: t) = t.endsApart := by
  cases t with
  | nil => simp [endsApart, other]
  | cons d rest => rw [endsApart, List.getLast?_append_cons, List.getLast?_cons_cons, endsApart]

/-- A structure is named on one side of a character that is neither in a name nor blank. -/
theorem namesStructure_append_cons (word : tag.IsWord) (other : isNameCharacter c = false)
    (visible : isBlank c = false) :
    NamesStructure (s ++ c :: t) tag ↔ s.NamesStructure tag ∨ t.NamesStructure tag := by
  have run : ∀ gap : Text, (∀ c ∈ gap, isBlank c = true) → c ∉ structKeyword ++ gap ++ tag := by
    intro gap blank
    have keyword : ∀ c ∈ structKeyword, isNameCharacter c = true := List.all_eq_true.mp (by decide)
    rw [List.mem_append, List.mem_append]
    rintro ((letter | space) | letter)
    · cases other.symm.trans (keyword c letter)
    · cases visible.symm.trans (blank c space)
    · cases other.symm.trans (word.isName c letter)
  constructor
  · rintro ⟨front, gap, back, split, before, nonempty, blank, behind⟩
    rcases (append_cons_eq_append_iff (run gap blank)).mp split with
      ⟨rest, rfl, rfl⟩ | ⟨rest, rfl, rfl⟩
    · rw [startsApart_append_cons other] at behind
      exact .inl ⟨front, gap, rest, rfl, before, nonempty, blank, behind⟩
    · rw [endsApart_append_cons other] at before
      exact .inr ⟨rest, gap, back, rfl, before, nonempty, blank, behind⟩
  · rintro (⟨front, gap, back, rfl, before, nonempty, blank, behind⟩ |
      ⟨front, gap, back, rfl, before, nonempty, blank, behind⟩)
    · exact ⟨front, gap, back ++ c :: t, by simp, before, nonempty, blank,
        (startsApart_append_cons other).trans behind⟩
    · exact ⟨s ++ c :: front, gap, back, by simp, (endsApart_append_cons other).trans before,
        nonempty, blank, behind⟩

end Text

/-- The size of a field is taken of its type and its array length, and one of these names a
structure when the operand does. -/
theorem Field.namesStructure_sizedType_iff {f : Field} {tag : Text} (word : tag.IsWord) :
    f.sizedType.NamesStructure tag ↔
      f.type.NamesStructure tag ∨ ∃ length ∈ f.length, length.NamesStructure tag := by
  unfold sizedType
  cases f.length with
  | none => simp
  | some length =>
    dsimp only
    have shape : f.type ++ '[' :: length ++ [']'] = f.type ++ '[' :: (length ++ ']' :: []) := by
      simp
    rw [shape, namesStructure_append_cons word (by decide) (by decide),
      namesStructure_append_cons word (by decide) (by decide), or_iff_left not_namesStructure_nil]
    simp

/-- A signature names no structure but that of the instance. -/
theorem Accessor.eq_tag_of_namesStructure {a : Accessor} {tag : Text} (name : a.name.IsWord)
    (own : a.tag.IsWord) (inst : a.inst.IsWord) (word : tag.IsWord)
    (names : a.signature.NamesStructure tag) : tag = a.tag := by
  have shape : a.signature = ("int ".toList ++ a.name) ++ '(' :: ("int ev".toList ++
      ',' :: ((" struct ".toList ++ a.tag ++ [' ']) ++ '*' :: (a.inst ++
        ',' :: " void **fieldptr, unsigned int *size)".toList))) := by
    simp [signature_eq]
  have function : words ("int ".toList ++ a.name) = ["int".toList, a.name] := by
    rw [words_append_of_endsApart _ (by decide), name.words_eq]
    rfl
  have held : words (" struct ".toList ++ a.tag ++ [' ']) = [structKeyword, a.tag] := by
    rw [words_append_of_startsApart _ (by decide), words_append_of_endsApart _ (by decide),
      own.words_eq]
    rfl
  have value : structKeyword ∉ words "int ev".toList := by decide
  have stored : structKeyword ∉ words " void **fieldptr, unsigned int *size)".toList := by decide
  rw [shape, namesStructure_append_cons word (c := '(') (by decide) (by decide),
    namesStructure_append_cons word (c := ',') (by decide) (by decide),
    namesStructure_append_cons word (c := '*') (by decide) (by decide),
    namesStructure_append_cons word (c := ',') (by decide) (by decide)] at names
  rcases names with here | here | here | here | here <;> have within := here.words_isInfix word
  · rw [function] at within
    have start := (List.cons.inj (within.eq_of_length rfl)).1
    exact absurd start (by decide)
  · exact absurd (within.subset List.mem_cons_self) value
  · rw [held] at within
    exact (List.cons.inj (List.cons.inj (within.eq_of_length rfl)).2).1
  · rw [inst.words_eq] at within
    exact absurd within.length_le (by simp)
  · exact absurd (within.subset List.mem_cons_self) stored

/-- How both files use the tag of an enumeration, when they are read for a declared header. -/
structure Listing.UsesTag (declared : Header) (listing : Listing) (tag : Text) : Prop where
  /-- No structure is declared with the tag. -/
  undeclared : tag ∉ declared.names
  /-- Nothing in the enum header declares a structure with the tag or names one. -/
  declarations : ∀ d ∈ listing.declarations, d.tag ≠ tag ∧ ¬d.prototype.NamesStructure tag
  /-- No accessor takes a structure with the tag. -/
  definitions : ∀ a ∈ listing.definitions, ¬a.signature.NamesStructure tag
  /-- A size is taken of a type that names a structure with the tag exactly when a declared field,
  that holds no structure by value, names one in its type or in its array length. -/
  operands : (∃ t ∈ listing.tables, ∃ operand ∈ t.operands, operand.NamesStructure tag) ↔
    ∃ s ∈ declared.entries, ∃ f ∈ s.fields.entries, f.inner = none ∧
      (f.type.NamesStructure tag ∨ ∃ length ∈ f.length, length.NamesStructure tag)

namespace Header

variable {settings : Settings} {declared flat : Header} {text tag : Text} {out : Artifacts}

/-- The structures of a flat header have the names of the declared ones. -/
theorem names_of_flatten (ok : declared.flatten = .ok flat) : flat.names = declared.names := by
  have pairs := (forall₂_of_flatten ok).flip.imp fun t s here => here.2.1
  rw [← List.forall₂_eq_eq_eq, Roster.names, Roster.names, List.forall₂_map_left_iff,
    List.forall₂_map_right_iff]
  exact pairs

/-- When artifacts are generated from a text, the tag of an enumeration is the tag of no structure
that is declared, forward or as the instance of an accessor. It is used for a structure in the size
tables exactly when a field that holds no structure by value is declared so. -/
theorem generate_uses_tags (ok : generate settings text = .ok out) :
    ∃ declared listing, ofStatements settings.extraTypes (Statement.ofText text) = .ok declared ∧
      Listing.read out.enumHeader out.source = some listing ∧
      ∀ e ∈ listing.enumerations, listing.UsesTag declared e.tag := by
  obtain ⟨flat, compiled, rfl, spelled, reads⟩ := exists_printed_of_generate ok
  obtain ⟨declared, read, flattened, checked⟩ := compile_eq_ok_iff.mp compiled
  refine ⟨declared, flat.listing settings, read, read_artifacts reads, ?_⟩
  intro e listed
  obtain ⟨s, hs, rfl⟩ := List.mem_map.mp listed
  have word : (s.enumeration settings).tag.IsWord :=
    isWord_of_isIdentifier (Labels.isIdentifier_enumTag (spelled s hs).tag)
  have distinct := (checkSymbols_eq_ok_iff.mp checked).1
  have other : (s.enumeration settings).tag ∉ flat.names := fun mem =>
    (List.nodup_append.mp distinct).2.2 _ mem _ (List.mem_map_of_mem hs) rfl
  have apart : ∀ t ∈ flat.entries,
      ¬(t.accessor settings).signature.NamesStructure (s.enumeration settings).tag := by
    intro t ht names
    have short : (t.labels settings).short.IsWord := Structure.isWord_short (spelled t ht).tag
    have name : (t.accessor settings).name.IsWord := short.append (by decide)
    have same := Accessor.eq_tag_of_namesStructure name (isWord_of_isIdentifier (spelled t ht).tag)
      short word names
    exact other (same ▸ List.mem_map_of_mem ht)
  constructor
  · rwa [← names_of_flatten flattened]
  · refine List.forall_mem_map.mpr fun t ht => ⟨?_, apart t ht⟩
    rintro same
    exact other (same ▸ List.mem_map_of_mem ht)
  · exact List.forall_mem_map.mpr apart
  · have sizes : (∃ t ∈ flat.entries, ∃ f ∈ t.fields.entries,
        f.sizedType.NamesStructure (s.enumeration settings).tag) ↔ _ :=
      exists_flat_iff (declared_of_ofStatements read) flattened fun f g type length names =>
        sizedType_congr type length ▸ names
    simp only [Field.namesStructure_sizedType_iff word] at sizes
    simp only [listing, List.mem_map, exists_exists_and_eq_and, Structure.sizeTable,
      Field.namesStructure_sizedType_iff word]
    exact sizes

/-- Structures that name others by the tags of enumerations, one in an array length, and one that
does not. -/
def ownerText : Text :=
  ("struct evfs_a { struct evfs_b in; int n[sizeof(struct evfs_c_field)]; };\n" ++
    "struct evfs_b { const struct evfs_a_field **own; };\nstruct evfs_c { int x; };").toList

theorem generate_uses_tags_ownerText :
    ∃ out, generate {} ownerText = .ok out ∧
      (∃ declared listing, ofStatements [] (Statement.ofText ownerText) = .ok declared ∧
        Listing.read out.enumHeader out.source = some listing ∧
        ∀ e ∈ listing.enumerations, listing.UsesTag declared e.tag) ∧
      (compile {} ownerText).toOption.map (fun flat => flat.entries.map fun s =>
        (s.enumeration {}).tag :: (s.sizeTable {}).operands) =
          some [["evfs_a_field".toList, "const struct evfs_a_field **".toList,
              "int[sizeof(struct evfs_c_field)]".toList],
            ["evfs_b_field".toList, "const struct evfs_a_field **".toList],
            ["evfs_c_field".toList, "int".toList]] := by
  have operands : (compile {} ownerText).toOption.map (fun flat => flat.entries.map fun s =>
      (s.enumeration {}).tag :: (s.sizeTable {}).operands) =
        some [["evfs_a_field".toList, "const struct evfs_a_field **".toList,
            "int[sizeof(struct evfs_c_field)]".toList],
          ["evfs_b_field".toList, "const struct evfs_a_field **".toList],
          ["evfs_c_field".toList, "int".toList]] := by decide +kernel
  obtain ⟨-, out, -, ok, -⟩ := exists_listing_of_compile operands
  obtain ⟨declared, listing, read, listed, uses⟩ := generate_uses_tags ok
  exact ⟨out, ok, ⟨declared, listing, read, listed, uses⟩, operands⟩

/-- A structure with a pointer to one that has the tag of its enumeration. -/
def linkText : Text := "struct evfs_a \x7b int x; struct evfs_a_field *p; \x7d;".toList

/-- A size is taken of a type that names a structure by the tag of the enumeration. -/
theorem namesStructure_enumTag_linkText :
    ∃ out listing, generate {} linkText = .ok out ∧
      Listing.read out.enumHeader out.source = some listing ∧
      listing.enumerations.map Enumeration.tag = ["evfs_a_field".toList] ∧
      listing.tables.map SizeTable.operands = [["int".toList, "struct evfs_a_field *".toList]] ∧
      NamesStructure "struct evfs_a_field *".toList "evfs_a_field".toList := by
  have named : (compile {} linkText).toOption.map (fun flat =>
      ((flat.listing {}).enumerations.map Enumeration.tag,
        (flat.listing {}).tables.map SizeTable.operands)) =
      some (["evfs_a_field".toList], [["int".toList, "struct evfs_a_field *".toList]]) := by
    decide +kernel
  obtain ⟨flat, out, -, ok, -, read, both⟩ := exists_listing_of_compile named
  obtain ⟨tags, operands⟩ := Prod.mk.inj both
  exact ⟨out, flat.listing {}, ok, read, tags, operands,
    [], [' '], " *".toList, by decide, rfl, by decide, List.all_eq_true.mp (by decide), by decide⟩

end Header

end FieldTables
