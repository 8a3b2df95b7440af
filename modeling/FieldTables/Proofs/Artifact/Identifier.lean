import FieldTables.Proofs.Artifact.Agreement
import FieldTables.Proofs.Symbol.Distinctness
import FieldTables.Proofs.Symbol.Identifier
import FieldTables.Proofs.Text.Word

/-!
# The identifiers of both files

What both files introduce is read back from their texts: the guard, and for each structure the tag
of its enumeration, its enumerators, its size table, and its accessor with the parameters. The guard
and the tags are identifiers. The other names are identifiers as long as the name space does not end
right in front of a digit of the structure's name.
-/

namespace FieldTables

open Text Outcome

namespace Text

variable {s t : Text} {c : Char}

/-- Whether a declaration of a function goes on with a parameter behind the character. -/
def isParameterMark (c : Char) : Bool := c == '(' || c == ','

/-- What the declaration of a function names: itself and its parameters, each behind its type. -/
def declarators (t : Text) : List Text :=
  (t.splitOnP isParameterMark).filterMap fun part => (words part).getLast?

/-- The macro that the first paragraph of a text defines. -/
def guard? (t : Text) : Option Text := do
  let paragraph ← t.paragraphs.head?
  paragraph.findSome? fun line => line.dropPrefix? "#define ".toList

theorem declarators_append_cons (mark : isParameterMark c = true) :
    declarators (s ++ c :: t) = s.declarators ++ t.declarators := by
  rw [declarators, List.splitOnP_append_cons s t mark, List.filterMap_append, declarators,
    declarators]

/-- A part of a declaration names its last word. -/
theorem declarators_eq_getLast (whole : t.any isParameterMark = false) :
    t.declarators = t.words.getLast?.toList := by
  have uncut : ∀ c ∈ t, isParameterMark c = false := by simpa using whole
  rw [declarators, List.splitOnP_eq_singleton uncut, List.filterMap_cons]
  cases t.words.getLast? with
  | none => rfl
  | some word => rfl

theorem IsName.any_isParameterMark (name : t.IsName) : t.any isParameterMark = false := by
  refine List.any_eq_false.mpr fun c mem mark => ?_
  have letter := name c mem
  simp only [isParameterMark, Bool.or_eq_true, beq_iff_eq] at mark
  rcases mark with rfl | rfl
  · exact absurd letter (by decide)
  · exact absurd letter (by decide)

end Text

namespace Accessor

variable {a : Accessor}

theorem signature_eq (a : Accessor) :
    a.signature = "int ".toList ++ a.name ++ "(int ev, struct ".toList ++ a.tag ++ " *".toList ++
      a.inst ++ ", void **fieldptr, unsigned int *size)".toList := rfl

/-- The words of a signature. -/
theorem words_signature (name : a.name.IsWord) (tag : a.tag.IsWord) (inst : a.inst.IsWord) :
    a.signature.words = ["int".toList, a.name] ++ ["int".toList, "ev".toList, "struct".toList] ++
      [a.tag] ++ [a.inst] ++ ["void".toList, "fieldptr".toList, "unsigned".toList, "int".toList,
        "size".toList] := by
  have start : words "int ".toList = ["int".toList] := by decide
  have first : words "(int ev, struct ".toList =
    ["int".toList, "ev".toList, "struct".toList] := by decide
  have star : words " *".toList = [] := by decide
  have last : words ", void **fieldptr, unsigned int *size)".toList =
    ["void".toList, "fieldptr".toList, "unsigned".toList, "int".toList, "size".toList] := by decide
  rw [signature_eq, words_append_of_startsApart _ (by decide), words_append_append _ _ (by decide),
    words_append_append _ _ (by decide), words_append_of_endsApart _ (by decide), start, first,
    star, last, name.words_eq, tag.words_eq, inst.words_eq, List.append_nil]
  rfl

/-- A signature names the function, the enumerator, the instance, and where the address and the size
are stored. -/
theorem declarators_signature (name : a.name.IsWord) (tag : a.tag.IsName) (inst : a.inst.IsWord) :
    a.signature.declarators =
      [a.name, "ev".toList, a.inst, "fieldptr".toList, "size".toList] := by
  have shape : a.signature = ("int ".toList ++ a.name) ++ '(' :: ("int ev".toList ++
      ',' :: ((" struct ".toList ++ a.tag ++ " *".toList ++ a.inst) ++
        ',' :: " void **fieldptr, unsigned int *size)".toList)) := by
    simp [signature_eq]
  have function : declarators ("int ".toList ++ a.name) = [a.name] := by
    rw [declarators_eq_getLast, words_append_of_endsApart _ (by decide), name.words_eq]
    · simp
    · rw [List.any_append, name.isName.any_isParameterMark]
      rfl
  have held : declarators (" struct ".toList ++ a.tag ++ " *".toList ++ a.inst) = [a.inst] := by
    rw [declarators_eq_getLast, words_append_append _ _ (by decide), inst.words_eq]
    · simp
    · simp only [List.any_append, tag.any_isParameterMark, inst.isName.any_isParameterMark]
      rfl
  have value : declarators "int ev".toList = ["ev".toList] := by decide
  have stores : declarators " void **fieldptr, unsigned int *size)".toList =
    ["fieldptr".toList, "size".toList] := by decide
  rw [shape, declarators_append_cons rfl, declarators_append_cons rfl, declarators_append_cons rfl,
    function, value, held, stores]
  rfl

end Accessor

/-- With usable settings, the guard of the enum header is an identifier. -/
theorem Settings.isIdentifier_guard {settings : Settings} (usable : settings.validate = .ok ()) :
    settings.guard.isIdentifier = true := by
  apply Symbol.isIdentifier_guardName
  intro empty
  have blank : settings.headerName.trim.isEmpty = true := by
    rw [empty]
    decide
  rw [validate, if_pos blank] at usable
  cases usable

/-- What both files introduce for the structure at a place, besides the tag of its enumeration: the
enumerators, the size table, and the accessor with its parameters. -/
def Listing.symbolsAt (listing : Listing) (i : Nat) : List Text :=
  listing.enumerations[i]?.elim [] Enumeration.enumerators
    ++ listing.declarations[i]?.elim [] (fun d => d.table :: d.prototype.declarators)
    ++ listing.tables[i]?.elim [] (fun t => [t.name])
    ++ listing.definitions[i]?.elim [] (fun a => a.signature.declarators)

namespace Header

variable {settings : Settings} {h : Header} {text : Text} {out : Artifacts}

/-- What is generated from a text is printed from a flat header whose structures are spelled as they
should be and are read back from both files. -/
theorem exists_printed_of_generate (ok : generate settings text = .ok out) :
    ∃ flat, compile settings text = .ok flat ∧ out = flat.artifacts settings ∧ flat.Spelled ∧
      ∀ s ∈ flat.entries, s.ReadsBack settings := by
  obtain ⟨flat, compiled, printed⟩ := generate_eq_ok_iff.mp ok
  obtain ⟨declared, read, flattened, -⟩ := compile_eq_ok_iff.mp compiled
  have spelled := (spelled_of_ofStatements read).flatten flattened
  have full := full_of_flatten flattened
  exact ⟨flat, compiled, printed, spelled, fun s hs => (spelled s hs).readsBack (full s hs)⟩

/-- The guard is read back. -/
theorem guard?_enumHeader (reads : ∀ s ∈ h.entries, s.ReadsBack settings) :
    (h.enumHeader settings).guard? = some settings.guard := by
  have notice : generatedNotice.dropPrefix? "#define ".toList = none := rfl
  have test : ("#ifndef ".toList ++ settings.guard).dropPrefix? "#define ".toList = none := rfl
  have found : ("#define ".toList ++ settings.guard).dropPrefix? "#define ".toList =
    some settings.guard := dropPrefix?_append ..
  rw [guard?, paragraphs_enumHeader reads, declaring, List.cons_append, List.head?_cons, preamble,
    Option.bind_eq_bind, Option.bind_some, List.findSome?_cons, notice, List.findSome?_cons, test,
    List.findSome?_cons, found]

/-- What can be looked at in the flat header of a text is printed, and both files are read back. -/
theorem exists_listing_of_compile {α : Type} {look : Header → α} {value : α}
    (found : (compile settings text).toOption.map look = some value) :
    ∃ flat out, compile settings text = .ok flat ∧ generate settings text = .ok out ∧
      out.enumHeader.guard? = some settings.guard ∧
      Listing.read out.enumHeader out.source = some (flat.listing settings) ∧
      look flat = value := by
  obtain ⟨flat, compiled, seen⟩ := exists_of_map_toOption found
  have ok := generate_eq_ok_iff.mpr ⟨flat, compiled, rfl⟩
  obtain ⟨same, again, -, -, reads⟩ := exists_printed_of_generate ok
  obtain rfl : flat = same := Except.ok.inj (compiled.symm.trans again)
  exact ⟨flat, _, compiled, ok, guard?_enumHeader reads, read_artifacts reads, seen⟩

end Header

/-- The parameters that every accessor has. -/
def fixedParameters : List Text := ["ev".toList, "fieldptr".toList, "size".toList]

namespace Structure

variable {settings : Settings} {s : Structure} {name : Text}

/-- The parameters of the accessor of a structure. -/
def parameters (settings : Settings) (s : Structure) : List Text :=
  ["ev".toList, (s.labels settings).short, "fieldptr".toList, "size".toList]

/-- The instance is called after the structure; the other parameters are fixed. -/
theorem mem_parameters_iff : name ∈ s.parameters settings ↔
    name = (s.labels settings).short ∨ name ∈ fixedParameters := by
  simp only [parameters, fixedParameters, List.mem_cons, or_left_comm]

/-- The signature of a structure's accessor names the accessor and its parameters. -/
theorem Spelled.declarators (spelled : s.Spelled) : (s.accessor settings).signature.declarators =
    (s.accessor settings).name :: s.parameters settings := by
  have short : (s.labels settings).short.IsWord := isWord_short spelled.tag
  have name : (s.accessor settings).name.IsWord := short.append (by decide)
  exact Accessor.declarators_signature name (isName_of_isIdentifier spelled.tag) short

/-- The enumerators, the size table and the accessor of a structure are identifiers unless its short
name starts with a digit. -/
theorem Spelled.isIdentifier_identifiers (spelled : s.Spelled) (settings : Settings) :
    ∀ name ∈ s.identifiers settings,
      name.isIdentifier = !(s.labels settings).short.startsWithDigit := by
  have short : (s.labels settings).short.IsWord := isWord_short spelled.tag
  have constants : ∀ field ∈ s.fields.names, ((s.labels settings).constant field).isIdentifier =
      !(s.labels settings).short.startsWithDigit := by
    refine List.forall_mem_map.mpr fun f hf => ?_
    exact Labels.isIdentifier_constant short (isWord_of_isIdentifier (spelled.fields f hf).name)
  rw [identifiers, List.forall_mem_append]
  refine ⟨List.forall_mem_cons.mpr ⟨Labels.isIdentifier_sentinel short, ?_⟩, ?_⟩
  · exact List.forall_mem_map.mpr constants
  · exact List.forall_mem_cons.mpr ⟨Labels.isIdentifier_sizes short,
      List.forall_mem_singleton.mpr (Labels.isIdentifier_accessor short)⟩

end Structure

namespace Header

variable {settings : Settings} {h : Header} {text : Text} {out : Artifacts}

/-- What is read for a structure are its identifiers and the parameters of its accessor. -/
theorem mem_symbolsAt_listing_iff {i : Nat} {s : Structure} {name : Text} (spelled : s.Spelled)
    (place : h.entries[i]? = some s) :
    name ∈ (h.listing settings).symbolsAt i ↔
      name ∈ s.identifiers settings ∨ name ∈ s.parameters settings := by
  have read : (h.listing settings).symbolsAt i = (s.enumeration settings).enumerators ++
      (s.sizeTable settings).name :: (s.accessor settings).signature.declarators ++
      [(s.sizeTable settings).name] ++ (s.accessor settings).signature.declarators := by
    simp only [Listing.symbolsAt, listing, List.getElem?_map, place, Option.map_some,
      Option.elim_some]
    rfl
  rw [read, spelled.declarators, Structure.identifiers]
  simp only [List.mem_append, List.mem_cons, List.not_mem_nil, or_false]
  constructor
  · rintro (((enumerator | (table | (accessor | parameter))) | table) | (accessor | parameter))
    all_goals simp [*]
  · rintro ((enumerator | (table | accessor)) | parameter)
    all_goals simp [*]

/-- Nothing is read behind the last structure. -/
theorem symbolsAt_listing_eq_nil {i : Nat} (behind : h.entries[i]? = none) :
    (h.listing settings).symbolsAt i = [] := by
  simp only [Listing.symbolsAt, listing, List.getElem?_map, behind, Option.map_none,
    Option.elim_none, List.append_nil]

/-- What is read for a structure are identifiers unless its short name starts with a digit. -/
theorem isIdentifier_symbolsAt_listing_iff {i : Nat} {s : Structure} (spelled : s.Spelled)
    (place : h.entries[i]? = some s) :
    (∀ name ∈ (h.listing settings).symbolsAt i, name.isIdentifier = true) ↔
      (s.labels settings).short.startsWithDigit = false := by
  have own := spelled.isIdentifier_identifiers settings
  have short : (s.labels settings).short.IsWord := Structure.isWord_short spelled.tag
  constructor
  · intro all
    -- Every structure has a size table, whose name starts like the short name.
    have table : (s.sizeTable settings).name ∈ s.identifiers settings := by
      simp [Structure.identifiers]
    have whole := all _ ((mem_symbolsAt_listing_iff spelled place).mpr (.inl table))
    rwa [own _ table, Bool.not_eq_true'] at whole
  · intro letter name mem
    rcases (mem_symbolsAt_listing_iff spelled place).mp mem with symbol | parameter
    · rw [own name symbol, letter, Bool.not_false]
    · have fixed : ∀ name ∈ fixedParameters, Text.isIdentifier name = true := by decide
      rcases Structure.mem_parameters_iff.mp parameter with rfl | other
      · rw [short.isIdentifier_eq, letter, Bool.not_false]
      · exact fixed name other

/-- What is read from both files for a flat header are identifiers, up to digits at the start. -/
structure Identified (settings : Settings) (flat : Header) (listing : Listing) : Prop where
  /-- The tags of the enumerations are identifiers. -/
  tags : ∀ e ∈ listing.enumerations, e.tag.isIdentifier = true
  /-- All that is read for a structure are identifiers exactly when its short name starts with no
  digit. -/
  symbols : ∀ i s, flat.entries[i]? = some s →
    ((∀ name ∈ listing.symbolsAt i, name.isIdentifier = true) ↔
      (s.labels settings).short.startsWithDigit = false)
  /-- Nothing else is read. -/
  complete : ∀ i, flat.entries[i]? = none → listing.symbolsAt i = []

/-- When artifacts are generated with usable settings, the guard and the tags of the enumerations
are identifiers, and so is everything else that both files introduce for a structure, as long as its
short name starts with no digit. -/
theorem generate_introduces_identifiers (usable : settings.validate = .ok ())
    (ok : generate settings text = .ok out) :
    ∃ flat listing, compile settings text = .ok flat ∧
      out.enumHeader.guard? = some settings.guard ∧ settings.guard.isIdentifier = true ∧
      Listing.read out.enumHeader out.source = some listing ∧
      flat.Identified settings listing := by
  obtain ⟨flat, compiled, rfl, spelled, reads⟩ := exists_printed_of_generate ok
  refine ⟨flat, flat.listing settings, compiled, guard?_enumHeader reads,
    settings.isIdentifier_guard usable, read_artifacts reads, ?_, ?_, ?_⟩
  · exact List.forall_mem_map.mpr fun s hs => Labels.isIdentifier_enumTag (spelled s hs).tag
  · intro i s place
    exact isIdentifier_symbolsAt_listing_iff (spelled s (List.mem_of_getElem? place)) place
  · exact fun i behind => symbolsAt_listing_eq_nil behind

/-- A name space that ends in front of a digit, and a file name that starts with one. -/
def plainSettings : Settings := { nameSpace := "fs_".toList, headerName := "9p.h".toList }

/-- A structure whose short name starts with a digit and one whose short name starts with none. -/
def plainText : Text :=
  "struct fs_9p \x7b int id; \x7d;\n".toList ++ "struct fs_node \x7b struct fs_9p own; \x7d;".toList

theorem generate_introduces_identifiers_plainText :
    ∃ out, plainSettings.validate = .ok () ∧ generate plainSettings plainText = .ok out ∧
      (∃ flat listing, compile plainSettings plainText = .ok flat ∧
        out.enumHeader.guard? = some plainSettings.guard ∧
        plainSettings.guard.isIdentifier = true ∧
        Listing.read out.enumHeader out.source = some listing ∧
        flat.Identified plainSettings listing) ∧
      (compile plainSettings plainText).toOption.map (fun flat => flat.entries.map fun s =>
        (s.labels plainSettings).short.startsWithDigit) = some [true, false] := by
  have digits : (compile plainSettings plainText).toOption.map (fun flat =>
      flat.entries.map fun s => (s.labels plainSettings).short.startsWithDigit) =
        some [true, false] := by decide +kernel
  have usable : plainSettings.validate = .ok () := by decide +kernel
  obtain ⟨-, out, -, ok, -⟩ := exists_listing_of_compile digits
  exact ⟨out, usable, ok, generate_introduces_identifiers usable ok, digits⟩

/-- A structure whose name goes on with a digit behind the name space. -/
def digitText : Text := "struct evfs_1x \x7b int a; \x7d;".toList

/-- Some of what both files introduce is no identifier: the enumerators, the table, the accessor and
its instance, which the enum header and the source both name. -/
theorem not_identifiers_digitText :
    ∃ out listing, ({} : Settings).validate = .ok () ∧ generate {} digitText = .ok out ∧
      Listing.read out.enumHeader out.source = some listing ∧
      (listing.symbolsAt 0).filter (fun name => !Text.isIdentifier name) =
        ["1X_INVALID_FIELD".toList, "1X_A".toList, "1x_sizes".toList, "1x_enum_to_field".toList,
          "1x".toList, "1x_sizes".toList, "1x_enum_to_field".toList, "1x".toList] := by
  have others : (compile {} digitText).toOption.map (fun flat =>
      ((flat.listing {}).symbolsAt 0).filter fun name => !Text.isIdentifier name) =
        some ["1X_INVALID_FIELD".toList, "1X_A".toList, "1x_sizes".toList,
          "1x_enum_to_field".toList, "1x".toList, "1x_sizes".toList, "1x_enum_to_field".toList,
          "1x".toList] := by decide +kernel
  have usable : ({} : Settings).validate = .ok () := by decide +kernel
  obtain ⟨flat, out, -, ok, -, read, named⟩ := exists_listing_of_compile others
  exact ⟨out, flat.listing {}, usable, ok, read, named⟩

end Header

end FieldTables
