import FieldTables.Proofs.Artifact.Identifier

/-!
# The parameters of an accessor

Every accessor has the parameters `ev`, `fieldptr` and `size`, and an instance that is called after
the short name of its structure. They are distinct unless the short name is one of these three
words. None of them hides what the accessor refers to: enumerators have no small letters and are
longer than the short name, and so is the name of the size table.
-/

namespace FieldTables

open Text

/-- What is read of an accessor that takes an instance of the given name, from its declaration and
from its definition. -/
structure Definition.Takes (inst : Text) (d : Declarations) (a : Definition) : Prop where
  /-- The enum header declares the accessor as the source defines it. -/
  declared : d.prototype = a.signature
  /-- The names of the parameters. -/
  parameters : a.signature.declarators.tail =
    ["ev".toList, inst, "fieldptr".toList, "size".toList]
  /-- The parameters are distinct unless the instance is called like one of the others. -/
  distinct : a.signature.declarators.tail.Nodup ↔ inst ∉ fixedParameters
  /-- No parameter hides an enumerator or the size table in the body. -/
  visible : ∀ parameter ∈ a.signature.declarators.tail, ∀ c ∈ a.cases,
    parameter ≠ c.label ∧ parameter ≠ c.index ∧ parameter ≠ c.sizes

namespace Structure

variable {settings : Settings} {s : Structure}

/-- The parameters of a structure's accessor are distinct unless its short name is one of those that
every accessor has. -/
theorem nodup_parameters_iff :
    (s.parameters settings).Nodup ↔ (s.labels settings).short ∉ fixedParameters := by
  have others : fixedParameters.Nodup := by decide
  have order : (s.parameters settings).Perm ((s.labels settings).short :: fixedParameters) :=
    .swap ..
  rw [order.nodup_iff, List.nodup_cons]
  exact and_iff_left others

/-- No parameter is called like the enumerator of a field. -/
theorem constant_notMem_parameters {field : Text} (short : (s.labels settings).short.IsWord)
    (word : field.IsWord) : (s.labels settings).constant field ∉ s.parameters settings := by
  have longer := Labels.length_short_lt_length_constant short word
  have capital := Labels.capital_constant short word
  have small : ∀ parameter ∈ fixedParameters, ¬Text.Capital parameter := by decide
  intro mem
  rcases mem_parameters_iff.mp mem with same | fixed
  · rw [same] at longer
    exact Nat.lt_irrefl _ longer
  · exact small _ fixed capital

/-- No parameter is called like the size table, whose name ends with an underscore and more. -/
theorem sizes_notMem_parameters : (s.labels settings).sizes ∉ s.parameters settings := by
  have longer : (s.labels settings).short.length < (s.labels settings).sizes.length := by
    simp [Labels.sizes]
  have underscore : '_' ∈ (s.labels settings).sizes := List.mem_append_right _ (by decide)
  have plain : ∀ parameter ∈ fixedParameters, '_' ∉ parameter := by decide
  intro mem
  rcases mem_parameters_iff.mp mem with same | fixed
  · rw [same] at longer
    exact Nat.lt_irrefl _ longer
  · exact plain _ fixed underscore

/-- The accessor of a structure takes its short name as the instance. -/
theorem Spelled.takes (spelled : s.Spelled) :
    Definition.Takes (s.labels settings).short (s.declared settings) (s.definition settings) := by
  have short : (s.labels settings).short.IsWord := isWord_short spelled.tag
  have named : (s.definition settings).signature.declarators.tail = s.parameters settings :=
    congrArg List.tail spelled.declarators
  refine ⟨rfl, named, named ▸ nodup_parameters_iff, ?_⟩
  rw [named]
  intro parameter mem c listed
  obtain ⟨own, within, rfl⟩ := List.mem_map.mp listed
  obtain ⟨f, hf, rfl⟩ := List.mem_map.mp within
  have word : f.name.IsWord := isWord_of_isIdentifier (spelled.fields f hf).name
  refine ⟨?_, ?_, ?_⟩
  · rintro rfl
    exact constant_notMem_parameters short word mem
  · rintro rfl
    exact constant_notMem_parameters short word mem
  · rintro rfl
    exact sizes_notMem_parameters mem

end Structure

namespace Header

variable {settings : Settings} {text : Text} {out : Artifacts}

/-- When artifacts are generated from a text, both files give the accessor of each structure the
same parameters. They are distinct exactly when the short name is none of the words that every
accessor uses for its other parameters, and they hide nothing that the accessor refers to. -/
theorem generate_takes_parameters (ok : generate settings text = .ok out) :
    ∃ flat listing, compile settings text = .ok flat ∧
      Listing.read out.enumHeader out.source = some listing ∧
      listing.declarations.length = flat.entries.length ∧
      listing.definitions.length = flat.entries.length ∧
      ∀ (i : Nat) s d a, flat.entries[i]? = some s → listing.declarations[i]? = some d →
        listing.definitions[i]? = some a → Definition.Takes (s.labels settings).short d a := by
  obtain ⟨flat, compiled, rfl, spelled, reads⟩ := exists_printed_of_generate ok
  refine ⟨flat, flat.listing settings, compiled, read_artifacts reads, List.length_map ..,
    List.length_map .., ?_⟩
  intro i s d a place declared defined
  simp only [listing, List.getElem?_map, place, Option.map_some, Option.some.injEq]
    at declared defined
  rw [← declared, ← defined]
  exact (spelled s (List.mem_of_getElem? place)).takes

/-- A structure with members of each kind beside one whose short name is a parameter of every
accessor. -/
def pointText : Text :=
  "struct evfs_size \x7b int width; \x7d;\n".toList
    ++ "struct evfs_point \x7b long x; struct evfs_size box; char *fieldptr; \x7d;".toList

theorem generate_takes_parameters_pointText :
    ∃ out, generate {} pointText = .ok out ∧
      (∃ flat listing, compile {} pointText = .ok flat ∧
        Listing.read out.enumHeader out.source = some listing ∧
        listing.declarations.length = flat.entries.length ∧
        listing.definitions.length = flat.entries.length ∧
        ∀ (i : Nat) s d a, flat.entries[i]? = some s → listing.declarations[i]? = some d →
          listing.definitions[i]? = some a → Definition.Takes (s.labels {}).short d a) ∧
      (compile {} pointText).toOption.map (fun flat =>
        flat.entries.map fun s => decide (s.parameters {}).Nodup) = some [false, true] := by
  have distinct : (compile {} pointText).toOption.map (fun flat =>
      flat.entries.map fun s => decide (s.parameters {}).Nodup) = some [false, true] := by
    decide +kernel
  obtain ⟨-, out, -, ok, -⟩ := exists_listing_of_compile distinct
  exact ⟨out, ok, generate_takes_parameters ok, distinct⟩

/-- A structure whose short name is a parameter of every accessor. -/
def sizeText : Text := "struct evfs_size \x7b int x; \x7d;".toList

/-- An accessor is generated with two parameters of one name. -/
theorem not_nodup_parameters_sizeText :
    ∃ out listing, generate {} sizeText = .ok out ∧
      Listing.read out.enumHeader out.source = some listing ∧
      listing.definitions.map (fun a => a.signature.declarators.tail) =
        [["ev".toList, "size".toList, "fieldptr".toList, "size".toList]] ∧
      ¬ ["ev".toList, "size".toList, "fieldptr".toList, "size".toList].Nodup := by
  have named : (compile {} sizeText).toOption.map (fun flat =>
      (flat.listing {}).definitions.map fun a => a.signature.declarators.tail) =
        some [["ev".toList, "size".toList, "fieldptr".toList, "size".toList]] := by decide +kernel
  obtain ⟨flat, out, -, ok, -, read, parameters⟩ := exists_listing_of_compile named
  exact ⟨out, flat.listing {}, ok, read, parameters, by decide⟩

end Header

end FieldTables
