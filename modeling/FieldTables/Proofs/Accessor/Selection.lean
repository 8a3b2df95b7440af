import FieldTables.Proofs.Accessor.Execution
import FieldTables.Proofs.Flattening.Exactness
import FieldTables.Proofs.Generation
import FieldTables.Proofs.Source.Provenance
import Mathlib.Data.List.Perm.Basic

/-!
# Accessors select the members of the header

The enumeration, the size table and the accessor of a structure are printed independently of each
other, from the fields of a flat header. Read back from both files and run together, they agree with
the header that was read: the integer of a field selects the member that the field was declared as,
with its size.
-/

namespace FieldTables.Header

variable {settings : Settings} {h declared flat : Header} {s : Structure}

/-- The field that a member path leads to from the structure of a tag, through fields held by
value. -/
def member? (h : Header) (tag : Text) : List Text → Option Field
  | [] => none
  | name :: rest => do
    let f ← (← h.find? tag).fields.find? name
    if rest.isEmpty then return f else h.member? (← f.inner) rest

/-- The members of a way lead to its leaf. -/
theorem Leads.member?_members {fields : List Field} {w : Way} (leads : h.Leads fields w)
    {tag : Text} (found : h.find? tag = some s) (inside : fields = s.fields.entries) :
    h.member? tag w.members = some w.leaf := by
  induction leads generalizing tag s with
  | @leaf f _ hf _ =>
    subst inside
    have here : s.fields.find? f.name = some f := Roster.find?_name_of_mem hf
    change h.member? tag [f.name] = some f
    simp [member?, found, here]
  | @nested f _ name t w hf holds below _ ih =>
    subst inside
    have here : s.fields.find? f.name = some f := Roster.find?_name_of_mem hf
    have more : w.members.isEmpty = false := by simpa using w.members_ne_nil
    have rest := ih below rfl
    rw [Way.members_extend, Way.leaf_extend]
    simp [member?, found, here, more, holds, rest]

/-- A header that was read has every field reached by its own name alone. -/
theorem declared_of_ofStatements {extraTypes : List Text} {statements : List Statement}
    (ok : ofStatements extraTypes statements = .ok h) : h.Declared := by
  obtain ⟨structures, each⟩ := exists_statement_of_ofStatements ok
  intro s hs f hf
  obtain ⟨statement, _, field⟩ := each s hs f hf
  exact statement.path_of_field field

/-- The names in scope are those that the artifacts define, grouped by kind. -/
theorem perm_map_fst_scope (spelled : flat.Spelled) :
    ((flat.listing settings).scope.map Prod.fst).Perm (flat.emittedIdentifiers settings) := by
  have names : (flat.listing settings).scope.map Prod.fst =
      flat.entries.flatMap (fun s => (s.enumeration settings).enumerators)
        ++ flat.entries.flatMap (fun s => [(s.sizeTable settings).name])
        ++ flat.entries.flatMap (fun s => [(s.accessor settings).name]) := by
    have functions := List.flatMap_congr fun s hs => (spelled s hs).map_fst_names settings
    simp only [Listing.scope, listing, List.map_append, List.map_flatMap, List.flatMap_map,
      Enumeration.map_fst_constants, functions, List.map_map, ← List.map_eq_flatMap]
    rfl
  have grouped : flat.emittedIdentifiers settings = flat.entries.flatMap fun s =>
      ((s.enumeration settings).enumerators ++ [(s.sizeTable settings).name])
        ++ [(s.accessor settings).name] :=
    List.flatMap_congr fun s _ => (List.append_assoc _ [_] [_]).symm
  rw [names, grouped]
  exact ((List.flatMap_append_perm ..).append_right _).trans (List.flatMap_append_perm ..)

/-- The artifacts of a header can be read back, and define no identifier twice. -/
structure Unambiguous (settings : Settings) (flat : Header) : Prop where
  spelled : flat.Spelled
  distinct : (flat.emittedIdentifiers settings).Nodup

/-- A name that is defined in both files stands for what it is defined as. -/
theorem Unambiguous.lookup_eq_some (apart : flat.Unambiguous settings) {name : Text}
    {meaning : Meaning} (defined : (name, meaning) ∈ (flat.listing settings).scope) :
    (flat.listing settings).scope.lookup name = some meaning :=
  Scope.lookup_eq_some_of_mem
    ((perm_map_fst_scope apart.spelled).nodup_iff.mpr apart.distinct) defined

/-- Every enumerator stands for its position. -/
theorem Unambiguous.value?_enumerator (apart : flat.Unambiguous settings) (hs : s ∈ flat.entries)
    {position : Nat} {name : Text}
    (listed : (s.enumeration settings).enumerators[position]? = some name) :
    (flat.listing settings).scope.value? name = some (position : Int) := by
  have constant : (name, Meaning.constant position) ∈ (s.enumeration settings).constants :=
    List.mem_map.mpr ⟨(name, position), List.mem_zipIdx_iff_getElem?.mpr listed, rfl⟩
  have defined : (name, Meaning.constant position) ∈ (flat.listing settings).scope :=
    List.mem_append_left _ (List.mem_append_left _
      (List.mem_flatMap.mpr ⟨_, List.mem_map_of_mem hs, constant⟩))
  rw [Scope.value?, apart.lookup_eq_some defined]

/-- The name of a size table stands for it. -/
theorem Unambiguous.table?_sizes (apart : flat.Unambiguous settings) (hs : s ∈ flat.entries) :
    (flat.listing settings).scope.table? (s.labels settings).sizes =
      some (s.sizeTable settings) := by
  have defined : ((s.labels settings).sizes, Meaning.table (s.sizeTable settings)) ∈
      (flat.listing settings).scope :=
    List.mem_append_left _ (List.mem_append_right _
      (List.mem_map.mpr ⟨_, List.mem_map_of_mem hs, rfl⟩))
  rw [Scope.table?, apart.lookup_eq_some defined]

/-- The enumerator of the field at a place stands for the number of the field, counted from one. -/
theorem Unambiguous.value?_constant (apart : flat.Unambiguous settings) (hs : s ∈ flat.entries)
    {k : Nat} {f : Field} (hf : s.fields.entries[k]? = some f) :
    (flat.listing settings).scope.value? ((s.labels settings).constant f.name) =
      some (1 + k : Int) := by
  have listed : (s.enumeration settings).enumerators[k + 1]? =
      some ((s.labels settings).constant f.name) := by
    simp only [Structure.enumeration, List.getElem?_cons_succ, Roster.names, List.getElem?_map, hf,
      Option.map_some]
    rfl
  rw [apart.value?_enumerator hs listed]
  congr 1
  omega

/-- The cases of an accessor are numbered from one. -/
theorem Unambiguous.consecutive (apart : flat.Unambiguous settings) (hs : s ∈ flat.entries) :
    Consecutive (flat.listing settings).scope 1 (s.definition settings).cases := by
  intro k c hc
  rw [Structure.cases_definition, List.getElem?_map, Option.map_eq_some_iff] at hc
  obtain ⟨f, hf, rfl⟩ := hc
  exact apart.value?_constant hs hf

/-- The case of a field reads the entry at the place of the field. -/
theorem Unambiguous.entry?_sizes (apart : flat.Unambiguous settings) (hs : s ∈ flat.entries)
    {k : Nat} {f : Field} (hf : s.fields.entries[k]? = some f) :
    (flat.listing settings).scope.entry? (s.labels settings).sizes
      ((s.labels settings).constant f.name) 1 = some (s.sizeTable settings, k) := by
  have place : (1 + k - (1 : Nat) : Int) = k := by omega
  have inside : k < (s.sizeTable settings).operands.length := by
    have many := (List.getElem?_eq_some_iff.mp hf).1
    simpa [Structure.sizeTable] using many
  simp only [Scope.entry?, apart.table?_sizes hs, apart.value?_constant hs hf, Option.bind_eq_bind,
    Option.bind_some, place, Int.toNat_natCast]
  rw [if_pos ⟨by omega, by omega⟩]
  rfl

/-- What is read from both files for a structure and selected in it, for each integer that a call
can be given. -/
structure SelectsMembers (settings : Settings) (scope : Scope) (declared : Header) (s : Structure)
    (e : Enumeration) (t : SizeTable) (a : Definition) : Prop where
  /-- The function is the accessor of the structure. Its parameters are the integer, the instance,
  and the two outputs. -/
  function : a.signature.declarators = [(s.labels settings).accessor, "ev".toList,
    (s.labels settings).short, "fieldptr".toList, "size".toList]
  /-- Every enumerator stands for its position, the sentinel for zero. -/
  numbered : ∀ (position : Nat) name, e.enumerators[position]? = some name →
    scope.value? name = some (position : Int)
  /-- The integer of a field matches one case. The call stores the address of the field and its
  entry of the size table, and returns zero; in the header that was read the same members lead to a
  leaf of the type whose size that entry is. -/
  field : ∀ (k : Nat) f, s.fields.entries[k]? = some f →
    (∃ body, a.matching scope (1 + k) = [body]) ∧
    a.call scope (1 + k) =
      some ⟨⟨some ((s.labels settings).short, f.path), some (t, k)⟩, .number 0⟩ ∧
    ∃ leaf, declared.member? s.name f.path = some leaf ∧ leaf.inner = none ∧
      t.operands[k]? = some leaf.sizedType
  /-- Any other integer matches no case, and it is refused with nothing stored. -/
  other : ∀ ev : Int, ev < 1 ∨ s.fields.size < ev →
    a.matching scope ev = [] ∧ a.call scope ev = some ⟨⟨none, none⟩, .error "EINVAL".toList⟩

/-- The path of a flat field leads, in the header that was read, to a leaf whose size is taken from
the same type. -/
theorem exists_leaf_of_flatten (read : declared.Declared) (ok : declared.flatten = .ok flat)
    (hs : s ∈ flat.entries) {f : Field} (hf : f ∈ s.fields.entries) :
    ∃ leaf, declared.member? s.name f.path = some leaf ∧ leaf.inner = none ∧
      f.sizedType = leaf.sizedType := by
  obtain ⟨t, ht, name, ways, unfolds, entries⟩ := exists_ways_of_flatten read ok hs
  rw [entries, List.mem_map] at hf
  obtain ⟨w, hw, rfl⟩ := hf
  have leads := (unfolds.mem_iff_leads w).mp hw
  refine ⟨w.leaf, ?_, leads.inner_leaf, rfl⟩
  rw [name]
  exact leads.member?_members (Roster.find?_name_of_mem ht) rfl

/-- What is read for a structure of an unambiguous flat header selects the members of the header
that was read. -/
theorem selectsMembers_of_flatten (read : declared.Declared) (ok : declared.flatten = .ok flat)
    (apart : flat.Unambiguous settings) (hs : s ∈ flat.entries) :
    SelectsMembers settings (flat.listing settings).scope declared s (s.enumeration settings)
      (s.sizeTable settings) (s.definition settings) where
  function := (apart.spelled s hs).declarators
  numbered := fun _ _ listed => apart.value?_enumerator hs listed
  field := by
    intro k f hf
    have hc := congrArg (·[k]?) (s.cases_definition settings)
    simp only [List.getElem?_map, hf, Option.map_some] at hc
    obtain ⟨one, call⟩ := call_eq_success (s.regular_definition settings)
      (apart.consecutive hs) hc (apart.entry?_sizes hs hf)
    obtain ⟨leaf, found, isLeaf, sized⟩ :=
      exists_leaf_of_flatten read ok hs (List.mem_of_getElem? hf)
    refine ⟨one, call, leaf, found, isLeaf, ?_⟩
    simp only [Structure.sizeTable, List.getElem?_map, hf, Option.map_some, sized]
  other := by
    intro ev outside
    have count : (s.definition settings).cases.length = s.fields.size := by
      rw [Structure.cases_definition, List.length_map, Roster.size]
    exact call_eq_refusal (s.regular_definition settings) (apart.consecutive hs) (by omega)

/-- When artifacts are generated from a text, what is read back from both files selects, for each
structure and each integer, the members of the header that the text declares. -/
theorem generate_selects_members {text : Text} {out : Artifacts}
    (ok : generate settings text = .ok out) :
    ∃ declared flat listing,
      ofStatements settings.extraTypes (Statement.ofText text) = .ok declared ∧
      compile settings text = .ok flat ∧
      Listing.read out.enumHeader out.source = some listing ∧
      ∀ (i : Nat) s, flat.entries[i]? = some s → ∃ e t a,
        listing.enumerations[i]? = some e ∧ listing.tables[i]? = some t ∧
        listing.definitions[i]? = some a ∧
        SelectsMembers settings listing.scope declared s e t a := by
  obtain ⟨flat, compiled, rfl, spelled, reads⟩ := exists_printed_of_generate ok
  obtain ⟨declared, read, flattened, checked⟩ := compile_eq_ok_iff.mp compiled
  have apart : flat.Unambiguous settings := ⟨spelled, (checkSymbols_eq_ok_iff.mp checked).2⟩
  refine ⟨declared, flat, flat.listing settings, read, compiled, read_artifacts reads, ?_⟩
  intro i s place
  refine ⟨_, _, _, ?_, ?_, ?_, selectsMembers_of_flatten (declared_of_ofStatements read) flattened
    apart (List.mem_of_getElem? place)⟩ <;> simp [listing, place]

/-- A text with a structure that holds one declared after it. -/
def inodeText : Text :=
  "struct evfs_inode \x7b struct evfs_time atime; char name[16]; \x7d;\n".toList
    ++ "struct evfs_time \x7b long sec; \x7d;".toList

theorem generate_selects_members_inodeText :
    ∃ out, generate {} inodeText = .ok out ∧
      (∃ declared flat listing, ofStatements [] (Statement.ofText inodeText) = .ok declared ∧
        compile {} inodeText = .ok flat ∧
        Listing.read out.enumHeader out.source = some listing ∧
        ∀ (i : Nat) s, flat.entries[i]? = some s → ∃ e t a,
          listing.enumerations[i]? = some e ∧ listing.tables[i]? = some t ∧
          listing.definitions[i]? = some a ∧
          SelectsMembers {} listing.scope declared s e t a) ∧
      (compile {} inodeText).toOption.map (fun flat =>
        flat.entries.map fun s => s.fields.entries.map Field.path) =
          some [[["atime".toList, "sec".toList], ["name".toList]], [["sec".toList]]] := by
  have paths : ((compile {} inodeText).toOption.map fun flat =>
      flat.entries.map fun s => s.fields.entries.map Field.path) =
        some [[["atime".toList, "sec".toList], ["name".toList]], [["sec".toList]]] := by
    decide +kernel
  obtain ⟨-, out, -, ok, -⟩ := exists_listing_of_compile paths
  have selects := generate_selects_members ok
  have noTypes : ({} : Settings).extraTypes = [] := rfl
  rw [noTypes] at selects
  exact ⟨out, ok, selects, paths⟩

end FieldTables.Header
