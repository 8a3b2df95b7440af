import FieldTables.Proofs.Text.Name
import FieldTables.Symbol.Labels

/-!
# How symbols are spelled

All symbols of a structure whose tag is a name are names, and the guard of a file is one whatever
the file is called.
-/

namespace FieldTables

open Text

namespace Labels

variable {l : Labels}

/-- An enumerator is a name. -/
theorem isName_constant {field : Text} (short : l.short.IsName) (name : field.IsName) :
    (l.constant field).IsName := by
  intro c mem
  rcases mem_intercalate mem with between | ⟨_, listed, has⟩
  · exact (by decide : IsName ['_']) c between
  · obtain ⟨raw, kept, rfl⟩ := List.mem_map.mp listed
    have raw := List.mem_of_mem_filter kept
    simp only [List.mem_cons, List.not_mem_nil, or_false] at raw
    rcases raw with rfl | rfl
    · exact short.upper.upper c has
    · exact name.upper c has

theorem isName_sentinel (short : l.short.IsName) : l.sentinel.IsName :=
  isName_constant short (by decide)

theorem isName_enumTag (name : l.name.IsName) : l.enumTag.IsName :=
  name.append (by decide)

theorem isName_sizes (short : l.short.IsName) : l.sizes.IsName :=
  short.append (by decide)

theorem isName_accessor (short : l.short.IsName) : l.accessor.IsName :=
  short.append (by decide)

end Labels

/-- The guard of a file is a name. -/
theorem Symbol.isName_guardName (file : Text) : (guardName file).IsName := by
  have symbol : IsName (file.map fun c => if c.isAlphanum then c.toUpper else '_') := by
    refine List.forall_mem_map.mpr fun c _ => ?_
    split
    next letter =>
      refine isNameCharacter_toUpper ?_
      rw [isNameCharacter, letter, Bool.true_or]
    next => decide
  unfold guardName
  dsimp only
  split
  next =>
    split
    · exact List.forall_mem_cons.mpr ⟨by decide, symbol⟩
    · exact symbol
  next => exact List.forall_mem_nil _

/-- The short name of a structure is a name. -/
theorem Structure.isName_short {settings : Settings} {s : Structure} (name : s.name.IsName) :
    (s.labels settings).short.IsName := by
  have rest : IsName (s.name.drop settings.nameSpace.length) := fun c mem =>
    name c (List.mem_of_mem_drop mem)
  rw [labels, Symbol.shortName]
  split
  · exact rest
  · exact name

end FieldTables
