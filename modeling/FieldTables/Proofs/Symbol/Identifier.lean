import FieldTables.Proofs.Symbol.Spelling
import FieldTables.Proofs.Text.Identifier

/-!
# Which symbols are identifiers

Every symbol of a structure but its tags starts with the short name, in upper case or not. So it is
an identifier exactly when the short name starts with no digit, as a name space can be cut off right
in front of one. Tags are identifiers whatever the name space is, and so is the guard, which gets an
underscore in front of a digit and has no small letter.
-/

namespace FieldTables

open Text

/-- A short name keeps something of the name. -/
theorem Symbol.shortName_ne_nil {name : Text} (nameSpace : Text) (nonempty : name ≠ []) :
    shortName nameSpace name ≠ [] := by
  rw [shortName]
  split
  next cut =>
    rw [Bool.and_eq_true, Bool.not_eq_true', List.isEmpty_eq_false_iff] at cut
    exact cut.2
  next => exact nonempty

/-- The short name of a structure is a word. -/
theorem Structure.isWord_short {settings : Settings} {s : Structure}
    (tag : s.name.isIdentifier = true) : (s.labels settings).short.IsWord :=
  have word := isWord_of_isIdentifier tag
  ⟨Symbol.shortName_ne_nil settings.nameSpace word.ne_nil, isName_short word.isName⟩

namespace Labels

variable {l : Labels} {field : Text}

/-- An enumerator puts an underscore between the capitals of the short name and of the field. -/
theorem constant_eq (short : l.short.IsWord) (other : field ≠ []) :
    l.constant field = l.short.upper.upper ++ '_' :: field.upper := by
  have capitals : l.short.upper ≠ [] := short.upper.ne_nil
  simp [constant, Symbol.constantName, capitals, other]

theorem isWord_constant (short : l.short.IsWord) (word : field.IsWord) :
    (l.constant field).IsWord := by
  rw [constant_eq short word.ne_nil]
  exact short.upper.upper.append (List.forall_mem_cons.mpr ⟨by decide, word.isName.upper⟩)

/-- An enumerator is an identifier unless the short name starts with a digit. -/
theorem isIdentifier_constant (short : l.short.IsWord) (word : field.IsWord) :
    (l.constant field).isIdentifier = !l.short.startsWithDigit := by
  rw [(isWord_constant short word).isIdentifier_eq, constant_eq short word.ne_nil,
    startsWithDigit_append short.upper.upper.ne_nil, short.upper.isName.startsWithDigit_upper,
    short.isName.startsWithDigit_upper]

/-- An enumerator has no small letter. -/
theorem capital_constant (short : l.short.IsWord) (word : field.IsWord) :
    (l.constant field).Capital := by
  rw [constant_eq short word.ne_nil]
  exact short.upper.isName.capital_upper.append
    (List.forall_mem_cons.mpr ⟨rfl, word.isName.capital_upper⟩)

/-- An enumerator is longer than the short name. -/
theorem length_short_lt_length_constant (short : l.short.IsWord) (word : field.IsWord) :
    l.short.length < (l.constant field).length := by
  rw [constant_eq short word.ne_nil, List.length_append, short.upper.isName.length_upper,
    short.isName.length_upper, List.length_cons]
  omega

theorem isIdentifier_sentinel (short : l.short.IsWord) :
    l.sentinel.isIdentifier = !l.short.startsWithDigit :=
  isIdentifier_constant short (isWord_of_isIdentifier (by decide))

theorem isIdentifier_enumTag (name : l.name.isIdentifier = true) : l.enumTag.isIdentifier = true :=
  isIdentifier_append name (by decide)

theorem isIdentifier_sizes (short : l.short.IsWord) :
    l.sizes.isIdentifier = !l.short.startsWithDigit :=
  short.isIdentifier_append (by decide)

theorem isIdentifier_accessor (short : l.short.IsWord) :
    l.accessor.isIdentifier = !l.short.startsWithDigit :=
  short.isIdentifier_append (by decide)

end Labels

namespace Symbol

/-- A character of a file name as it stands in a guard. -/
def guardCharacter (c : Char) : Char := if c.isAlphanum then c.toUpper else '_'

/-- A guard is the file name in guard characters, behind an underscore if that starts with a
digit. -/
theorem guardName_eq (file : Text) :
    guardName file = if startsWithDigit (file.map guardCharacter) then
      '_' :: file.map guardCharacter else file.map guardCharacter := by
  cases file with
  | nil => rfl
  | cons c rest => rfl

/-- No guard starts with a digit. -/
theorem startsWithDigit_guardName (file : Text) : (guardName file).startsWithDigit = false := by
  rw [guardName_eq]
  by_cases digit : startsWithDigit (file.map guardCharacter) = true
  · rw [if_pos digit]
    rfl
  · rw [if_neg digit]
    simpa using digit

/-- A guard has no small letter. -/
theorem capital_guardName (file : Text) : (guardName file).Capital := by
  have symbol : Capital (file.map guardCharacter) := by
    refine List.forall_mem_map.mpr fun c _ => ?_
    by_cases letter : c.isAlphanum = true
    · rw [guardCharacter, if_pos letter]
      exact isLower_toUpper (by rw [isNameCharacter, letter, Bool.true_or])
    · rw [guardCharacter, if_neg letter]
      rfl
  rw [guardName_eq]
  split
  · exact List.forall_mem_cons.mpr ⟨rfl, symbol⟩
  · exact symbol

/-- The guard of a file with a name is an identifier. -/
theorem isIdentifier_guardName {file : Text} (nonempty : file ≠ []) :
    (guardName file).isIdentifier = true := by
  have word : (guardName file).IsWord := by
    refine ⟨?_, isName_guardName file⟩
    rw [guardName_eq]
    split <;> simp [nonempty]
  rw [word.isIdentifier_eq, startsWithDigit_guardName, Bool.not_false]

end Symbol

end FieldTables
