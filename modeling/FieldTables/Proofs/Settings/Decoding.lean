import FieldTables.Proofs.Json.Decoding
import FieldTables.Proofs.Text.Trimming
import FieldTables.Settings.Json

/-!
# Settings from their texts

Settings are found again in every text that gives them: some of their keys in any order, between
members with other names, in any spelling that the grammar of JSON has for it. What is not given
keeps its default, and what comes out must be usable. A key that comes twice is never accepted.
-/

namespace FieldTables.Settings

open Json

variable {s c found : Settings} {key : Key} {keys given : List Key} {name : Text} {j : Json}
  {members rest : List (Option Text × Json)} {t : Text}

/-- The enum header has a name that is not blank, and every extra type is an identifier. -/
structure Usable (s : Settings) : Prop where
  named : ∃ c ∈ s.headerName, isBlank c = false
  identifiers : ∀ type ∈ s.extraTypes, type.isIdentifier = true

/-- Settings are refused exactly when they are not usable, and with a settings error. -/
theorem validate_eq (s : Settings) :
    Usable s ∧ s.validate = .ok () ∨
      ¬Usable s ∧ ∃ cause, s.validate = .error (.settings cause) := by
  by_cases blank : s.headerName.trim.isEmpty = true
  · refine .inr ⟨fun usable => ?_, .blankHeaderName, if_pos blank⟩
    obtain ⟨c, mem, visible⟩ := usable.named
    cases visible.symm.trans (Text.trim_eq_nil_iff.mp (List.isEmpty_iff.mp blank) c mem)
  · rw [validate, if_neg blank]
    cases bad : s.extraTypes.find? fun type => !type.isIdentifier with
    | some type =>
      refine .inr ⟨fun usable => ?_, .badExtraType type, rfl⟩
      have identifier := usable.identifiers type (List.mem_of_find?_eq_some bad)
      simpa [identifier] using List.find?_some bad
    | none =>
      refine .inl ⟨⟨?_, fun type mem => by simpa using List.find?_eq_none.mp bad type mem⟩, rfl⟩
      by_contra unseen
      exact blank (List.isEmpty_iff.mpr (Text.trim_eq_nil_iff.mpr (by simpa using unseen)))

namespace Key

theorem mem_all (key : Key) : key ∈ all := by cases key <;> decide

theorem ofName?_name (key : Key) : ofName? key.name = some key := by cases key <;> decide

/-- A name is that of one key at most. -/
theorem ofName?_eq_some_iff : ofName? name = some key ↔ key.name = name := by
  constructor
  · intro found
    rw [ofName?] at found
    simpa using List.find?_some found
  · rintro rfl
    exact ofName?_name key

theorem ofName?_eq_none_iff : ofName? name = none ↔ ∀ key : Key, key.name ≠ name := by
  simp [ofName?, mem_all]

end Key

/-- The value that a setting is written as. -/
def value (c : Settings) : Key → Json
  | .nameSpace => .ofText c.nameSpace
  | .extraTypes => .array (c.extraTypes.map .ofText)
  | .headerName => .ofText c.headerName
  | .structHeader => .ofText c.structHeader
  | .includes => .array (c.includes.map .ofText)

/-- Settings with those of the given keys taken from `c`. -/
def replace (s c : Settings) (keys : List Key) : Settings where
  nameSpace := if .nameSpace ∈ keys then c.nameSpace else s.nameSpace
  extraTypes := if .extraTypes ∈ keys then c.extraTypes else s.extraTypes
  headerName := if .headerName ∈ keys then c.headerName else s.headerName
  structHeader := if .structHeader ∈ keys then c.structHeader else s.structHeader
  includes := if .includes ∈ keys then c.includes else s.includes

/-- The members of an object give the settings of `c` for some keys, each once and in the order of
the keys, and nothing for another key. -/
inductive Gives (c : Settings) : List Key → List (Option Text × Json) → Prop
  /-- No member is left. -/
  | nil : Gives c [] []
  /-- A key that does not come again has its value. -/
  | key {key : Key} {keys : List Key} {members : List (Option Text × Json)} (once : key ∉ keys)
      (rest : Gives c keys members) :
      Gives c (key :: keys) ((some key.name, c.value key) :: members)
  /-- A name that is no key has any value. -/
  | other {name : Text} {j : Json} {keys : List Key} {members : List (Option Text × Json)}
      (unknown : ∀ key : Key, key.name ≠ name) (rest : Gives c keys members) :
      Gives c keys ((some name, j) :: members)

/-- No setting changes when none is taken. -/
@[simp] theorem replace_nil (s c : Settings) : s.replace c [] = s := rfl

/-- Settings are taken one after the other. -/
theorem replace_cons (s c : Settings) (key : Key) (keys : List Key) :
    (s.replace c [key]).replace c keys = s.replace c (key :: keys) := by
  have field : ∀ {α : Type} (own : Key) (new old : α),
      (if own ∈ keys then new else if own ∈ [key] then new else old) =
        if own ∈ key :: keys then new else old := by
    intro α own new old
    by_cases later : own ∈ keys <;> simp [later]
  simp only [replace, field]

/-- A setting is set to the value that it is written as. -/
theorem set?_value (s c : Settings) (key : Key) :
    s.set? key (c.value key) = some (s.replace c [key]) := by
  cases key <;> simp [set?, value, replace]

/-- What the first member of an object does: it is passed over, or it sets a setting that has not
been set. -/
theorem setMembers?_cons_eq_some_iff :
    setMembers? s given ((some name, j) :: rest) = some found ↔
      ((∀ key : Key, key.name ≠ name) ∧ setMembers? s given rest = some found) ∨
      ∃ key s', key.name = name ∧ key ∉ given ∧ s.set? key j = some s' ∧
        setMembers? s' (key :: given) rest = some found := by
  rw [setMembers?]
  cases own : Key.ofName? name with
  | none =>
    have unknown := Key.ofName?_eq_none_iff.mp own
    simp [own, unknown]
  | some key =>
    have named : ∀ other : Key, other.name = name ↔ key = other := fun other => by
      rw [← Key.ofName?_eq_some_iff, own, Option.some.injEq]
    have known : ¬∀ other : Key, other.name ≠ name := fun unknown =>
      unknown key ((named key).mpr rfl)
    simp [own, named, Option.bind_eq_some_iff]

/-- The settings that the members of an object give are set, unless one is set already. -/
theorem setMembers?_of_gives (gives : Gives c keys members) (new : ∀ key ∈ keys, key ∉ given) :
    setMembers? s given members = some (s.replace c keys) := by
  induction gives generalizing s given with
  | nil => rfl
  | @key key keys rest once _ ih =>
    obtain ⟨first, others⟩ := List.forall_mem_cons.mp new
    have later : ∀ other ∈ keys, other ∉ key :: given := fun other mem =>
      List.not_mem_cons_of_ne_of_not_mem (fun same => once (same ▸ mem)) (others other mem)
    refine setMembers?_cons_eq_some_iff.mpr
      (.inr ⟨key, s.replace c [key], rfl, first, set?_value s c key, ?_⟩)
    rw [ih later, replace_cons]
  | other unknown _ ih => exact setMembers?_cons_eq_some_iff.mpr (.inl ⟨unknown, ih new⟩)

/-- Members that are accepted name a key once at most, and not at all if it is set already. -/
theorem count_le_of_setMembers? (read : setMembers? s given members = some found) (key : Key) :
    (members.map Prod.fst).count (some key.name) ≤ if key ∈ given then 0 else 1 := by
  induction members generalizing s given with
  | nil => exact Nat.zero_le _
  | cons member rest ih =>
    obtain ⟨_ | name, j⟩ := member
    · cases read
    rw [List.map_cons, List.count_cons]
    rcases setMembers?_cons_eq_some_iff.mp read with ⟨unknown, read⟩ | ⟨own, s', rfl, new, -, read⟩
    · have other : (some name == some key.name) = false := by simpa using Ne.symm (unknown key)
      simpa [other] using ih read
    · by_cases same : own = key
      · subst same
        simpa [new] using ih read
      · have other : (some own.name == some key.name) = false := by
          have apart : own.name ≠ key.name := fun names =>
            same (Option.some.inj ((Key.ofName?_name own).symm.trans
              (names ▸ Key.ofName?_name key)))
          simpa using apart
        simpa [other, Ne.symm same] using ih read

/-- A text in which a key comes twice is refused, whatever else it holds. -/
theorem ofText_of_twice (twice : 2 ≤ (members.map Prod.fst).count (some key.name))
    (written : Written (.element (.object members)) t) :
    ofText t = .error (.settings .malformed) := by
  have refused : setMembers? {} [] members = none := by
    by_contra accepted
    obtain ⟨found, read⟩ := Option.ne_none_iff_exists'.mp accepted
    have once := count_le_of_setMembers? read key
    rw [if_neg List.not_mem_nil] at once
    omega
  have failed : Json.read? t >>= ofJson? = none := by
    rw [written.read?]
    exact refused
  rw [ofText, failed]

/-- A text that gives settings is read as these, which must be usable. -/
theorem ofText_of_gives (gives : Gives c keys members)
    (written : Written (.element (.object members)) t) :
    ofText t = (replace {} c keys).validate.map fun _ => replace {} c keys := by
  have accepted : setMembers? {} [] members = some (replace {} c keys) :=
    setMembers?_of_gives gives fun _ _ => List.not_mem_nil
  have decoded : Json.read? t >>= ofJson? = some (replace {} c keys) := by
    rw [written.read?]
    exact accepted
  rw [ofText, decoded]
  rfl

/-- Every text that gives settings for some keys, by the grammar of JSON and between any other
members, is read as the defaults with these settings in their place if that is usable, and is
refused with a settings error if it is not. An object that has a key twice is refused with a
settings error, whatever its members are and however they are written. -/
theorem ofText_decodes (c : Settings) :
    (∀ keys members t, Gives c keys members → Written (.element (.object members)) t →
      (Usable (replace {} c keys) → ofText t = .ok (replace {} c keys)) ∧
      (¬Usable (replace {} c keys) → ∃ cause, ofText t = .error (.settings cause))) ∧
    ∀ (key : Key) members t, 2 ≤ (members.map Prod.fst).count (some key.name) →
      Written (.element (.object members)) t → ∃ cause, ofText t = .error (.settings cause) := by
  refine ⟨fun keys members t gives written => ?_, fun key members t twice written =>
    ⟨_, ofText_of_twice twice written⟩⟩
  rw [ofText_of_gives gives written]
  rcases validate_eq (replace {} c keys) with ⟨usable, valid⟩ | ⟨unusable, cause, refused⟩
  · rw [valid]
    exact ⟨fun _ => rfl, fun unusable => absurd usable unusable⟩
  · rw [refused]
    exact ⟨fun usable => absurd usable unusable, fun _ => ⟨cause, rfl⟩⟩

/-- Settings that are no defaults, but for the header with the structures. -/
def givenSettings : Settings where
  nameSpace := []
  extraTypes := ["kuid_t".toList]
  headerName := "😀/.h".toList
  includes := []

/-- A note, which is no setting, and two of the settings. -/
def givenMembers : List (Option Text × Json) :=
  [(some "note".toList, .array [.null, .object []]),
   (some "header_name".toList, .ofText "😀/.h".toList),
   (some "extra_types".toList, .array [.ofText "kuid_t".toList])]

/-- The members as they are written, with escapes and blanks. -/
def givenText : Text :=
  ("\"\\u006eote\":[null, \x7b \x7d ], \"header_name\" : \"\\ud83d\\ude00\\/.h\",\n" ++
    "\"extra_types\":[\"kuid_t\"]").toList

/-- A member that has the name of a setting when its escape is read. -/
def repeatedText : Text := "\"header\\u005fname\":null".toList

theorem gives_givenMembers : Gives givenSettings [.headerName, .extraTypes] givenMembers :=
  .other (fun key => by cases key <;> decide)
    (@Gives.key _ .headerName _ _ (by decide) (@Gives.key _ .extraTypes _ _ (by decide) .nil))

theorem written_givenText : Written (.members givenMembers) givenText := by
  have space : Blank [' '] := List.forall_mem_singleton.mpr rfl
  have line : Blank ['\n'] := List.forall_mem_singleton.mpr rfl
  have noteName := isString_of_contents
    (.cons (.digits (show hexCode? '0' '0' '6' 'e' = some 0x6e from rfl))
      (contents_plain (t := "ote".toList) (by simp)))
  have noteValue := Written.array
    (.elements (.element blank_nil .null blank_nil)
      (.lastElement (.element space (.noMembers space) space)))
  have header := isString_of_contents
    (.cons (.digits (show hexCode? 'd' '8' '3' 'd' = some 0xD83D from rfl))
      (.cons (.digits (show hexCode? 'd' 'e' '0' '0' = some 0xDE00 from rfl))
        (.cons (.letter (show escapedCharacter? '/' = some '/' from rfl))
          (contents_plain (t := ".h".toList) (by simp)))))
  have types := Written.array
    (.lastElement (.element blank_nil (.string (isString_quoted "kuid_t".toList)) blank_nil))
  exact .members (.member blank_nil noteName blank_nil (.element blank_nil noteValue blank_nil))
    (.members
      (.member space (isString_quoted "header_name".toList) space
        (.element space (.string header) blank_nil))
      (.lastMember (.member line (isString_quoted "extra_types".toList) blank_nil
        (.element blank_nil types blank_nil))))

theorem written_repeatedText :
    Written (.member (some "header_name".toList, .null)) repeatedText := by
  have name := isString_of_contents (contents_append
    (contents_plain (t := "header".toList) (by simp))
    (.cons (.digits (show hexCode? '0' '0' '5' 'f' = some 0x5f from rfl))
      (contents_plain (t := "name".toList) (by simp))))
  exact .member blank_nil name blank_nil (.element blank_nil .null blank_nil)

/-- The given settings are read between other members, and they are refused when one of them is
given before under an escaped name. -/
theorem ofText_givenText :
    ofText ('\x7b' :: givenText ++ ['\x7d']) =
        .ok { extraTypes := ["kuid_t".toList], headerName := "😀/.h".toList } ∧
      ∃ cause, ofText ('\x7b' :: (repeatedText ++ ',' :: givenText) ++ ['\x7d']) =
        .error (.settings cause) := by
  have whole : Written (.element (.object givenMembers)) ('\x7b' :: givenText ++ ['\x7d']) :=
    (Written.object written_givenText).alone
  have usable : Usable (replace {} givenSettings [.headerName, .extraTypes]) :=
    ⟨⟨'😀', by decide, by decide⟩, by decide⟩
  have twice : Written (.element (.object ((some "header_name".toList, .null) :: givenMembers)))
      ('\x7b' :: (repeatedText ++ ',' :: givenText) ++ ['\x7d']) :=
    (Written.object (.members written_repeatedText written_givenText)).alone
  exact ⟨((ofText_decodes givenSettings).1 _ _ _ gives_givenMembers whole).1 usable,
    (ofText_decodes givenSettings).2 .headerName _ _ (by decide) twice⟩

end FieldTables.Settings
