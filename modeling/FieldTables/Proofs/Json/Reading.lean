import FieldTables.Proofs.Json.Grammar

/-!
# Reading by the grammar

Every text of the grammar is read as the value that it is written for, whatever stands behind it, as
long as no number goes on there. The bound of the reader is spent on brackets, commas and colons, so
twice the length of a text is enough of it.
-/

namespace FieldTables.Json

variable {t u rest : Text} {c : Char} {bound code : Nat} {found : List Nat} {value : Option Text}

/-- Blanks in front are skipped. -/
theorem skipSpace_append (blank : Blank t) (rest : Text) : skipSpace (t ++ rest) = skipSpace rest :=
  List.dropWhile_append_of_pos blank

/-- Whether a number can go on with a character. -/
def isNumeral (c : Char) : Bool := c.isDigit || c == '.' || c == 'e' || c == 'E'

/-- No number goes on with a text. -/
def Follows (t : Text) : Prop := ∀ c ∈ t.head?, isNumeral c = false

theorem isNumeral_eq_false_iff :
    isNumeral c = false ↔ c.isDigit = false ∧ c ≠ '.' ∧ c ≠ 'e' ∧ c ≠ 'E' := by
  simp [isNumeral, and_assoc]

theorem Follows.not_digit (follows : Follows rest) : ∀ c ∈ rest.head?, c.isDigit = false :=
  fun c mem => (isNumeral_eq_false_iff.mp (follows c mem)).1

/-- Digits are read up to where there is no other one. -/
theorem digits?_append (is : IsDigits t) (ends : ∀ c ∈ rest.head?, c.isDigit = false) :
    digits? (t ++ rest) = some (t, rest) := by
  have stops : rest.takeWhile Char.isDigit = [] ∧ rest.dropWhile Char.isDigit = rest := by
    cases rest with
    | nil => exact ⟨rfl, rfl⟩
    | cons c rest =>
      have other : ¬c.isDigit = true := by simpa using ends
      exact ⟨List.takeWhile_cons_of_neg other, List.dropWhile_cons_of_neg other⟩
  rw [digits?, List.takeWhile_append_of_pos is.digits, List.dropWhile_append_of_pos is.digits,
    stops.1, stops.2, List.append_nil]
  simp [is.full]

/-- Digits start with one. -/
theorem IsDigits.exists_cons (is : IsDigits t) : ∃ c rest, t = c :: rest ∧ c.isDigit = true := by
  obtain ⟨c, rest, rfl⟩ := List.exists_cons_of_ne_nil is.full
  exact ⟨c, rest, rfl, is.digits c List.mem_cons_self⟩

theorem integer?_append (is : IsWhole t) (ends : ∀ c ∈ rest.head?, c.isDigit = false) :
    integer? (t ++ rest) = some (t, rest) := by
  cases is with
  | zero => rfl
  | digits is leading =>
    obtain ⟨c, others, rfl, -⟩ := is.exists_cons
    have other : c ≠ '0' := fun zero => leading (congrArg some zero)
    have read := digits?_append is ends
    rw [List.cons_append] at read ⊢
    rw [integer?, read]
    simpa using other

theorem fraction?_append (is : IsFraction t) (ends : ∀ c ∈ rest.head?, c.isDigit = false)
    (apart : rest.head? ≠ some '.') : fraction? (t ++ rest) = some (t, rest) := by
  cases is with
  | absent =>
    rw [List.nil_append]
    unfold fraction?
    split
    next => exact absurd rfl apart
    next => rfl
  | present written =>
    rw [List.cons_append, fraction?, digits?_append written ends]
    rfl

theorem exponent?_append (is : IsExponent t) (follows : Follows rest) :
    exponent? (t ++ rest) = some (t, rest) := by
  cases is with
  | absent =>
    cases rest with
    | nil => rfl
    | cons c others =>
      obtain ⟨-, -, small, capital⟩ := isNumeral_eq_false_iff.mp (follows c rfl)
      rw [List.nil_append, exponent?.eq_def]
      simp [small, capital]
  | @present e sign digits letter signed written =>
    have read := digits?_append written follows.not_digit
    obtain ⟨d, others, rfl, digit⟩ := written.exists_cons
    have unsigned : ¬(d = '+' ∨ d = '-') := by
      rintro (rfl | rfl) <;> cases digit
    rw [List.cons_append] at read
    rcases signed with rfl | rfl | rfl <;> simp [exponent?, letter, unsigned, read]

/-- The exponent and what follows a number start with no digit and no point. -/
theorem IsExponent.head?_append (is : IsExponent t) (follows : Follows rest) :
    ∀ c ∈ (t ++ rest).head?, c.isDigit = false ∧ c ≠ '.' := by
  cases is with
  | absent =>
    intro c mem
    obtain ⟨digit, point, -, -⟩ := isNumeral_eq_false_iff.mp (follows c mem)
    exact ⟨digit, point⟩
  | present letter =>
    intro c mem
    cases mem
    rcases letter with rfl | rfl <;> decide

theorem number?_append (is : IsNumber t) (follows : Follows rest) :
    number? (t ++ rest) = some (t, rest) := by
  obtain @⟨sign, whole, fraction, exponent, signed, isWhole, isFraction, isExponent⟩ := is
  have behind := isExponent.head?_append follows
  have between : ∀ c ∈ (fraction ++ (exponent ++ rest)).head?, c.isDigit = false := by
    cases isFraction with
    | absent => exact fun c mem => (behind c mem).1
    | present => simp
  have readWhole := integer?_append isWhole between
  have readFraction := fraction?_append isFraction (fun c mem => (behind c mem).1)
    fun point => (behind '.' point).2 rfl
  have readExponent := exponent?_append isExponent follows
  have unsigned : ∀ u, whole ++ (fraction ++ (exponent ++ rest)) ≠ '-' :: u := by
    intro u same
    cases isWhole with
    | zero => cases same
    | digits is =>
      obtain ⟨c, others, rfl, digit⟩ := is.exists_cons
      cases same
      cases digit
  rcases signed with rfl | rfl
  · simp only [List.nil_append, List.append_assoc]
    unfold number?
    split
    next parted =>
      split at parted
      next minus => exact absurd minus (unsigned _)
      next =>
        cases parted
        simp [readWhole, readFraction, readExponent]
  · simp [number?, readWhole, readFraction, readExponent]

theorem IsNumber.ne_nil (is : IsNumber t) : t ≠ [] := by
  obtain ⟨-, isWhole, -, -⟩ := is
  cases isWhole with
  | zero => simp
  | digits digits => simp [digits.full]

/-- A code is read as it is written. -/
theorem codes_append (is : Encodes t code) (rest : Text) :
    codes (t ++ rest) = (codes rest).map fun found => (code :: found.1, found.2) := by
  cases is with
  | plain printable quote backslash =>
    rw [List.singleton_append, codes.eq_def]
    split
    next same => cases same
    next same => exact absurd (List.cons.inj same).1 quote
    next same => exact absurd (List.cons.inj same).1 backslash
    next same => exact absurd (List.cons.inj same).1 backslash
    next same =>
      cases same
      rw [if_neg (by simp [backslash]; omega)]
      cases codes rest <;> rfl
  | @letter e c stands =>
    have apart : e ≠ 'u' := by
      rintro rfl
      cases stands
    rw [List.cons_append, List.singleton_append, codes.eq_def]
    split
    next same => cases same
    next same => cases same
    next same =>
      cases same
      exact absurd rfl apart
    next same =>
      cases same
      rw [stands]
      cases codes rest <;> rfl
    next other same =>
      cases same
      exact (other _ _ rfl rfl).elim
  | digits stands =>
    simp only [List.cons_append, List.nil_append]
    rw [codes, stands]
    cases codes rest <;> rfl

theorem codes_contents (is : Contents t found) (rest : Text) :
    codes (t ++ '"' :: rest) = some (found, rest) := by
  induction is with
  | nil => rfl
  | cons first _ ih =>
    rw [List.append_assoc, codes_append first, ih]
    rfl

theorem textOfCodes?_eq_some_iff {found : List Nat} {text : Text} :
    textOfCodes? found = some text ↔ Denotes found text := by
  fun_induction textOfCodes? found generalizing text with
  | case1 =>
    constructor
    · intro read
      cases read
      exact .nil
    · rintro ⟨⟩
      rfl
  | case2 lead trail rest isLead isTrail ih =>
    rw [Option.map_eq_some_iff]
    constructor
    · rintro ⟨t, read, rfl⟩
      exact .two isLead isTrail (ih.mp read)
    · rintro (_ | ⟨notLead⟩ | ⟨_, _, below⟩)
      · cases notLead.symm.trans isLead
      · exact ⟨_, ih.mpr below, rfl⟩
  | case3 lead trail rest isLead notTrail =>
    refine iff_of_false nofun ?_
    rintro (_ | ⟨notLead⟩ | ⟨_, isTrail⟩)
    · cases notLead.symm.trans isLead
    · exact notTrail isTrail
  | case4 lead trail rest notLead isTrail =>
    refine iff_of_false nofun ?_
    rintro (_ | ⟨_, notTrail⟩ | ⟨isLead⟩)
    · cases notTrail.symm.trans isTrail
    · exact notLead isLead
  | case5 code trail rest notLead notTrail ih =>
    rw [Option.map_eq_some_iff]
    constructor
    · rintro ⟨t, read, rfl⟩
      exact .one (by simpa using notLead) (by simpa using notTrail) (ih.mp read)
    · rintro (_ | ⟨_, _, below⟩ | ⟨isLead⟩)
      · exact ⟨_, ih.mpr below, rfl⟩
      · exact absurd isLead notLead
  | case6 code surrogate =>
    refine iff_of_false nofun ?_
    rintro (_ | ⟨notLead, notTrail⟩)
    simp [notLead, notTrail] at surrogate
  | case7 code plain =>
    rw [Bool.or_eq_true, not_or, Bool.not_eq_true, Bool.not_eq_true] at plain
    constructor
    · intro read
      cases read
      exact .one plain.1 plain.2 .nil
    · rintro (_ | ⟨_, _, ⟨⟩⟩)
      rfl

/-- A string is read after its opening quote. -/
theorem IsString.exists_cons (is : IsString value t) :
    ∃ inside, t = '"' :: inside ∧ ∀ rest, string? (inside ++ rest) = some (value, rest) := by
  obtain @⟨inside, found, contents, denotes⟩ := is
  refine ⟨inside ++ ['"'], rfl, fun rest => ?_⟩
  have text : textOfCodes? found = value :=
    Option.ext fun text => textOfCodes?_eq_some_iff.trans (denotes text).symm
  rw [List.append_assoc, List.singleton_append, string?, codes_contents contents rest, ← text]
  rfl

/-- A value is read as a number when a number is read. -/
theorem value?_of_number? {digits : Text} (read : number? t = some (digits, rest)) :
    value? (bound + 1) t = some (.number digits, rest) := by
  unfold value?
  split
  case h_7 =>
    rw [read]
    rfl
  all_goals cases read

/-- A value that is read starts where its text does. -/
theorem skipSpace_of_value? {found : Json × Text} (read : value? bound t = some found) :
    skipSpace t = t := by
  cases t with
  | nil => rfl
  | cons c rest =>
    refine List.dropWhile_cons_of_neg fun space => ?_
    simp only [isSpace, Bool.or_eq_true, beq_iff_eq] at space
    cases bound with
    | zero => cases read
    | succ bound =>
      obtain ((rfl | rfl) | rfl) | rfl := space
      all_goals cases read

/-- How a phrase is read from a text that it is written as. -/
def Readable : Phrase → Text → Prop
  | .value j, t => ∀ bound rest, 2 * t.length ≤ bound → Follows rest →
    value? bound (t ++ rest) = some (j, rest)
  | .element j, t => ∀ bound rest, 2 * t.length ≤ bound → Follows rest →
    ∃ after, value? bound (skipSpace (t ++ rest)) = some (j, after) ∧
      skipSpace after = skipSpace rest
  | .elements items, t => ∀ bound rest, 2 * t.length < bound →
    items? bound (skipSpace (t ++ ']' :: rest)) = some (items, rest)
  | .member (name, j), t => ∀ bound rest, 2 * t.length ≤ bound → Follows rest →
    ∃ inside between behind after, skipSpace (t ++ rest) = '"' :: inside ∧
      string? inside = some (name, between) ∧ skipSpace between = ':' :: behind ∧
      value? bound (skipSpace behind) = some (j, after) ∧ skipSpace after = skipSpace rest
  | .members members, t => ∀ bound rest, 2 * t.length < bound →
    members? bound (skipSpace (t ++ '\x7d' :: rest)) = some (members, rest)

/-- No items start with the closing bracket of an array. -/
theorem items?_bracket (bound : Nat) (t : Text) : items? bound (']' :: t) = none := by
  rcases bound with _ | _ | bound <;> rfl

/-- No members start with the closing brace of an object. -/
theorem members?_brace (bound : Nat) (t : Text) : members? bound ('\x7d' :: t) = none := by
  cases bound <;> rfl

theorem follows_cons (other : isNumeral c = false) (rest : Text) : Follows (c :: rest) := by
  rintro _ ⟨⟩
  exact other

theorem Follows.append (follows : Follows rest) (blank : Blank t) : Follows (t ++ rest) := by
  cases t with
  | nil => exact follows
  | cons c t =>
    have space := blank c List.mem_cons_self
    simp only [isSpace, Bool.or_eq_true, beq_iff_eq] at space
    obtain ((rfl | rfl) | rfl) | rfl := space <;> exact follows_cons (by decide) _

section

variable {j : Json} {items : List Json} {name : Option Text} {m : Option Text × Json}
  {ms : List (Option Text × Json)} {front back key : Text}

/-- A value is read when it is read with some bound left. -/
private theorem readable_value (full : t ≠ [])
    (reads : ∀ bound rest, 2 * t.length ≤ bound + 1 → Follows rest →
      value? (bound + 1) (t ++ rest) = some (j, rest)) : Readable (.value j) t := by
  intro bound rest enough follows
  have positive := List.length_pos_iff.mpr full
  obtain ⟨bound, rfl⟩ := Nat.exists_eq_add_one.mpr (show 0 < bound by omega)
  exact reads bound rest enough follows

private theorem readable_noItems (blank : Blank t) :
    Readable (.value (.array [])) ('[' :: t ++ [']']) := by
  refine readable_value (List.cons_ne_nil _ _) fun bound rest _ _ => ?_
  have close : skipSpace (t ++ ']' :: rest) = ']' :: rest := skipSpace_append blank _
  rw [List.cons_append, List.cons_append, List.append_assoc, List.singleton_append, value?, close]
  rfl

private theorem readable_array (inside : Readable (.elements items) t) :
    Readable (.value (.array items)) ('[' :: t ++ [']']) := by
  refine readable_value (List.cons_ne_nil _ _) fun bound rest enough _ => ?_
  have read := inside bound rest (by simp at enough; omega)
  rw [List.cons_append, List.cons_append, List.append_assoc, List.singleton_append, value?]
  split
  next close =>
    rw [close, items?_bracket] at read
    cases read
  next =>
    rw [read]
    rfl

private theorem readable_noMembers (blank : Blank t) :
    Readable (.value (.object [])) ('\x7b' :: t ++ ['\x7d']) := by
  refine readable_value (List.cons_ne_nil _ _) fun bound rest _ _ => ?_
  have close : skipSpace (t ++ '\x7d' :: rest) = '\x7d' :: rest := skipSpace_append blank _
  rw [List.cons_append, List.cons_append, List.append_assoc, List.singleton_append, value?, close]
  rfl

private theorem readable_object (inside : Readable (.members ms) t) :
    Readable (.value (.object ms)) ('\x7b' :: t ++ ['\x7d']) := by
  refine readable_value (List.cons_ne_nil _ _) fun bound rest enough _ => ?_
  have read := inside bound rest (by simp at enough; omega)
  rw [List.cons_append, List.cons_append, List.append_assoc, List.singleton_append, value?]
  split
  next close =>
    rw [close, members?_brace] at read
    cases read
  next =>
    rw [read]
    rfl

private theorem readable_element (before : Blank front) (value : Readable (.value j) t)
    (behind : Blank back) : Readable (.element j) (front ++ t ++ back) := by
  intro bound rest enough follows
  have read := value bound (back ++ rest) (by simp at enough; omega) (follows.append behind)
  refine ⟨back ++ rest, ?_, skipSpace_append behind rest⟩
  rwa [List.append_assoc, List.append_assoc, skipSpace_append before, skipSpace_of_value? read]

private theorem readable_lastElement (last : Readable (.element j) t) :
    Readable (.elements [j]) t := by
  intro bound rest enough
  obtain ⟨bound, rfl⟩ := Nat.exists_eq_add_one.mpr (show 0 < bound by omega)
  obtain ⟨after, read, close⟩ := last bound (']' :: rest) (by omega) (follows_cons (by decide) _)
  rw [items?, read]
  have close : skipSpace after = ']' :: rest := close
  simp [close]

private theorem readable_elements (first : Readable (.element j) t)
    (others : Readable (.elements items) u) :
    Readable (.elements (j :: items)) (t ++ ',' :: u) := by
  intro bound rest enough
  rw [List.length_append, List.length_cons] at enough
  obtain ⟨bound, rfl⟩ := Nat.exists_eq_add_one.mpr (show 0 < bound by omega)
  obtain ⟨after, read, comma⟩ :=
    first bound (',' :: (u ++ ']' :: rest)) (by omega) (follows_cons (by decide) _)
  have comma : skipSpace after = ',' :: (u ++ ']' :: rest) := comma
  rw [List.append_assoc, List.cons_append, items?, read]
  simp [comma, others bound rest (by omega)]

private theorem readable_member (before : Blank front) (isKey : IsString name key)
    (behind : Blank back) (value : Readable (.element j) t) :
    Readable (.member (name, j)) (front ++ key ++ back ++ ':' :: t) := by
  intro bound rest enough follows
  obtain ⟨inside, rfl, read⟩ := isKey.exists_cons
  obtain ⟨after, readValue, goes⟩ := value bound rest (by simp at enough; omega) follows
  refine ⟨_, _, _, after, ?_, read (back ++ ':' :: (t ++ rest)), skipSpace_append behind _,
    readValue, goes⟩
  have whole : front ++ '"' :: inside ++ back ++ ':' :: t ++ rest =
      front ++ ('"' :: (inside ++ (back ++ ':' :: (t ++ rest)))) := by simp
  rw [whole, skipSpace_append before]
  rfl

private theorem readable_lastMember (last : Readable (.member m) t) :
    Readable (.members [m]) t := by
  intro bound rest enough
  obtain ⟨bound, rfl⟩ := Nat.exists_eq_add_one.mpr (show 0 < bound by omega)
  obtain ⟨inside, between, behind, after, start, read, colon, readValue, close⟩ :=
    last bound ('\x7d' :: rest) (by omega) (follows_cons (by decide) _)
  have close : skipSpace after = '\x7d' :: rest := close
  rw [start, members?, read]
  simp [colon, readValue, close]

private theorem readable_members (first : Readable (.member m) t)
    (others : Readable (.members ms) u) : Readable (.members (m :: ms)) (t ++ ',' :: u) := by
  intro bound rest enough
  rw [List.length_append, List.length_cons] at enough
  obtain ⟨bound, rfl⟩ := Nat.exists_eq_add_one.mpr (show 0 < bound by omega)
  obtain ⟨inside, between, behind, after, start, read, colon, readValue, comma⟩ :=
    first bound (',' :: (u ++ '\x7d' :: rest)) (by omega) (follows_cons (by decide) _)
  have comma : skipSpace after = ',' :: (u ++ '\x7d' :: rest) := comma
  rw [List.append_assoc, List.cons_append, start, members?, read]
  simp [colon, readValue, comma, others bound rest (by omega)]

/-- A phrase is read from every text that it may be written as. -/
theorem Written.readable {phrase : Phrase} (written : Written phrase t) : Readable phrase t := by
  induction written with
  | null => exact readable_value (by decide) fun _ _ _ _ => rfl
  | yes => exact readable_value (by decide) fun _ _ _ _ => rfl
  | no => exact readable_value (by decide) fun _ _ _ _ => rfl
  | number is =>
    exact readable_value is.ne_nil fun _ _ _ follows =>
      value?_of_number? (number?_append is follows)
  | string is =>
    obtain ⟨inside, rfl, read⟩ := is.exists_cons
    refine readable_value (List.cons_ne_nil _ _) fun bound rest _ _ => ?_
    rw [List.cons_append, value?, read]
    rfl
  | noItems blank => exact readable_noItems blank
  | array _ inside => exact readable_array inside
  | noMembers blank => exact readable_noMembers blank
  | object _ inside => exact readable_object inside
  | element before _ behind value => exact readable_element before value behind
  | lastElement _ last => exact readable_lastElement last
  | elements _ _ first others => exact readable_elements first others
  | member before isKey behind _ value => exact readable_member before isKey behind value
  | lastMember _ last => exact readable_lastMember last
  | members _ _ first others => exact readable_members first others

/-- A text of the grammar is read as the value that it is written for. -/
theorem Written.read? {j : Json} (written : Written (.element j) t) : read? t = some j := by
  obtain ⟨after, read, rest⟩ := written.readable (2 * t.length + 2) [] (by omega) nofun
  rw [List.append_nil] at read
  have rest : skipSpace after = [] := rest
  rw [Json.read?, read]
  simp [rest]

/-- A text is written for one value only. -/
theorem Written.unique {j j' : Json} (first : Written (.element j) t)
    (second : Written (.element j') t) : j = j' :=
  Option.some.inj (first.read?.symm.trans second.read?)

end

end FieldTables.Json
