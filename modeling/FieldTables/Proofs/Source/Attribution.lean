import FieldTables.Proofs.Source.Acceptance
import FieldTables.Proofs.Source.Brace
import Mathlib.Data.List.Sort

/-!
# Which structure a declaration is given to

Closing braces say nothing, so a declaration belongs to the structure that was opened last in front
of it. With balanced braces and no structure opened inside another one, that is the structure whose
braces are around the declaration, or else the one that was closed last, as long as there is one. A
declaration in front of every structure is refused, and the first one is reported.
-/

namespace FieldTables

open Text Outcome

namespace Statement

variable {s a b : Statement} {p q : Place} {c d : Char} {t : Text}

/-- A character that is not blank stands at a place, in the text of the statement. -/
def ShowsAt (s : Statement) (p : Place) (c : Char) : Prop := s.line = p.line ∧ s.Shows p.offset c

/-- Where the text of a statement starts. -/
def start (s : Statement) : Place := ⟨s.line, s.column - 1⟩

/-- Where the last byte of the text of a statement stands. -/
def ending (s : Statement) : Place := ⟨s.line, s.column + s.text.width - 2⟩

/-- Whether a statement declares something: it is not empty and opens nothing. -/
def declares (s : Statement) : Bool := !s.text.isEmpty && !s.isOpening

theorem ne_nil_of_declares (declares : s.declares = true) : s.text ≠ [] := by
  rw [Statement.declares, Bool.and_eq_true, Bool.not_eq_true', List.isEmpty_eq_false_iff]
    at declares
  exact declares.1

/-- What a statement shows comes before what a later one shows. -/
theorem Before.place_before (before : a.Before b) (first : a.ShowsAt p c)
    (second : b.ShowsAt q d) : p.Before q := by
  obtain ⟨line, k, place, ink⟩ := first
  obtain ⟨line', k', place', -⟩ := second
  have fits := ink.1.add_size_le
  have positive := c.utf8Size_pos
  unfold Before at before
  unfold Place.Before
  omega

/-- The statements of a text show what is kept of it, where it is. -/
theorem exists_showsAt_iff : (∃ s ∈ ofText t, s.ShowsAt p c) ↔ t.KeptAt p c := by
  constructor
  · rintro ⟨s, mem, number, shows⟩
    obtain ⟨i, line, at_, mem⟩ := mem_ofText_iff.mp mem
    have same : s.line = i + 1 := line_of_mem_ofLine mem
    exact ⟨i, line, at_, number.symm.trans same, shows_strip_iff.mp ⟨s, mem, shows⟩⟩
  · rintro ⟨i, line, at_, number, kept⟩
    obtain ⟨s, mem, shows⟩ := (shows_strip_iff (n := i + 1)).mpr kept
    have same : s.line = i + 1 := line_of_mem_ofLine mem
    exact ⟨s, mem_ofText_iff.mpr ⟨i, line, at_, mem⟩, same.trans number.symm, shows⟩

/-- A statement with a text shows a character where it starts. -/
theorem exists_showsAt_start (mem : s ∈ ofText t) (nonempty : s.text ≠ []) :
    ∃ c, s.ShowsAt s.start c := by
  obtain ⟨i, line, -, -, -, trimmed, -⟩ := exists_kept mem
  have positive := column_pos_of_mem_ofText mem
  obtain ⟨c, rest, shape⟩ := List.exists_cons_of_ne_nil nonempty
  have visible : isBlank c = false := by
    by_contra blank
    rw [Bool.not_eq_false] at blank
    have fits := width_trim_le s.text
    have front : s.text.indent = c :: indent rest := by
      rw [shape, indent, List.takeWhile_cons_of_pos blank, indent]
    have own := c.utf8Size_pos
    rw [trimmed, front, width_cons] at fits
    omega
  refine ⟨c, rfl, 0, Nat.sub_add_cancel positive, ?_, visible⟩
  exact shape ▸ ⟨[], rest, rfl, rfl⟩

/-- An opening brace is the last byte of a statement. -/
private theorem width_eq_of_brace (mem : s ∈ ofText t) {before after : Text}
    (split : s.text = before ++ '{' :: after) : s.text.width = before.width + 1 := by
  obtain ⟨i, line, -, -, -, -, last⟩ := exists_kept mem
  obtain rfl := last before after split
  have size : Char.utf8Size '{' = 1 := by decide
  rw [split, width_append, width_cons, size, width_nil]

/-- An opening shows its brace where it ends. -/
theorem showsAt_ending (mem : s ∈ ofText t) (opens : s.isOpening = true) :
    s.ShowsAt s.ending '{' := by
  have positive := column_pos_of_mem_ofText mem
  obtain ⟨before, after, split⟩ := List.append_of_mem (List.contains_iff_mem.mp opens)
  have whole := width_eq_of_brace mem split
  refine ⟨rfl, width before, ?_, ⟨before, after, split, rfl⟩, by decide⟩
  simp only [ending, whole]
  omega

/-- An opening brace is shown by an opening, where it ends. -/
theorem isOpening_of_showsAt (mem : s ∈ ofText t) (shows : s.ShowsAt p '{') :
    s.isOpening = true ∧ p = s.ending := by
  obtain ⟨number, _, place, ⟨before, after, split, rfl⟩, -⟩ := shows
  have whole := width_eq_of_brace mem split
  refine ⟨List.contains_iff_mem.mpr (split ▸ List.mem_append_right _ List.mem_cons_self), ?_⟩
  obtain ⟨m, offset⟩ := p
  simp only [ending, Place.mk.injEq] at number place ⊢
  omega

theorem Before.asymm (before : a.Before b) : ¬b.Before a := by
  unfold Before at *
  omega

instance : Std.Irrefl Before := ⟨fun _ before => before.asymm before⟩

instance : Std.Antisymm Before := ⟨fun _ _ before after => absurd after before.asymm⟩

end Statement

open Statement

namespace Segment

variable {statements : List Statement} {g g' : Segment} {s : Statement}

/-- A segment comes before another one with all of its statements. -/
def Before (g g' : Segment) : Prop := ∀ a ∈ g.statements, ∀ b ∈ g'.statements, a.Before b

/-- Statements in order are cut into segments in order. -/
structure Ordered (statements : List Statement) : Prop where
  /-- What stands before the first opening comes before all segments. -/
  lead : ∀ a ∈ Statement.lead statements, ∀ g ∈ ofStatements statements, ∀ b ∈ g.statements,
    a.Before b
  /-- The segments come one after the other. -/
  segments : (ofStatements statements).Pairwise Before
  /-- The statements of a segment come in order. -/
  inside : ∀ g ∈ ofStatements statements, g.statements.Pairwise Statement.Before

theorem ordered_of_pairwise (ordered : statements.Pairwise Statement.Before) :
    Ordered statements := by
  rw [← lead_append_flatMap statements, List.pairwise_append, List.pairwise_flatMap] at ordered
  obtain ⟨-, ⟨inside, segments⟩, lead⟩ := ordered
  exact ⟨fun a ha g hg b hb => lead a ha b (List.mem_flatMap.mpr ⟨g, hg, hb⟩), segments, inside⟩

/-- Of two segments one comes before the other. -/
theorem Ordered.eq_or_before (ordered : Ordered statements) (hg : g ∈ ofStatements statements)
    (hg' : g' ∈ ofStatements statements) : g = g' ∨ g.Before g' ∨ g'.Before g := by
  let Apart (g g' : Segment) : Prop := g = g' ∨ g.Before g' ∨ g'.Before g
  have apart : (ofStatements statements).Pairwise Apart :=
    ordered.segments.imp fun before => .inr (.inl before)
  have flipped : (ofStatements statements).Pairwise (flip Apart) :=
    ordered.segments.imp fun before => .inr (.inr before)
  exact apart.forall_of_forall_of_flip (fun _ _ => .inl rfl) flipped hg hg'

/-- The opening of a segment comes before its declarations. -/
theorem Ordered.opener_before (ordered : Ordered statements) (hg : g ∈ ofStatements statements)
    (hs : s ∈ g.declarations) : g.opener.Before s :=
  (List.pairwise_cons.mp (ordered.inside g hg)).1 s (List.mem_of_mem_filter hs)

/-- A statement that declares something stands before the first opening or in one segment. -/
theorem mem_lead_or_exists_mem_declarations (mem : s ∈ statements) (declares : s.declares = true) :
    s ∈ Statement.lead statements ∨ ∃ g ∈ ofStatements statements, s ∈ g.declarations := by
  rw [Statement.declares, Bool.and_eq_true, Bool.not_eq_true', Bool.not_eq_true'] at declares
  obtain ⟨full, plain⟩ := declares
  rw [← lead_append_flatMap statements, List.mem_append, List.mem_flatMap] at mem
  refine mem.imp_right ?_
  rintro ⟨g, hg, within⟩
  rcases List.mem_cons.mp within with rfl | body
  · rw [g.opens] at plain
    cases plain
  · exact ⟨g, hg, List.mem_filter.mpr ⟨body, by rw [full, Bool.not_false]⟩⟩

/-- The statements of a segment are among those that are cut. -/
theorem mem_of_mem_statements (hg : g ∈ ofStatements statements) (hs : s ∈ g.statements) :
    s ∈ statements := by
  rw [← lead_append_flatMap statements]
  exact List.mem_append_right _ (List.mem_flatMap.mpr ⟨g, hg, hs⟩)

/-- A declaration of a segment declares something. -/
theorem declares_of_mem_declarations (hs : s ∈ g.declarations) : s.declares = true := by
  obtain ⟨body, full⟩ := List.mem_filter.mp hs
  rw [Statement.declares, full, g.plain s body]
  rfl

end Segment

namespace Text

variable {t : Text} {e : Enclosure} {g : Segment} {d : Statement} {p : Place} {c : Char}

/-- A structure is the last one that was opened before a place. -/
def OpenedLast (t : Text) (e : Enclosure) (p : Place) : Prop :=
  e.opening.Before p ∧ ∀ f ∈ t.enclosures, f.opening.Before p → ¬e.opening.Before f.opening

instance : Decidable (t.OpenedLast e p) :=
  inferInstanceAs (Decidable (e.opening.Before p ∧
    ∀ f ∈ t.enclosures, f.opening.Before p → ¬e.opening.Before f.opening))

/-- The declarations behind the opening of a structure, up to the next one. -/
def attributed (t : Text) (e : Enclosure) : List Statement :=
  (ofText t).filter fun s => s.declares && decide (t.OpenedLast e s.start)

theorem mem_attributed_iff : d ∈ t.attributed e ↔
    d ∈ ofText t ∧ d.declares = true ∧ t.OpenedLast e d.start := by
  rw [attributed, List.mem_filter, Bool.and_eq_true, decide_eq_true_eq]

/-- The statements of a text are cut into segments in order. -/
theorem ordered_ofText (t : Text) : Segment.Ordered (ofText t) :=
  Segment.ordered_of_pairwise (ordered_ofLines ..)

/-- An opening ends with the brace that it shows. -/
theorem opener_showsAt (hg : g ∈ Segment.ofStatements (ofText t)) :
    g.opener ∈ ofText t ∧ g.opener.ShowsAt g.opener.ending '{' :=
  have mem := Segment.mem_of_mem_statements hg (s := g.opener) List.mem_cons_self
  ⟨mem, showsAt_ending mem g.opens⟩

/-- Segments open their structures in order. -/
theorem ending_before {g' : Segment} (hg : g ∈ Segment.ofStatements (ofText t))
    (hg' : g' ∈ Segment.ofStatements (ofText t)) (before : g.Before g') :
    g.opener.ending.Before g'.opener.ending :=
  (before g.opener List.mem_cons_self g'.opener List.mem_cons_self).place_before
    (opener_showsAt hg).2 (opener_showsAt hg').2

/-- Named structures are opened where the openings of segments end. -/
theorem map_opening_enclosures (balanced : t.Balanced) : t.enclosures.map Enclosure.opening =
    (Segment.ofStatements (ofText t)).map fun g => g.opener.ending := by
  have ordered : ((Segment.ofStatements (ofText t)).map fun g => g.opener.ending).Pairwise
      Place.Before :=
    List.pairwise_map.mpr (t.ordered_ofText.segments.imp_of_mem fun hg hg' before =>
      ending_before hg hg' before)
  -- Both lists are in order, so it is enough that they have the same members.
  refine (pairwise_opening_enclosures balanced).eq_of_mem_iff ordered fun p => ?_
  rw [mem_opening_enclosures_iff balanced, ← exists_showsAt_iff, List.mem_map]
  constructor
  · rintro ⟨s, mem, shows⟩
    obtain ⟨opens, rfl⟩ := isOpening_of_showsAt mem shows
    have listed : s ∈ (Segment.ofStatements (ofText t)).map Segment.opener := by
      rw [Segment.map_opener_ofStatements]
      exact List.mem_filter.mpr ⟨mem, opens⟩
    obtain ⟨g, hg, rfl⟩ := List.mem_map.mp listed
    exact ⟨g, hg, rfl⟩
  · rintro ⟨g, hg, rfl⟩
    exact ⟨g.opener, opener_showsAt hg⟩

theorem exists_enclosure_of_mem_segments (balanced : t.Balanced)
    (hg : g ∈ Segment.ofStatements (ofText t)) :
    ∃ e ∈ t.enclosures, e.opening = g.opener.ending := by
  have listed := List.mem_map_of_mem (f := fun g : Segment => g.opener.ending) hg
  rw [← map_opening_enclosures balanced] at listed
  exact List.mem_map.mp listed

theorem exists_segment_of_mem_enclosures (balanced : t.Balanced) (he : e ∈ t.enclosures) :
    ∃ g ∈ Segment.ofStatements (ofText t), g.opener.ending = e.opening := by
  have listed := List.mem_map_of_mem (f := Enclosure.opening) he
  rw [map_opening_enclosures balanced] at listed
  exact List.mem_map.mp listed

/-- No structure is opened before what stands in front of the first opening. -/
theorem not_opened_before_lead (balanced : t.Balanced) (hd : d ∈ Statement.lead (ofText t))
    (shows : d.ShowsAt p c) : ∀ e ∈ t.enclosures, ¬e.opening.Before p := by
  intro e he
  obtain ⟨g, hg, same⟩ := exists_segment_of_mem_enclosures balanced he
  rw [← same]
  have before := t.ordered_ofText.lead d hd g hg g.opener List.mem_cons_self
  exact (before.place_before shows (opener_showsAt hg).2).asymm

/-- A statement of a text declares something in front of every structure. -/
structure Stray (t : Text) (d : Statement) : Prop where
  mem : d ∈ ofText t
  declares : d.declares = true
  front : ∀ e ∈ t.enclosures, ¬e.opening.Before d.start

/-- The structure of a segment is the last one that was opened before each of its declarations. -/
theorem openedLast_of_mem_declarations (balanced : t.Balanced)
    (hg : g ∈ Segment.ofStatements (ofText t)) (same : g.opener.ending = e.opening)
    (hd : d ∈ g.declarations) (shows : d.ShowsAt p c) : t.OpenedLast e p := by
  have within : d ∈ g.statements := List.mem_cons_of_mem _ (List.mem_of_mem_filter hd)
  refine ⟨?_, fun f hf opened later => ?_⟩
  · rw [← same]
    exact (t.ordered_ofText.opener_before hg hd).place_before (opener_showsAt hg).2 shows
  · obtain ⟨g', hg', same'⟩ := exists_segment_of_mem_enclosures balanced hf
    rw [← same, ← same'] at later
    rw [← same'] at opened
    -- A structure that is opened later is opened behind all of this segment.
    rcases t.ordered_ofText.eq_or_before hg hg' with rfl | before | before
    · exact Place.not_before_self _ later
    · have behind := before d within g'.opener List.mem_cons_self
      exact opened.asymm (behind.place_before shows (opener_showsAt hg').2)
    · exact later.asymm (ending_before hg' hg before)

/-- What is declared in front of every structure are the statements in front of the first opening
that are not empty. -/
theorem stray_iff_mem (balanced : t.Balanced) :
    t.Stray d ↔ d ∈ (Statement.lead (ofText t)).filter fun s => !s.text.isEmpty := by
  rw [List.mem_filter, Bool.not_eq_true', List.isEmpty_eq_false_iff]
  constructor
  · rintro ⟨mem, declares, front⟩
    refine ⟨?_, ne_nil_of_declares declares⟩
    refine (Segment.mem_lead_or_exists_mem_declarations mem declares).resolve_right ?_
    rintro ⟨g, hg, hd⟩
    obtain ⟨c, shows⟩ := exists_showsAt_start mem (ne_nil_of_declares declares)
    obtain ⟨e, he, same⟩ := exists_enclosure_of_mem_segments balanced hg
    exact front e he (openedLast_of_mem_declarations balanced hg same.symm hd shows).1
  · rintro ⟨lead, full⟩
    have mem : d ∈ ofText t := List.takeWhile_subset _ lead
    obtain ⟨c, shows⟩ := exists_showsAt_start mem full
    refine ⟨mem, ?_, not_opened_before_lead balanced lead shows⟩
    rw [Statement.declares, Statement.isOpening_of_mem_lead lead, Bool.and_eq_true,
      Bool.not_eq_true', List.isEmpty_eq_false_iff]
    exact ⟨full, rfl⟩

/-- Only one structure is the last one that was opened before a place. -/
theorem OpenedLast.opening_eq {f : Enclosure} (he : e ∈ t.enclosures) (hf : f ∈ t.enclosures)
    (last : t.OpenedLast e p) (last' : t.OpenedLast f p) : e.opening = f.opening := by
  rcases Place.before_or_eq_or_before e.opening f.opening with before | same | before
  · exact absurd before (last.2 f hf last'.1)
  · exact same
  · exact absurd before (last'.2 e he last.1)

/-- Segments that open a structure at the same place are one. -/
theorem eq_of_ending_eq {g' : Segment} (hg : g ∈ Segment.ofStatements (ofText t))
    (hg' : g' ∈ Segment.ofStatements (ofText t)) (same : g.opener.ending = g'.opener.ending) :
    g = g' := by
  rcases t.ordered_ofText.eq_or_before hg hg' with equal | before | before
  · exact equal
  · exact absurd (same ▸ ending_before hg hg' before) (Place.not_before_self _)
  · exact absurd (same ▸ ending_before hg' hg before) (Place.not_before_self _)

/-- What is attributed to a structure are the declarations of its segment. -/
theorem attributed_eq (balanced : t.Balanced) (he : e ∈ t.enclosures)
    (hg : g ∈ Segment.ofStatements (ofText t)) (same : g.opener.ending = e.opening) :
    t.attributed e = g.declarations := by
  have ordered : (t.attributed e).Pairwise Statement.Before := (ordered_ofLines ..).filter _
  have inside : g.declarations.Pairwise Statement.Before :=
    (List.pairwise_cons.mp (t.ordered_ofText.inside g hg)).2.filter _
  refine ordered.eq_of_mem_iff inside fun d => ?_
  rw [mem_attributed_iff]
  constructor
  · rintro ⟨mem, declares, last⟩
    obtain ⟨c, shows⟩ := exists_showsAt_start mem (ne_nil_of_declares declares)
    -- It stands in some segment, and only this one opens the structure that was opened last.
    rcases Segment.mem_lead_or_exists_mem_declarations mem declares with lead | ⟨g', hg', hd⟩
    · exact absurd last.1 (not_opened_before_lead balanced lead shows e he)
    · obtain ⟨f, hf, same'⟩ := exists_enclosure_of_mem_segments balanced hg'
      have last' := openedLast_of_mem_declarations balanced hg' same'.symm hd shows
      have opening := last.opening_eq he hf last'
      rw [eq_of_ending_eq hg hg' (same.trans (opening.trans same'))]
      exact hd
  · intro hd
    have declares := Segment.declares_of_mem_declarations hd
    have own := List.mem_cons_of_mem g.opener (List.mem_of_mem_filter hd)
    have mem := Segment.mem_of_mem_statements hg own
    obtain ⟨c, shows⟩ := exists_showsAt_start mem (ne_nil_of_declares declares)
    exact ⟨mem, declares, openedLast_of_mem_declarations balanced hg same hd shows⟩

/-- What a declaration shows is between the braces of the structure that it is attributed to, or
behind them and in no structure. -/
theorem inside_or_outside (balanced : t.Balanced) (unnested : t.Unnested) (he : e ∈ t.enclosures)
    (last : t.OpenedLast e p) (kept : t.KeptAt p c) :
    e.Inside p ∨ (e.closing.Before p ∧ t.Outside p) := by
  rcases Place.before_or_eq_or_before p e.closing with before | rfl | after
  · exact .inl ⟨last.1, before⟩
  · exact absurd kept (not_keptAt_of_closing_mem (Brace.closing_mem_of_mem_enclosures he))
  · refine .inr ⟨after, fun f hf inside => ?_⟩
    -- A structure around the place was not opened behind this one, as this one was opened last, nor
    -- in front of it, as it would enclose this one.
    rcases Place.before_or_eq_or_before e.opening f.opening with before | same | before
    · exact last.2 f hf inside.1 before
    · have distinct := (pairwise_opening_enclosures balanced).nodup
      obtain rfl := List.inj_on_of_nodup_map distinct he hf same
      exact after.asymm inside.2
    · exact unnested f hf e he ⟨before, last.1.trans inside.2⟩

/-- How a structure of a header comes from the named structure of the text that it stands for. -/
structure Attributes (t : Text) (v : Vocabulary) (e : Enclosure) (s : Structure) : Prop where
  /-- The structure has the tag and the line of the statement that ends with its opening brace. -/
  opened : ∃ opener ∈ ofText t, opener.Opens s.name ∧ s.line = opener.line ∧
    opener.ShowsAt e.opening '{'
  /-- Its fields are declared behind that brace, before the next structure is opened, in order. -/
  fields : List.Forall₂ (fun d f => Statement.field v d = .ok f ∧ f.line = d.line) (t.attributed e)
    s.fields.entries
  /-- Each character of the declarations is between the braces of the structure, or behind them and
  in no structure. -/
  enclosed : ∀ d ∈ t.attributed e, ∀ p c, d.ShowsAt p c →
    e.Inside p ∨ (e.closing.Before p ∧ t.Outside p)

/-- The structure that a segment becomes comes from the named structure that the segment opens. -/
theorem attributes_of_becomes {v : Vocabulary} {s : Structure} (balanced : t.Balanced)
    (unnested : t.Unnested) (he : e ∈ t.enclosures) (hg : g ∈ Segment.ofStatements (ofText t))
    (same : e.opening = g.opener.ending) (becomes : g.Becomes v s) : t.Attributes v e s where
  opened := by
    obtain ⟨mem, shows⟩ := opener_showsAt hg
    exact ⟨g.opener, mem, becomes.tag, becomes.line, same ▸ shows⟩
  fields := by
    rw [attributed_eq balanced he hg same.symm]
    exact becomes.fields
  enclosed := by
    intro d hd p c shows
    have kept := exists_showsAt_iff.mp ⟨d, (mem_attributed_iff.mp hd).1, shows⟩
    rw [attributed_eq balanced he hg same.symm] at hd
    have last := openedLast_of_mem_declarations balanced hg same.symm hd shows
    exact inside_or_outside balanced unnested he last kept

end Text

namespace Header

variable {t : Text} {extraTypes : List Text}

/-- The first statement with a text is refused if it opens nothing. -/
theorem ofStatements_eq_error {statements others : List Statement} {first : Statement}
    (lead : (Statement.lead statements).filter (fun s => !s.text.isEmpty) = first :: others) :
    ofStatements extraTypes statements =
      .error (.syntactic first.line first.column (.outside first.text)) := by
  have mem : first ∈ (Statement.lead statements).filter fun s => !s.text.isEmpty :=
    lead ▸ List.mem_cons_self
  have plain := Statement.isOpening_of_mem_lead (List.mem_of_mem_filter mem)
  have cut : Block.ofStatements statements =
      .error (.syntactic first.line first.column (.outside first.text)) := by
    rw [Block.ofStatements, ← Segment.lead_append_flatMap statements, List.filter_append, lead,
      List.cons_append, Block.ofNonempty, if_neg (by rw [plain]; decide)]
  rw [ofStatements, cut]
  rfl

/-- Two structures that hold a union and comments with braces, and a declaration between them. -/
def strayText : Text :=
  "struct evfs_a \x7b /* \x7b */ int x;\n  union \x7b int y; long z; \x7d;\n".toList
    ++ "\x7d; char stray;\n#define BRACE \x7b\n".toList
    ++ "struct evfs_b \x7b char c[2]; // \x7d\n\x7d;\n".toList

/-- A declaration behind the only structure. -/
def trailingText : Text := "struct evfs_a \x7b\n    int x;\n\x7d;\nint stray;\n".toList

end Header

end FieldTables
