import FieldTables.Proofs.Flattening.Clash
import FieldTables.Proofs.Generation
import FieldTables.Proofs.Source.Segment
import FieldTables.Proofs.Symbol.Distinctness

/-!
# The order of structures

A segment of statements opens one structure and declares its fields. When segments trade places,
the same structures are generated, only in another order: a declaration sees the tags of all
structures, a structure is unfolded through tags alone, and symbols are distinct in any order. Which
error is reported may depend on the order; whether one is does not.
-/

namespace FieldTables

open Outcome

/-- A segment declares the same under vocabularies with the same words. -/
theorem Segment.Declares.congr {v v' : Vocabulary} (types : v.types = v'.types)
    (tags : ∀ tag, v.structures.contains tag = v'.structures.contains tag) {g : Segment}
    {s : Structure} (declares : g.Declares v s) : g.Declares v' s := by
  obtain ⟨tag, line, fields⟩ := declares
  exact ⟨tag, line, fields.imp fun d f field => (d.field_congr types tags).symm.trans field⟩

/-- A segment declares one structure at most. -/
theorem Segment.Declares.unique {v : Vocabulary} {g : Segment} {s t : Structure}
    (first : g.Declares v s) (second : g.Declares v t) : s = t := by
  obtain ⟨tag, line, fields⟩ := first
  obtain ⟨tag', line', fields'⟩ := second
  have determined : Relator.RightUnique fun d f => Statement.field v d = .ok f :=
    fun _ _ _ here there => Except.ok.inj (here.symm.trans there)
  obtain ⟨_, _, _⟩ := s
  obtain ⟨_, _, _⟩ := t
  cases tag.symm.trans tag'
  cases line.trans line'.symm
  cases Roster.ext (List.right_unique_forall₂' determined fields fields')
  rfl

namespace Header

variable {h h' : Header}

/-- The same entries in another order are found by the same names. -/
private theorem find?_perm (perm : h.entries.Perm h'.entries) (name : Text) :
    h.find? name = h'.find? name := by
  refine Option.ext fun s => ?_
  rw [Roster.find?_eq_some_iff, Roster.find?_eq_some_iff, perm.mem_iff]

private theorem holds_perm (perm : h.entries.Perm h'.entries) : h.Holds = h'.Holds := by
  funext outer inner
  simp only [Holds, perm.mem_iff]

/-- Whether a header can be laid out flat does not depend on the order of its structures. -/
theorem verify_perm (perm : h.entries.Perm h'.entries) :
    h.verify = .ok () ↔ h'.verify = .ok () := by
  have names : ∀ name, name ∈ h.names ↔ name ∈ h'.names := fun name =>
    (perm.map Named.name).mem_iff
  rw [verify_eq_ok_iff, verify_eq_ok_iff]
  simp only [Full, Closed, Acyclic, holds_perm perm, perm.mem_iff, names]

/-- What a structure unfolds to depends on the structures that tags find alone. -/
theorem Unfolds.congr (same : ∀ name, h.find? name = h'.find? name) {fields : List Field}
    {ways : List Way} (unfolds : h.Unfolds fields ways) : h'.Unfolds fields ways := by
  induction unfolds with
  | nil => exact .nil
  | leaf leaf _ ih => exact .leaf leaf ih
  | nested holds found _ _ below rest => exact .nested holds (same _ ▸ found) below rest

/-- The flat structure of a structure does not depend on the order of the header. -/
theorem FlatOf.perm (perm : h.entries.Perm h'.entries) {s t : Structure} (flat : h.FlatOf s t) :
    h'.FlatOf s t := by
  obtain ⟨name, line, ways, unfolds, entries⟩ := flat
  exact ⟨name, line, ways, unfolds.congr (find?_perm perm), entries⟩

/-- Whether symbols are distinct does not depend on the order of the structures. -/
theorem checkSymbols_perm (settings : Settings) (perm : h.entries.Perm h'.entries) :
    h.checkSymbols settings = .ok () ↔ h'.checkSymbols settings = .ok () := by
  have tags : (h.emittedTags settings).Perm (h'.emittedTags settings) :=
    (perm.map Named.name).append (perm.map _)
  have identifiers : (h.emittedIdentifiers settings).Perm (h'.emittedIdentifiers settings) :=
    perm.flatMap_right _
  rw [checkSymbols_eq_ok_iff, checkSymbols_eq_ok_iff, tags.nodup_iff, identifiers.nodup_iff]

end Header

instance : Nonempty Structure := ⟨{ name := [], line := 0, fields := .empty }⟩

/-- A roster with the entries of another one, in another order. -/
private theorem Roster.exists_perm {α : Type} [Named α] {r : Roster α} {entries : List α}
    (perm : r.entries.Perm entries) : ∃ s : Roster α, s.entries = entries :=
  ⟨⟨entries, (perm.map Named.name).nodup_iff.mp r.distinct⟩, rfl⟩

/-- Segments in another order declare the same structures in that order. -/
private theorem exists_ofSegments_perm {extraTypes : List Text} {segments permuted : List Segment}
    (perm : segments.Perm permuted) {h : Header}
    (ok : Header.ofStatements extraTypes (segments.flatMap Segment.statements) = .ok h) :
    ∃ (h' : Header) (made : Segment → Structure),
      Header.ofStatements extraTypes (permuted.flatMap Segment.statements) = .ok h' ∧
        h.entries = segments.map made ∧ h'.entries = permuted.map made := by
  obtain ⟨made, entries, declares⟩ := exists_map_of_forall₂
    (fun g s t => Segment.Declares.unique (g := g)) (Header.ofSegments_eq_ok_iff.mp ok)
  obtain ⟨h', entries'⟩ := Roster.exists_perm (r := h) (entries ▸ perm.map made)
  refine ⟨h', made, Header.ofSegments_eq_ok_iff.mpr ?_, entries, entries'⟩
  have names : h.names.Perm h'.names := by
    rw [Roster.names, Roster.names, entries, entries']
    exact (perm.map made).map _
  rw [entries', List.forall₂_map_right_iff, List.forall₂_same]
  intro g mem
  refine (declares g (perm.mem_iff.mpr mem)).congr (by rfl) fun tag => ?_
  rw [Bool.eq_iff_iff, List.contains_iff_mem, List.contains_iff_mem]
  exact names.mem_iff

/-- Structures in another order are flattened to the same structures in that order. -/
private theorem exists_flatten_perm {h h' flat : Header} (perm : h.entries.Perm h'.entries)
    (ok : h.flatten = .ok flat) :
    ∃ (flat' : Header) (made : Structure → Structure), h'.flatten = .ok flat' ∧
      flat.entries = h.entries.map made ∧ flat'.entries = h'.entries.map made := by
  obtain ⟨verified, pairs⟩ := Header.flatten_eq_ok_iff.mp ok
  obtain ⟨made, entries, flatOf⟩ := exists_map_of_forall₂
    (fun s t u => Header.FlatOf.unique (s := s)) pairs
  obtain ⟨flat', entries'⟩ := Roster.exists_perm (r := flat) (entries ▸ perm.map made)
  refine ⟨flat', made, Header.flatten_eq_ok_iff.mpr ⟨?_, ?_⟩, entries, entries'⟩
  · exact (Header.verify_perm perm).mp verified
  · rw [entries', List.forall₂_map_right_iff, List.forall₂_same]
    exact fun s mem => (flatOf s (perm.mem_iff.mpr mem)).perm perm

/-- Segments in another order compile to the same structures in that order. -/
theorem exists_compileStatements_perm {settings : Settings} {extraTypes : List Text}
    {segments permuted : List Segment} (perm : segments.Perm permuted) {flat : Header}
    (ok : compileStatements settings extraTypes (segments.flatMap Segment.statements) = .ok flat) :
    ∃ (flat' : Header) (made : Segment → Structure),
      compileStatements settings extraTypes (permuted.flatMap Segment.statements) = .ok flat' ∧
        flat.entries = segments.map made ∧ flat'.entries = permuted.map made := by
  obtain ⟨h, read, flattened, checked⟩ := compileStatements_eq_ok_iff.mp ok
  obtain ⟨h', declared, read', entries, entries'⟩ := exists_ofSegments_perm perm read
  have perm_declared : h.entries.Perm h'.entries := by
    rw [entries, entries']
    exact perm.map declared
  obtain ⟨flat', made, flattened', flats, flats'⟩ := exists_flatten_perm perm_declared flattened
  have perm_flat : flat.entries.Perm flat'.entries := by
    rw [flats, flats']
    exact perm_declared.map made
  have checked' := (Header.checkSymbols_perm settings perm_flat).mp checked
  refine ⟨flat', made ∘ declared, compileStatements_eq_ok_iff.mpr ⟨h', read', flattened', checked'⟩,
    ?_, ?_⟩
  · rw [flats, entries, List.map_map]
  · rw [flats', entries', List.map_map]

/-- The texts that are generated for one structure. -/
def Structure.texts (settings : Settings) (s : Structure) : List Text :=
  [(s.enumeration settings).text, (s.sizeTable settings).text, (s.accessor settings).text]

/-- Whether segments compile does not depend on their order. If they do, the flat header has the
structure of each segment where the segment stands, and the same texts are generated for it. -/
theorem compileStatements_rearranged (settings : Settings) (extraTypes : List Text)
    {segments permuted : List Segment} (perm : segments.Perm permuted) :
    ((∃ flat, compileStatements settings extraTypes (segments.flatMap Segment.statements) =
          .ok flat) ↔
        ∃ flat, compileStatements settings extraTypes (permuted.flatMap Segment.statements) =
          .ok flat) ∧
      ∀ flat flat',
        compileStatements settings extraTypes (segments.flatMap Segment.statements) = .ok flat →
        compileStatements settings extraTypes (permuted.flatMap Segment.statements) = .ok flat' →
        ∃ made : Segment → Structure,
          flat.entries = segments.map made ∧ flat'.entries = permuted.map made ∧
          flat.entries.map (Structure.texts settings) =
            segments.map (fun g => (made g).texts settings) ∧
          flat'.entries.map (Structure.texts settings) =
            permuted.map (fun g => (made g).texts settings) := by
  refine ⟨⟨?_, ?_⟩, ?_⟩
  · rintro ⟨flat, ok⟩
    obtain ⟨flat', -, ok', -⟩ := exists_compileStatements_perm perm ok
    exact ⟨flat', ok'⟩
  · rintro ⟨flat, ok⟩
    obtain ⟨flat', -, ok', -⟩ := exists_compileStatements_perm perm.symm ok
    exact ⟨flat', ok'⟩
  · intro flat flat' ok ok'
    obtain ⟨other, made, again, entries, entries'⟩ := exists_compileStatements_perm perm ok
    cases again.symm.trans ok'
    refine ⟨made, entries, entries', ?_, ?_⟩
    · rw [entries, List.map_map]
      rfl
    · rw [entries', List.map_map]
      rfl

/-- A structure that holds another one by value. -/
def outerSegment : Segment where
  opener := ⟨"struct evfs_entry \x7b".toList, 1, 1⟩
  body := [⟨"struct evfs_time at".toList, 2, 2⟩, ⟨"char name[8]".toList, 3, 2⟩, ⟨[], 3, 15⟩]
  opens := by decide
  plain := by decide

/-- The structure that is held. -/
def innerSegment : Segment where
  opener := ⟨"struct evfs_time \x7b".toList, 5, 1⟩
  body := [⟨"long sec".toList, 6, 2⟩]
  opens := by decide
  plain := by decide

theorem compileStatements_rearranged_swap :
    ∃ flat flat',
      compileStatements {} [] ([outerSegment, innerSegment].flatMap Segment.statements) =
        .ok flat ∧
      compileStatements {} [] ([innerSegment, outerSegment].flatMap Segment.statements) =
        .ok flat' ∧
      flat.names.map String.ofList = ["evfs_entry", "evfs_time"] ∧
      ∃ made : Segment → Structure,
        flat.entries = [made outerSegment, made innerSegment] ∧
          flat'.entries = [made innerSegment, made outerSegment] := by
  have names : (compileStatements {} [] ([outerSegment, innerSegment].flatMap
      Segment.statements)).toOption.map (fun flat => flat.names.map String.ofList) =
        some ["evfs_entry", "evfs_time"] := by decide +kernel
  have swap : [outerSegment, innerSegment].Perm [innerSegment, outerSegment] := .swap ..
  obtain ⟨accepted, same⟩ := compileStatements_rearranged {} [] swap
  cases ok : compileStatements {} [] ([outerSegment, innerSegment].flatMap Segment.statements) with
  | error e =>
    rw [ok] at names
    cases names
  | ok flat =>
    rw [ok] at names
    obtain ⟨flat', ok'⟩ := accepted.mp ⟨flat, ok⟩
    obtain ⟨made, entries, entries', -⟩ := same flat flat' ok ok'
    exact ⟨flat, flat', rfl, ok', Option.some.inj names, made, entries, entries'⟩

end FieldTables
