import FieldTables.Artifact.Basic
import FieldTables.Symbol.Claim
import Mathlib.Data.List.Nodup

/-!
# Distinct symbols

The check of symbols speaks about what the artifacts really define: it succeeds exactly when the
tags and the ordinary identifiers in them are distinct, and otherwise reports the first symbol that
two owners get.
-/

namespace FieldTables

/-- Two claims stand apart unless they are on one symbol of one name space. -/
def Claim.Apart (a b : Claim) : Prop := a.space = b.space → a.symbol ≠ b.symbol

/-- The symbols of one name space that are claimed. -/
def Claim.symbolsIn (space : NameSpace) (claims : List Claim) : List Text :=
  (claims.filter (·.space = space)).map Claim.symbol

namespace Claim

@[simp] theorem symbolsIn_append (space : NameSpace) (claims others : List Claim) :
    symbolsIn space (claims ++ others) = symbolsIn space claims ++ symbolsIn space others := by
  simp only [symbolsIn, List.filter_append, List.map_append]

@[simp] theorem symbolsIn_flatMap {α : Type} (space : NameSpace) (items : List α)
    (f : α → List Claim) :
    symbolsIn space (items.flatMap f) = items.flatMap fun a => symbolsIn space (f a) := by
  simp only [symbolsIn, List.filter_flatMap, List.map_flatMap]

@[simp] theorem meets_eq_true_iff {a b : Claim} :
    a.meets b = true ↔ a.space = b.space ∧ a.symbol = b.symbol := by
  simp [meets]

private theorem meets_eq_false_iff {a b : Claim} : a.meets b = false ↔ b.Apart a := by
  rw [← Bool.not_eq_true, meets_eq_true_iff, Apart, not_and]
  exact ⟨fun h same hs => h same.symm hs.symm, fun h same hs => h same.symm hs.symm⟩

/-- Claims stand apart exactly when the symbols of each name space are distinct. -/
theorem pairwise_apart_iff (claims : List Claim) :
    claims.Pairwise Apart ↔
      (symbolsIn .tag claims).Nodup ∧ (symbolsIn .ordinary claims).Nodup := by
  simp only [symbolsIn, List.Nodup, List.pairwise_map, List.pairwise_filter,
    ← List.pairwise_and_iff, decide_eq_true_eq]
  apply List.Pairwise.iff
  intro a b
  constructor
  · intro apart
    exact ⟨fun ha hb => apart (ha.trans hb.symm), fun ha hb => apart (ha.trans hb.symm)⟩
  · rintro ⟨tags, ordinary⟩ same
    cases hb : b.space with
    | tag => exact tags (same.trans hb) hb
    | ordinary => exact ordinary (same.trans hb) hb

end Claim

namespace Header

open Claim

/-- Claims are admitted exactly when they stand apart from each other and from all earlier ones. -/
theorem admit?_eq_ok_iff {earlier claims : List Claim} :
    admit? earlier claims = .ok () ↔
      (∀ a ∈ earlier, ∀ b ∈ claims, a.Apart b) ∧ claims.Pairwise Apart := by
  induction claims generalizing earlier with
  | nil => simp [admit?]
  | cons claim rest ih =>
    rw [admit?, List.pairwise_cons]
    cases hfirst : earlier.find? claim.meets with
    | some first =>
      have met := meets_eq_true_iff.mp (List.find?_some hfirst)
      refine iff_of_false (by simp) ?_
      rintro ⟨apart, -⟩
      exact apart first (List.mem_of_find?_eq_some hfirst) claim List.mem_cons_self met.1.symm
        met.2.symm
    | none =>
      have free : ∀ a ∈ earlier, a.Apart claim := fun a ha =>
        meets_eq_false_iff.mp (Bool.eq_false_iff.mpr (List.find?_eq_none.mp hfirst a ha))
      simp only [ih, List.forall_mem_cons]
      constructor
      · rintro ⟨⟨here, others⟩, apart⟩
        exact ⟨fun a ha => ⟨free a ha, others a ha⟩, here, apart⟩
      · rintro ⟨apart, here, others⟩
        exact ⟨⟨here, fun a ha => (apart a ha).2⟩, others⟩

/-- A refusal names the first claim that meets an earlier one, and that one. -/
theorem exists_of_admit?_eq_error {earlier claims : List Claim} {e : Error}
    (refused : admit? earlier claims = .error e) :
    ∃ before second after first, claims = before ++ second :: after ∧
      admit? earlier before = .ok () ∧ (first ∈ earlier ∨ first ∈ before) ∧
      first.space = second.space ∧ first.symbol = second.symbol ∧
      e = .duplicateSymbol second.symbol first.owner second.owner := by
  induction claims generalizing earlier with
  | nil => cases refused
  | cons claim rest ih =>
    rw [admit?] at refused
    cases hfirst : earlier.find? claim.meets with
    | some first =>
      rw [hfirst] at refused
      cases refused
      have met := meets_eq_true_iff.mp (List.find?_some hfirst)
      exact ⟨[], claim, rest, first, rfl, rfl, .inl (List.mem_of_find?_eq_some hfirst),
        met.1.symm, met.2.symm, rfl⟩
    | none =>
      rw [hfirst] at refused
      obtain ⟨before, second, after, first, rfl, admitted, place, space, symbol, rfl⟩ := ih refused
      refine ⟨claim :: before, second, after, first, rfl, ?_, ?_, space, symbol, rfl⟩
      · rw [admit?, hfirst]
        exact admitted
      · rcases place with among | among
        · rcases List.mem_cons.mp among with rfl | among
          · exact .inr List.mem_cons_self
          · exact .inl among
        · exact .inr (List.mem_cons_of_mem claim among)

end Header

/-- Everything that the artifacts of a structure define, in order: the tag of the enumeration, its
enumerators, the size table and the accessor. -/
def Structure.emitted (settings : Settings) (s : Structure) : List Claim :=
  let e := s.enumeration settings
  let members := s.fields.entries.map fun f => Owner.field s.name f.name
  [⟨.tag, e.tag, .enumeration s.name⟩]
    ++ List.zipWith (Claim.mk .ordinary) e.enumerators (.sentinel s.name :: members)
    ++ [⟨.ordinary, (s.sizeTable settings).name, .sizeTable s.name⟩,
        ⟨.ordinary, (s.accessor settings).name, .accessor s.name⟩]

/-- The ordinary identifiers that the artifacts of a structure define. -/
def Structure.identifiers (settings : Settings) (s : Structure) : List Text :=
  (s.enumeration settings).enumerators
    ++ [(s.sizeTable settings).name, (s.accessor settings).name]

namespace Header

open Claim

/-- Everything that the artifacts of a header define: the tags of all structures, then what is
defined for each. -/
def emitted (settings : Settings) (h : Header) : List Claim :=
  h.entries.map (fun s => ⟨.tag, s.name, .structure s.name⟩)
    ++ h.entries.flatMap (Structure.emitted settings)

/-- The tags that the artifacts of a header define. -/
def emittedTags (settings : Settings) (h : Header) : List Text :=
  h.names ++ h.entries.map fun s => (s.enumeration settings).tag

/-- The ordinary identifiers that the artifacts of a header define. -/
def emittedIdentifiers (settings : Settings) (h : Header) : List Text :=
  h.entries.flatMap (Structure.identifiers settings)

variable {settings : Settings} {h : Header}

/-- What is claimed for a header is what its artifacts define. -/
theorem claims_eq_emitted : h.claims settings = h.emitted settings := by
  have each : Structure.claims settings = Structure.emitted settings := by
    funext s
    simp only [Structure.claims, Structure.emitted, Structure.enumeration, Structure.sizeTable,
      Structure.accessor, Roster.names, List.zipWith_cons_cons, List.zipWith_map, List.map_map,
      List.zipWith_self, List.cons_append, List.nil_append]
    rfl
  rw [claims, emitted, each, Roster.names, List.map_map]
  rfl

private theorem symbolsIn_tag_structure (s : Structure) :
    symbolsIn .tag (s.claims settings) = [(s.enumeration settings).tag] := by
  simp [symbolsIn, Structure.claims, Structure.enumeration, List.filter_map, Function.comp_def]

private theorem symbolsIn_ordinary_structure (s : Structure) :
    symbolsIn .ordinary (s.claims settings) = s.identifiers settings := by
  simp [symbolsIn, Structure.claims, Structure.identifiers, Structure.enumeration,
    Structure.sizeTable, Structure.accessor, List.filter_map, Function.comp_def]

/-- The tags that are claimed are those of the artifacts. -/
theorem symbolsIn_tag_claims :
    symbolsIn .tag (h.claims settings) = h.emittedTags settings := by
  rw [claims, symbolsIn_append, symbolsIn_flatMap, emittedTags]
  simp only [symbolsIn_tag_structure, ← List.map_eq_flatMap]
  simp [symbolsIn, List.filter_map, Function.comp_def]

/-- The ordinary identifiers that are claimed are those of the artifacts. -/
theorem symbolsIn_ordinary_claims :
    symbolsIn .ordinary (h.claims settings) = h.emittedIdentifiers settings := by
  rw [claims, symbolsIn_append, symbolsIn_flatMap, emittedIdentifiers]
  simp only [symbolsIn_ordinary_structure]
  simp [symbolsIn, List.filter_map, Function.comp_def]

/-- The symbols of a header are admitted exactly when its artifacts define distinct tags and
distinct ordinary identifiers. -/
theorem checkSymbols_eq_ok_iff :
    h.checkSymbols settings = .ok () ↔
      (h.emittedTags settings).Nodup ∧ (h.emittedIdentifiers settings).Nodup := by
  rw [checkSymbols, admit?_eq_ok_iff, pairwise_apart_iff, symbolsIn_tag_claims,
    symbolsIn_ordinary_claims]
  simp

/-- The structure that an owner is, or that it is made for. -/
def home : Owner → Text
  | .structure name | .enumeration name | .sentinel name | .field name _ | .sizeTable name
  | .accessor name => name

private theorem owners_structure (s : Structure) : (s.claims settings).map Claim.owner =
    .enumeration s.name :: .sentinel s.name :: s.fields.names.map (.field s.name)
      ++ [.sizeTable s.name, .accessor s.name] := by
  simp [Structure.claims, Function.comp_def]

private theorem nodup_owners_structure (s : Structure) :
    ((s.claims settings).map Claim.owner).Nodup := by
  have members : (s.fields.names.map (Owner.field s.name)).Nodup :=
    s.fields.distinct.map fun a b same => by cases same; rfl
  have all : (s.fields.names.map (Owner.field s.name)
      ++ [Owner.sizeTable s.name, Owner.accessor s.name]).Nodup := by
    rw [List.nodup_append']
    exact ⟨members, by simp, by simp [List.disjoint_left]⟩
  rw [owners_structure]
  simp [all]

private theorem home_of_mem_owners {s : Structure} {owner : Owner}
    (mem : owner ∈ (s.claims settings).map Claim.owner) : home owner = s.name := by
  rw [owners_structure] at mem
  simp only [List.cons_append, List.mem_cons, List.mem_append, List.mem_map,
    List.not_mem_nil, or_false] at mem
  rcases mem with rfl | rfl | ⟨_, _, rfl⟩ | rfl | rfl <;> rfl

/-- No two claims have one owner. -/
theorem nodup_owners : ((h.claims settings).map Claim.owner).Nodup := by
  have tags : (h.names.map Owner.structure).Nodup :=
    h.distinct.map fun a b same => by cases same; rfl
  have others : (h.entries.flatMap fun s => (s.claims settings).map Claim.owner).Nodup := by
    refine List.nodup_flatMap.mpr ⟨fun s _ => nodup_owners_structure s, ?_⟩
    refine (List.pairwise_map.mp h.distinct).imp ?_
    intro s t different owner hs ht
    exact different ((home_of_mem_owners hs).symm.trans (home_of_mem_owners ht))
  rw [claims, List.map_append, List.map_map, List.map_flatMap, List.nodup_append']
  refine ⟨tags, others, ?_⟩
  intro owner htag hother
  obtain ⟨name, -, rfl⟩ := List.mem_map.mp htag
  obtain ⟨s, -, hs⟩ := List.mem_flatMap.mp hother
  rw [owners_structure] at hs
  simp at hs

/-- The check of symbols succeeds exactly when the tags and the ordinary identifiers of the
artifacts are distinct. Otherwise it reports a symbol that the artifacts give to two owners in one
name space, and nothing that they define before it coincides. -/
theorem checkSymbols_decides_distinctness (settings : Settings) (h : Header) :
    (h.checkSymbols settings = .ok () ↔
      (h.emittedTags settings).Nodup ∧ (h.emittedIdentifiers settings).Nodup) ∧
    ∀ e, h.checkSymbols settings = .error e →
      ∃ before second after first, h.emitted settings = before ++ second :: after ∧
        first ∈ before ∧ first.space = second.space ∧ first.symbol = second.symbol ∧
        first.owner ≠ second.owner ∧ before.Pairwise Claim.Apart ∧
        e = .duplicateSymbol second.symbol first.owner second.owner := by
  refine ⟨checkSymbols_eq_ok_iff, ?_⟩
  intro e refused
  obtain ⟨before, second, after, first, split, admitted, place, space, symbol, rfl⟩ :=
    exists_of_admit?_eq_error refused
  have mem : first ∈ before := place.resolve_left List.not_mem_nil
  have owners := @nodup_owners settings h
  rw [split, List.map_append, List.map_cons, List.nodup_append'] at owners
  refine ⟨before, second, after, first, claims_eq_emitted.symm.trans split, mem, space, symbol, ?_,
    (admit?_eq_ok_iff.mp admitted).2, rfl⟩
  intro same
  exact owners.2.2 (List.mem_map_of_mem mem) (same ▸ List.mem_cons_self)

end Header

end FieldTables
