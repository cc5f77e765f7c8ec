import TraceExplorer.Proofs.Tree.Acyclic
import TraceExplorer.Proofs.Tree.Build
import TraceExplorer.Proofs.Tree.Reports

/-!
# Declared parents

The parent of an id is the one that its primary span declares. The link of a node leads there,
unless no span has that id.
-/

namespace TraceExplorer.TraceTree

open ParentMap (LinksTo)
open Relation

def primary? (spans : List Span) (id : Text) : Option Span :=
  SpanGroup.primaryOf? (reportsOf spans id)

def DeclaresParent (spans : List Span) (id parent : Text) : Prop :=
  ∃ s, primary? spans id = some s ∧ s.parentId = some parent

def DeclaresRoot (spans : List Span) (id : Text) : Prop :=
  ∃ s, primary? spans id = some s ∧ s.parentId = none

def DeclaresNoCircle (spans : List Span) : Prop := ∀ id, ¬ TransGen (DeclaresParent spans) id id

section

variable {spans : List Span} {t : TraceTree} {g : SpanGroup} {s : Span} {id parent : Text}

/-! ## Primary spans -/

theorem exists_group_of_primary? (h : primary? spans id = some s) :
    ∃ g ∈ SpanGroup.index spans, g.id = id ∧ g.primary = s := by
  rw [primary?, ← SpanGroup.primary_ofReports?, ← SpanGroup.find?_index] at h
  obtain ⟨g, hg, rfl⟩ := Option.map_eq_some_iff.mp h
  exact ⟨g, List.mem_of_find?_eq_some hg, by simpa using List.find?_some hg, rfl⟩

theorem declaresParent_iff (hg : g ∈ SpanGroup.index spans) :
    DeclaresParent spans g.id parent ↔ g.primary.parentId = some parent := by
  simp [DeclaresParent, primary?, SpanGroup.primaryOf?_of_mem_index hg]

theorem declaresRoot_iff (hg : g ∈ SpanGroup.index spans) :
    DeclaresRoot spans g.id ↔ g.primary.parentId = none := by
  simp [DeclaresRoot, primary?, SpanGroup.primaryOf?_of_mem_index hg]

theorem DeclaresParent.exists_group (h : DeclaresParent spans id parent) :
    ∃ g ∈ SpanGroup.index spans, g.id = id := by
  obtain ⟨s, hs, -⟩ := h
  obtain ⟨g, hg, hid, -⟩ := exists_group_of_primary? hs
  exact ⟨g, hg, hid⟩

theorem DeclaresRoot.exists_group (h : DeclaresRoot spans id) :
    ∃ g ∈ SpanGroup.index spans, g.id = id := by
  obtain ⟨s, hs, -⟩ := h
  obtain ⟨g, hg, hid, -⟩ := exists_group_of_primary? hs
  exact ⟨g, hg, hid⟩

/-- Declared parents that stand higher in some rank make no circle. -/
theorem declaresNoCircle_of_rank (rank : Text → Nat)
    (h : ∀ g ∈ SpanGroup.index spans, ∀ parent ∈ g.primary.parentId, rank parent < rank g.id) :
    DeclaresNoCircle spans := by
  have hlower {id parent : Text} (hparent : DeclaresParent spans id parent) :
      rank parent < rank id := by
    obtain ⟨g, hg, rfl⟩ := hparent.exists_group
    exact h g hg parent ((declaresParent_iff hg).mp hparent)
  have hlowest {id last : Text} (hway : TransGen (DeclaresParent spans) id last) :
      rank last < rank id := by
    induction hway with
    | single hparent => exact hlower hparent
    | tail _ hparent ih => exact Nat.lt_trans (hlower hparent) ih
  exact fun id hway => Nat.lt_irrefl _ (hlowest hway)

/-! ## Missing parents -/

theorem missingParent?_eq_some_iff (hnamed : ∀ s ∈ spans, s.parentId ≠ some Text.empty)
    (hg : g ∈ SpanGroup.index spans) :
    missingParent? (SpanGroup.index spans) g = some parent ↔
      DeclaresParent spans g.id parent ∧ parent ∉ spans.map (·.id) := by
  rw [missingParent?, declaredParent?_eq (hnamed _ (SpanGroup.primary_mem_of_mem_index hg)),
    Option.filter_eq_some_iff, declaresParent_iff hg, ← SpanGroup.mem_ids_index, ← hasGroup_iff]
  simp

theorem Built.lookup_missingParents (h : Built spans t) (hg : g ∈ t.groups) :
    t.missingParents.lookup g.id = missingParent? t.groups g := by
  rw [h.missing]
  exact KeyedList.lookup_filterMap h.linked.nodup hg

theorem Built.lookup_missingParents_eq_some_iff (h : Built spans t)
    (hnamed : ∀ s ∈ spans, s.parentId ≠ some Text.empty) (hid : id ∈ t.groups.map (·.id)) :
    t.missingParents.lookup id = some parent ↔
      DeclaresParent spans id parent ∧ parent ∉ spans.map (·.id) := by
  obtain ⟨g, hg, rfl⟩ := List.mem_map.mp hid
  rw [h.lookup_missingParents hg, h.groups, missingParent?_eq_some_iff hnamed (h.groups ▸ hg)]

/-! ## Links -/

theorem lookup_parentLinks_eq_some_iff (hnamed : ∀ s ∈ spans, s.parentId ≠ some Text.empty)
    (hg : g ∈ SpanGroup.index spans) :
    (parentLinks (SpanGroup.index spans)).lookup g.id = some (some parent) ↔
      DeclaresParent spans g.id parent ∧ parent ∈ spans.map (·.id) := by
  have hmissing (parent : Text) :
      missingParent? (SpanGroup.index spans) g = some parent ↔
        DeclaresParent spans g.id parent ∧ parent ∉ spans.map (·.id) :=
    missingParent?_eq_some_iff hnamed hg
  rw [lookup_parentLinks (SpanGroup.nodup_ids_index spans) hg, Option.some_inj]
  simp only [declaresParent_iff hg] at hmissing ⊢
  cases hfind : missingParent? (SpanGroup.index spans) g with
  | none =>
      refine iff_self_and.mpr fun hparent => by_contra fun habsent => ?_
      simpa [hfind] using (hmissing parent).mpr ⟨hparent, habsent⟩
  | some missing =>
      obtain ⟨hparent, habsent⟩ := (hmissing missing).mp hfind
      simp only [Option.isSome_some, if_true, hparent, Option.some_inj]
      exact ⟨fun h => by simp at h, fun h => absurd (h.1 ▸ h.2) habsent⟩

theorem lookup_parentLinks_eq_none_iff (hnamed : ∀ s ∈ spans, s.parentId ≠ some Text.empty)
    (hg : g ∈ SpanGroup.index spans) :
    (parentLinks (SpanGroup.index spans)).lookup g.id = some none ↔
      ∀ parent, DeclaresParent spans g.id parent → parent ∉ spans.map (·.id) := by
  have hlookup := lookup_parentLinks (SpanGroup.nodup_ids_index spans) hg
  have hsome (parent : Text) :
      (parentLinks (SpanGroup.index spans)).lookup g.id = some (some parent) ↔
        DeclaresParent spans g.id parent ∧ parent ∈ spans.map (·.id) :=
    lookup_parentLinks_eq_some_iff hnamed hg
  rw [hlookup] at hsome ⊢
  simp only [Option.some_inj, Option.eq_none_iff_forall_ne_some] at hsome ⊢
  refine forall_congr' fun parent => ?_
  rw [ne_eq, hsome, not_and]

/-- Every link leads to a declared parent. -/
theorem declaresParent_of_linksTo (h : LinksTo (parentLinks (SpanGroup.index spans)) id parent) :
    DeclaresParent spans id parent := by
  have hid : id ∈ (parentLinks (SpanGroup.index spans)).map (·.1) := by
    rw [LinksTo] at h
    exact KeyedList.isSome_lookup_iff.mp (by simp [h])
  rw [keys_parentLinks] at hid
  obtain ⟨g, hg, rfl⟩ := List.mem_map.mp hid
  exact (declaresParent_iff hg).mpr
    (parentId_of_lookup_parentLinks (SpanGroup.nodup_ids_index spans) hg h).1

theorem DeclaresParent.linksTo (h : DeclaresParent spans id parent)
    (hnamed : ∀ s ∈ spans, s.parentId ≠ some Text.empty) (hparent : parent ∈ spans.map (·.id)) :
    LinksTo (parentLinks (SpanGroup.index spans)) id parent := by
  obtain ⟨g, hg, rfl⟩ := h.exists_group
  exact (lookup_parentLinks_eq_some_iff hnamed hg).mpr ⟨h, hparent⟩

theorem DeclaresRoot.lookup_parentLinks (h : DeclaresRoot spans id) :
    (parentLinks (SpanGroup.index spans)).lookup id = some none := by
  obtain ⟨g, hg, rfl⟩ := h.exists_group
  rw [TraceTree.lookup_parentLinks (SpanGroup.nodup_ids_index spans) hg,
    (declaresRoot_iff hg).mp h, ite_self]

/-- Where no chain of declared parents closes, no link is cut. -/
theorem DeclaresNoCircle.treeLinks_eq (h : DeclaresNoCircle spans) :
    treeLinks spans = parentLinks (SpanGroup.index spans) :=
  ParentMap.Acyclic.breakCycles_eq fun id hway =>
    h id (TransGen.mono (fun _ _ => declaresParent_of_linksTo) _ _ hway)

end

end TraceExplorer.TraceTree
