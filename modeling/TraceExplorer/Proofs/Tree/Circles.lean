import TraceExplorer.Proofs.Tree.Acyclic

/-!
# The links that a repair cuts

Every node has at most one link, so the links from a node on a circle never leave the circle. A
repair cuts a link only where it has just come round a circle, and from then on that circle is
open, so that each circle loses one link and no other link is lost.
-/

namespace TraceExplorer.ParentMap

open Relation

/-- Links of which one was cut on each circle. The nodes that the links from a node on a circle
lead to are those of the circle. -/
structure OpensCircles (parents opened : ParentMap) : Prop where
  keys : opened.map (·.1) = parents.map (·.1)
  /-- Where something was changed, a link on a circle was cut. -/
  changed : ∀ id, opened.lookup id ≠ parents.lookup id →
    opened.lookup id = some none ∧ TransGen (LinksTo parents) id id
  /-- One link of each circle was cut. -/
  once : ∀ id, TransGen (LinksTo parents) id id →
    ∃! other, TransGen (LinksTo parents) id other ∧ opened.lookup other ≠ parents.lookup other
  /-- The links that are left lead from every node to one without a parent. -/
  ends : ∀ id ∈ parents.map (·.1), ∃ top,
    ReflTransGen (LinksTo opened) id top ∧ opened.lookup top = some none

/-- What holds of the cuts of a repair at any moment: they are on circles of the links that were
given, and no two are on the same circle. -/
structure CutOnCircles (parents left : ParentMap) (adopted : List Text) : Prop where
  pruned : Pruned parents left
  mem_iff : ∀ {id}, id ∈ adopted ↔ left.lookup id ≠ parents.lookup id
  circle : ∀ id ∈ adopted, TransGen (LinksTo parents) id id
  apart : ∀ id ∈ adopted, ∀ other ∈ adopted, TransGen (LinksTo parents) id other → id = other

section

variable {parents pruned : ParentMap} {id other : Text} {adopted above : List Text}

/-! ## Circles -/

theorem LinksTo.unique (h : LinksTo parents id other) {another : Text}
    (h' : LinksTo parents id another) : other = another :=
  Option.some.inj (Option.some.inj (h.symm.trans h'))

/-- The links from a node that lead back to it lead back to it from everywhere on the way. -/
theorem transGen_back (hcircle : TransGen (LinksTo parents) id id)
    (hway : TransGen (LinksTo parents) id other) : TransGen (LinksTo parents) other id := by
  induction hway with
  | single hlink =>
      obtain ⟨next, hnext, hback⟩ := TransGen.head'_iff.mp hcircle
      obtain rfl := hnext.unique hlink
      exact TransGen.trans_right hback hcircle
  | tail _ hlink ih =>
      obtain ⟨next, hnext, hback⟩ := TransGen.head'_iff.mp ih
      obtain rfl := hnext.unique hlink
      exact TransGen.trans_right hback hcircle

theorem Pruned.linksTo (h : Pruned parents pruned) (hlink : LinksTo pruned id other) :
    LinksTo parents id other :=
  h.lookup_eq hlink

/-- If the links that are left of some make a circle, those that were cut lead nowhere else. -/
theorem Pruned.transGen (h : Pruned parents pruned) (hcircle : TransGen (LinksTo pruned) id id)
    (hway : TransGen (LinksTo parents) id other) : TransGen (LinksTo pruned) id other := by
  induction hway with
  | single hlink =>
      obtain ⟨next, hnext, -⟩ := TransGen.head'_iff.mp hcircle
      exact .single ((h.linksTo hnext).unique hlink ▸ hnext)
  | tail _ hlink ih =>
      obtain ⟨next, hnext, -⟩ := TransGen.head'_iff.mp (transGen_back hcircle ih)
      exact ih.tail ((h.linksTo hnext).unique hlink ▸ hnext)

theorem Pruned.lookup_of_transGen (h : Pruned parents pruned)
    (hway : TransGen (LinksTo pruned) id other) : pruned.lookup id = parents.lookup id := by
  obtain ⟨next, hnext, -⟩ := TransGen.head'_iff.mp hway
  exact hnext.trans (h.linksTo hnext).symm

/-! ## The cuts of a repair -/

theorem CutOnCircles.cut (h : CutOnCircles parents pruned adopted)
    (hcircle : TransGen (LinksTo pruned) id id) :
    CutOnCircles parents (cut pruned id) (adopted ++ [id]) := by
  have hgiven : TransGen (LinksTo parents) id id :=
    TransGen.mono (fun _ _ => h.pruned.linksTo) _ _ hcircle
  have hlookup : pruned.lookup id = parents.lookup id := h.pruned.lookup_of_transGen hcircle
  -- All links of the circle are still there, so none of them is cut already.
  have hwhole {other : Text} (hway : TransGen (LinksTo parents) id other) : other ∉ adopted := by
    have hback := transGen_back hcircle (h.pruned.transGen hcircle hway)
    exact fun hmem => h.mem_iff.mp hmem (h.pruned.lookup_of_transGen hback)
  refine ⟨h.pruned.trans (pruned_cut _ _), fun {other} => ?_, fun other hother => ?_,
    fun first hfirst second hsecond hway => ?_⟩
  · rw [List.mem_append, List.mem_singleton, h.mem_iff, lookup_cut]
    split
    · rename_i heq
      obtain ⟨next, hnext, -⟩ := TransGen.head'_iff.mp hcircle
      rw [heq, ← hlookup, hnext]
      simp
    · rename_i hne
      simp [hne]
  · rcases List.mem_append.mp hother with hother | hother
    · exact h.circle other hother
    · obtain rfl := List.mem_singleton.mp hother
      exact hgiven
  · rw [List.mem_append, List.mem_singleton] at hfirst hsecond
    rcases hfirst with hfirst | rfl
    · rcases hsecond with hsecond | rfl
      · exact h.apart first hfirst second hsecond hway
      · exact absurd hfirst (hwhole (transGen_back (h.circle first hfirst) hway))
    · rcases hsecond with hsecond | rfl
      · exact absurd hsecond (hwhole hway)
      · rfl

theorem CutOnCircles.visit {r : Repair} (h : CutOnCircles parents r.parents r.adopted)
    (start : Text) : CutOnCircles parents (r.visit start).parents (r.visit start).adopted := by
  rcases visit_cases r start with ⟨hparents, hadopted⟩ | ⟨closed, hcircle, hparents, hadopted⟩
  · rw [hparents, hadopted]
    exact h
  · rw [hparents, hadopted]
    exact h.cut hcircle

theorem cutOnCircles_repair (parents : ParentMap) :
    CutOnCircles parents (breakCycles parents) (repair parents).adopted := by
  have hall (starts : List Text) (r : Repair) (hr : CutOnCircles parents r.parents r.adopted) :
      CutOnCircles parents (starts.foldl Repair.visit r).parents
        (starts.foldl Repair.visit r).adopted := by
    induction starts generalizing r with
    | nil => exact hr
    | cons start rest ih => exact ih _ (hr.visit start)
  exact hall _ _ ⟨.refl _, by simp, by simp, by simp⟩

/-! ## All circles -/

/-- Links that do not leave the map lead up to a node without a parent. -/
theorem Ascent.exists_top (hclosed : ∀ id parent, parents.lookup id = some (some parent) →
    parent ∈ parents.map (·.1)) (hid : id ∈ parents.map (·.1))
    (h : Ascent parents (some id) above) :
    ∃ top, ReflTransGen (LinksTo parents) id top ∧ parents.lookup top = some none := by
  induction above generalizing id with
  | nil =>
      cases h with
      | outside unknown => simp [← KeyedList.isSome_lookup_iff, unknown] at hid
  | cons first above ih =>
      cases h with
      | @link _ parent _ found rest =>
          cases parent with
          | none => exact ⟨first, .refl, found⟩
          | some parent =>
              obtain ⟨top, hway, htop⟩ := ih (hclosed _ _ found) rest
              exact ⟨top, .head found hway, htop⟩

theorem exists_cut_of_circle (hcircle : TransGen (LinksTo parents) id id) :
    ∃ other, TransGen (LinksTo parents) id other ∧
      (breakCycles parents).lookup other ≠ parents.lookup other := by
  by_contra! hkept
  have hacyclic : Acyclic (breakCycles parents) := by
    refine acyclic_of_grounded fun id hid => grounded_breakCycles ?_
    rwa [keys_breakCycles] at hid
  -- Otherwise the circle would still be there.
  have hleft {other : Text} (hway : TransGen (LinksTo parents) id other) :
      TransGen (LinksTo (breakCycles parents)) id other := by
    induction hway with
    | single hlink => exact .single ((hkept id hcircle).trans hlink)
    | tail hway hlink ih => exact ih.tail ((hkept _ hway).trans hlink)
  exact hacyclic id (hleft hcircle)

end

/-- If no link leads out of the map, its repair leaves a way up from every node to one without a
parent. It cuts one link of each circle, the link of a node to itself included, and changes nothing
else. -/
theorem breakCycles_opens_circles {parents : ParentMap}
    (hclosed : ∀ link ∈ parents, ∀ parent ∈ link.2, parent ∈ parents.map (·.1)) :
    OpensCircles parents (breakCycles parents) := by
  have hcuts := cutOnCircles_repair parents
  refine ⟨keys_breakCycles parents, fun id hid => ?_, fun id hcircle => ?_, fun id hid => ?_⟩
  · exact ⟨((pruned_breakCycles parents id).resolve_left hid).2,
      hcuts.circle id (hcuts.mem_iff.mpr hid)⟩
  · obtain ⟨other, hway, hother⟩ := exists_cut_of_circle hcircle
    refine ⟨other, ⟨hway, hother⟩, fun another ⟨hway', hanother⟩ => ?_⟩
    exact hcuts.apart another (hcuts.mem_iff.mpr hanother) other (hcuts.mem_iff.mpr hother)
      ((transGen_back hcircle hway').trans hway)
  · obtain ⟨above, habove⟩ := grounded_breakCycles hid
    refine habove.exists_top (fun id parent hparent => ?_) (keys_breakCycles parents ▸ hid)
    have hgiven := (pruned_breakCycles parents).lookup_eq hparent
    rw [keys_breakCycles]
    exact hclosed _ (KeyedList.mem_of_lookup hgiven) parent rfl

/-- Two ways into a circle of two, a node that is its own parent, and a chain. -/
theorem breakCycles_opens_circles_of_tails :
    let parents : ParentMap := [("c", some "a"), ("d", some "b"), ("a", some "b"),
      ("b", some "a"), ("e", some "e"), ("f", some "g"), ("g", none)]
    (∀ link ∈ parents, ∀ parent ∈ link.2, parent ∈ parents.map (·.1)) ∧
      OpensCircles parents (breakCycles parents) := by
  intro parents
  have closed : ∀ link ∈ parents, ∀ parent ∈ link.2, parent ∈ parents.map (·.1) := by decide
  exact ⟨closed, breakCycles_opens_circles closed⟩

end TraceExplorer.ParentMap
