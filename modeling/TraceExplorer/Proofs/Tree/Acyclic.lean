import Mathlib.Logic.Relation
import TraceExplorer.Proofs.Tree.ParentLinks

/-!
# Parent links that need no repair

Links along which no way leads back to its start are left as they are. The links from every node
come to an end only if there is no such way.
-/

namespace TraceExplorer.ParentMap

open Relation

def LinksTo (parents : ParentMap) (id parent : Text) : Prop :=
  parents.lookup id = some (some parent)

def Acyclic (parents : ParentMap) : Prop := ∀ id, ¬ TransGen (LinksTo parents) id id

section

variable {parents other : ParentMap} {node : Option Text} {id last : Text} {above path : List Text}

/-! ## Ends of the links -/

theorem Ascent.congr (hsame : ∀ id, parents.lookup id = other.lookup id)
    (h : Ascent parents node above) : Ascent other node above := by
  induction h with
  | top => exact .top
  | outside unknown => exact .outside (hsame _ ▸ unknown)
  | link found _ ih => exact .link (hsame _ ▸ found) ih

/-- The way up from a node that is passed on the way up is the shorter one. -/
theorem Ascent.of_transGen (h : Ascent parents (some id) above)
    (hway : TransGen (LinksTo parents) id last) :
    ∃ rest, Ascent parents (some last) rest ∧ rest.length < above.length := by
  induction hway with
  | @single next hlink =>
      cases h with
      | outside unknown => simp [LinksTo, unknown] at hlink
      | link found rest =>
          obtain rfl := Option.some.inj (found.symm.trans hlink)
          exact ⟨_, rest, Nat.lt_succ_self _⟩
  | @tail mid next _ hlink ih =>
      obtain ⟨rest, hrest, hlen⟩ := ih
      cases hrest with
      | outside unknown => simp [LinksTo, unknown] at hlink
      | link found rest =>
          obtain rfl := Option.some.inj (found.symm.trans hlink)
          exact ⟨_, rest, Nat.lt_trans (Nat.lt_succ_self _) hlen⟩

theorem acyclic_of_grounded (h : ∀ id ∈ parents.map (·.1), Grounded parents (some id)) :
    Acyclic parents := by
  intro id hway
  have hknown : (parents.lookup id).isSome := by
    obtain ⟨next, hlink, -⟩ := TransGen.head'_iff.mp hway
    rw [LinksTo] at hlink
    simp [hlink]
  obtain ⟨above, habove⟩ := h id (KeyedList.isSome_lookup_iff.mp hknown)
  obtain ⟨rest, hrest, hlen⟩ := habove.of_transGen hway
  rw [habove.unique hrest] at hlen
  exact Nat.lt_irrefl _ hlen

/-! ## Links left alone -/

/-- From every node of a trail the links lead to its end. -/
theorem Trail.transGen (h : Trail parents path (some last)) (hid : id ∈ path) :
    TransGen (LinksTo parents) id last := by
  induction path generalizing last with
  | nil => simp at hid
  | cons first path ih =>
      rcases List.mem_cons.mp hid with rfl | hid
      · exact .single h.1
      · exact (ih h.2 hid).tail h.1

/-- A visit changes no link, or it cuts one at which the links have come round a circle. -/
theorem visit_cases (r : Repair) (start : Text) :
    ((r.visit start).parents = r.parents ∧ (r.visit start).adopted = r.adopted) ∨
      ∃ closed, TransGen (LinksTo r.parents) closed closed ∧
        (r.visit start).parents = cut r.parents closed ∧
        (r.visit start).adopted = r.adopted ++ [closed] := by
  have hclimb := climb_trail r.parents r.settled [] (some start) trivial
  unfold Repair.visit
  generalize climb r.parents r.settled [] (some start) = result at hclimb ⊢
  obtain ⟨passed, closing⟩ := result
  cases closing with
  | none => exact .inl ⟨rfl, List.append_nil _⟩
  | some closed =>
      obtain ⟨-, -, hmem, htrail⟩ := hclimb
      exact .inr ⟨closed, htrail.transGen hmem, rfl, rfl⟩

theorem Acyclic.visit (h : Acyclic parents) {r : Repair} (hr : r.parents = parents)
    (start : Text) : (r.visit start).parents = parents := by
  rcases visit_cases r start with ⟨hsame, -⟩ | ⟨closed, hcircle, -⟩
  · exact hsame.trans hr
  · exact absurd hcircle (hr ▸ h closed)

theorem Acyclic.breakCycles_eq (h : Acyclic parents) : breakCycles parents = parents := by
  have hall (starts : List Text) (r : Repair) (hr : r.parents = parents) :
      (starts.foldl Repair.visit r).parents = parents := by
    induction starts generalizing r with
    | nil => exact hr
    | cons start rest ih => exact ih _ (h.visit hr start)
  exact hall _ _ rfl

/-- The repair leaves all links as they are exactly if they make no circle. -/
theorem acyclic_iff_lookup_breakCycles :
    Acyclic parents ↔ ∀ id, (breakCycles parents).lookup id = parents.lookup id := by
  refine ⟨fun h id => by rw [h.breakCycles_eq], fun h => acyclic_of_grounded fun id hid => ?_⟩
  obtain ⟨above, habove⟩ := grounded_breakCycles hid
  exact ⟨above, habove.congr h⟩

end

end TraceExplorer.ParentMap
