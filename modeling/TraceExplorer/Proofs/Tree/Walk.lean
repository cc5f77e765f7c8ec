import Mathlib.Data.List.Basic
import TraceExplorer.Tree.TraceTree

/-!
# Walks through a tree

The walk that keeps the waiting trees in a list yields the recursive listing, and so does the
listing of nodes with their places.
-/

namespace TraceExplorer

namespace Tree

variable {α : Type}

/-- Induction over a tree, with the hypothesis for every subtree under the top node. -/
@[elab_as_elim]
theorem childInduction {motive : Tree α → Prop}
    (node : ∀ a ts, (∀ t ∈ ts, motive t) → motive (.node a ts)) : ∀ t, motive t
  | .node a ts => node a ts fun t _ => childInduction node t

theorem forestPreorder_eq_flatMap (ts : List (Tree α)) :
    forestPreorder ts = ts.flatMap preorder := by
  induction ts with
  | nil => rfl
  | cons t ts ih => rw [forestPreorder, ih, List.flatMap_cons]

@[simp] theorem preorder_node (a : α) (ts : List (Tree α)) :
    preorder (.node a ts) = a :: ts.flatMap preorder := by
  rw [preorder, forestPreorder_eq_flatMap]

theorem label_mem_preorder (t : Tree α) : t.label ∈ preorder t := by
  obtain ⟨a, ts⟩ := t
  simp [label]

theorem map_label_sublist (ts : List (Tree α)) :
    (ts.map label).Sublist (ts.flatMap preorder) := by
  induction ts with
  | nil => exact List.Sublist.refl []
  | cons t ts ih =>
      obtain ⟨a, us⟩ := t
      rw [List.map_cons, List.flatMap_cons, preorder_node]
      exact (ih.trans (List.sublist_append_right _ _)).cons_cons a

theorem preorder_sublist {t : Tree α} {ts : List (Tree α)} (ht : t ∈ ts) :
    t.preorder.Sublist (ts.flatMap preorder) := by
  obtain ⟨front, back, rfl⟩ := List.append_of_mem ht
  rw [List.flatMap_append, List.flatMap_cons]
  exact (List.sublist_append_left _ _).trans (List.sublist_append_right _ _)

theorem depthFirst_eq_flatMap (waiting : List (Tree α)) :
    depthFirst waiting = waiting.flatMap preorder := by
  fun_induction depthFirst waiting with
  | case1 => rfl
  | case2 a ts rest ih => simp [ih]

end Tree

namespace TraceTree

theorem placeAll_eq_flatMap (depth : Nat) (ancestors : List Text) (ts : List (Tree SpanGroup)) :
    placeAll depth ancestors ts = ts.flatMap (place depth ancestors) := by
  induction ts with
  | nil => rfl
  | cons t ts ih => rw [placeAll, ih, List.flatMap_cons]

theorem place_node (depth : Nat) (ancestors : List Text) (g : SpanGroup)
    (ts : List (Tree SpanGroup)) :
    place depth ancestors (.node g ts) =
      { group := g, depth, childIds := ts.map (·.label.id), ancestorIds := ancestors } ::
        ts.flatMap (place (depth + 1) (g.id :: ancestors)) := by
  rw [place, placeAll_eq_flatMap]

theorem map_group_place (t : Tree SpanGroup) (depth : Nat) (ancestors : List Text) :
    (place depth ancestors t).map (·.group) = t.preorder := by
  induction t using Tree.childInduction generalizing depth ancestors with
  | node g ts ih =>
      rw [place_node, Tree.preorder_node, List.map_cons, List.map_flatMap]
      exact congrArg _ (List.flatMap_congr fun t ht => ih t ht _ _)

/-- The placements are those of the nodes, in the same order. -/
theorem map_group_placements (t : TraceTree) : t.placements.map (·.group) = t.nodes := by
  rw [placements, nodes, Tree.depthFirst_eq_flatMap, List.map_flatMap]
  exact List.flatMap_congr fun branch _ => map_group_place branch _ _

theorem map_id_placements (t : TraceTree) : t.placements.map (·.id) = t.nodes.map (·.id) := by
  rw [← map_group_placements, List.map_map]
  rfl

theorem mem_ids_nodes {t : TraceTree} {id : Text} :
    id ∈ t.nodes.map (·.id) ↔ ∃ p ∈ t.placements, p.id = id := by
  rw [← map_id_placements]
  exact List.mem_map

end TraceTree

end TraceExplorer
