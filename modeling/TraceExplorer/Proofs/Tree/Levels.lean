import TraceExplorer.Proofs.Tree.Walk

/-!
# The levels of a tree

The top nodes are the first level, and the children of a level are the next one. The walk by levels
lists them one after the other: once it has visited all trees of a level, those of the next one are
waiting in order. It visits the same nodes as the walk by depth.
-/

namespace TraceExplorer.Tree

variable {α : Type}

mutual

def height : Tree α → Nat
  | node _ ts => forestHeight ts + 1

def forestHeight : List (Tree α) → Nat
  | [] => 0
  | t :: ts => max (height t) (forestHeight ts)

end

/-- The trees that stand so many levels below some trees: the children of each tree one level above,
in the order of those trees. -/
def level (ts : List (Tree α)) : Nat → List (Tree α)
  | 0 => ts
  | n + 1 => (level ts n).flatMap children

section

variable {ts : List (Tree α)} {n : Nat}

theorem forestHeight_append (ts us : List (Tree α)) :
    forestHeight (ts ++ us) = max (forestHeight ts) (forestHeight us) := by
  induction ts with
  | nil => simp [forestHeight]
  | cons t ts ih => rw [List.cons_append, forestHeight, forestHeight, ih, Nat.max_assoc]

theorem forestHeight_children (ts : List (Tree α)) :
    forestHeight (ts.flatMap children) = forestHeight ts - 1 := by
  induction ts with
  | nil => rfl
  | cons t ts ih =>
      obtain ⟨a, us⟩ := t
      rw [List.flatMap_cons, forestHeight_append, ih, children, forestHeight, height]
      omega

theorem forestHeight_eq_zero_iff : forestHeight ts = 0 ↔ ts = [] := by
  cases ts with
  | nil => simp [forestHeight]
  | cons t ts =>
      obtain ⟨a, us⟩ := t
      simp [forestHeight, height]

theorem level_children (ts : List (Tree α)) (n : Nat) :
    level (ts.flatMap children) n = level ts (n + 1) := by
  induction n with
  | zero => rfl
  | succ n ih =>
      rw [level, ih]
      rfl

/-- Each of the levels has a node, and there is none below them. -/
theorem level_eq_nil_iff : level ts n = [] ↔ forestHeight ts ≤ n := by
  induction n generalizing ts with
  | zero => rw [level, Nat.le_zero, forestHeight_eq_zero_iff]
  | succ n ih => rw [← level_children, ih, forestHeight_children, Nat.sub_le_iff_le_add]

/-! ## The walk by levels -/

/-- The trees that wait in front are visited one after the other, and their children gather behind
the others. -/
theorem breadthFirst_append (ts us : List (Tree α)) :
    breadthFirst (ts ++ us) = ts.map label ++ breadthFirst (us ++ ts.flatMap children) := by
  induction ts generalizing us with
  | nil => simp
  | cons t ts ih =>
      obtain ⟨a, vs⟩ := t
      rw [List.cons_append, breadthFirst, List.append_assoc, ih, List.append_assoc]
      rfl

theorem breadthFirst_eq_flatMap_level (ts : List (Tree α)) :
    breadthFirst ts =
      (List.range (forestHeight ts)).flatMap fun n => (level ts n).map label := by
  -- The walk goes on with the next level, which has one level less below it.
  induction hheight : forestHeight ts generalizing ts with
  | zero =>
      rw [forestHeight_eq_zero_iff.mp hheight, breadthFirst]
      rfl
  | succ height ih =>
      have hbelow : forestHeight (ts.flatMap children) = height := by
        rw [forestHeight_children, hheight, Nat.add_sub_cancel]
      have hfront : breadthFirst ts = ts.map label ++ breadthFirst (ts.flatMap children) := by
        simpa using breadthFirst_append ts []
      rw [hfront, ih _ hbelow, List.range_succ_eq_map, List.flatMap_cons, List.flatMap_map]
      simp only [level_children]
      rfl

/-- Behind or in front of the others, the children of a visited node are visited once. -/
theorem breadthFirst_perm (waiting : List (Tree α)) :
    (breadthFirst waiting).Perm (waiting.flatMap preorder) := by
  fun_induction breadthFirst waiting with
  | case1 => exact .refl _
  | case2 a ts rest ih =>
      rw [List.flatMap_cons, preorder_node, List.cons_append, ← List.flatMap_append]
      exact (ih.trans (List.perm_append_comm.flatMap_right preorder)).cons a

end

/-- The walk by depth visits a node and then the trees of its children in order, and the walk by
levels visits the levels from the top down, all that have a node. They visit the same nodes. -/
theorem walks_visit_subtrees_and_levels (t : Tree α) :
    depthFirst [t] = preorder t ∧
      breadthFirst [t] = (List.range t.height).flatMap (fun n => (level [t] n).map label) ∧
      (∀ n, level [t] n ≠ [] ↔ n < t.height) ∧
      (breadthFirst [t]).Perm (depthFirst [t]) := by
  have hheight : forestHeight [t] = t.height := Nat.max_zero t.height
  have hdepth : depthFirst [t] = [t].flatMap preorder := depthFirst_eq_flatMap [t]
  refine ⟨hdepth.trans (List.flatMap_singleton preorder t), ?_, fun n => ?_, ?_⟩
  · rw [breadthFirst_eq_flatMap_level, hheight]
  · rw [Ne, level_eq_nil_iff, hheight, Nat.not_le]
  · rw [hdepth]
    exact breadthFirst_perm [t]

end TraceExplorer.Tree
