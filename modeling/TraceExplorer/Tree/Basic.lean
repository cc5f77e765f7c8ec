/-!
# Trees

A tree has a label and a list of subtrees. Its labels can be listed by depth, each node before its
subtrees, or level by level. Both walks keep the trees still to visit in one list; the recursive
listing says what the walk by depth yields.
-/

namespace TraceExplorer

inductive Tree (α : Type) where
  | node (label : α) (children : List (Tree α))

namespace Tree

variable {α : Type}

def label : Tree α → α
  | node a _ => a

def children : Tree α → List (Tree α)
  | node _ ts => ts

mutual

def size : Tree α → Nat
  | node _ ts => forestSize ts + 1

def forestSize : List (Tree α) → Nat
  | [] => 0
  | t :: ts => size t + forestSize ts

end

mutual

def preorder : Tree α → List α
  | node a ts => a :: forestPreorder ts

def forestPreorder : List (Tree α) → List α
  | [] => []
  | t :: ts => preorder t ++ forestPreorder ts

end

theorem forestSize_append (ts us : List (Tree α)) :
    forestSize (ts ++ us) = forestSize ts + forestSize us := by
  induction ts with
  | nil => simp [forestSize]
  | cons t ts ih => simp [forestSize, ih, Nat.add_assoc]

/-- Visits the first waiting tree and puts its subtrees in front of the others. -/
def depthFirst (waiting : List (Tree α)) : List α :=
  match waiting with
  | [] => []
  | node a ts :: rest => a :: depthFirst (ts ++ rest)
termination_by forestSize waiting
decreasing_by simp [forestSize, size, forestSize_append]

/-- Visits the first waiting tree and puts its subtrees behind the others. -/
def breadthFirst (waiting : List (Tree α)) : List α :=
  match waiting with
  | [] => []
  | node a ts :: rest => a :: breadthFirst (rest ++ ts)
termination_by forestSize waiting
decreasing_by simp [forestSize, size, forestSize_append]; omega

end Tree

end TraceExplorer
