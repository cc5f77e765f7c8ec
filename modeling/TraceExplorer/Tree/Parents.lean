import TraceExplorer.Text.Basic

/-!
# Parent links

Parent links may run in a circle. Following the links from each node in turn finds one node on
each circle, and cutting its link leaves no circle.
-/

namespace TraceExplorer

abbrev ParentMap := List (Text × Option Text)

namespace ParentMap

def offPath (parents : ParentMap) (path : List Text) : ParentMap :=
  parents.filter fun link => !path.contains link.1

theorem length_offPath_lt {parents : ParentMap} {path : List Text} {id : Text}
    {parent : Option Text} (mem : parents.lookup id = some parent)
    (off : path.contains id = false) :
    (offPath parents (id :: path)).length < (offPath parents path).length := by
  induction parents with
  | nil => simp at mem
  | cons link rest ih =>
    obtain ⟨key, value⟩ := link
    have le : (offPath rest (id :: path)).length ≤ (offPath rest path).length := by
      simp only [offPath, ← List.countP_eq_length_filter]
      apply List.countP_mono_left
      intro link _ h
      simp only [List.contains_cons, Bool.not_eq_true', Bool.or_eq_false_iff] at h ⊢
      exact h.2
    by_cases h : id = key
    · subst h
      have : rest.filter (fun link => !(id :: path).contains link.1) = offPath rest (id :: path) :=
        rfl
      simp only [offPath, List.filter_cons, List.contains_cons, BEq.rfl, Bool.true_or,
        Bool.not_true, off, Bool.not_false] at le ⊢
      simp only [Bool.false_eq_true, ↓reduceIte, List.length_cons]
      omega
    · rw [List.lookup_cons] at mem
      have hk : (id == key) = false := by simp [h]
      rw [hk] at mem
      have lt := ih mem
      have hk' : (key == id) = false := by simp [Ne.symm h]
      simp only [offPath, List.filter_cons, List.contains_cons, hk', Bool.false_or] at lt ⊢
      split <;> simp_all

/-- Follows the links from a node until they end or reach a settled node. Yields the nodes passed,
last first, and the node at which a circle closed, if one did. -/
def climb (parents : ParentMap) (settled path : List Text) (current : Option Text) :
    List Text × Option Text :=
  match current with
  | none => (path, none)
  | some id =>
    match _found : parents.lookup id with
    | none => (path, none)
    | some parent =>
      if settled.contains id then (path, none)
      else if _closed : path.contains id then (path, some id)
      else climb parents settled (id :: path) parent
termination_by (offPath parents path).length
decreasing_by exact length_offPath_lt _found (by simpa using _closed)

def cut (parents : ParentMap) (id : Text) : ParentMap :=
  parents.map fun link => if link.1 = id then (link.1, none) else link

/-- The links cut so far, the nodes known to lead to a top, and the nodes whose link was cut. -/
structure Repair where
  parents : ParentMap
  settled : List Text := []
  adopted : List Text := []

/-- Follows the links from one node and cuts the link that closes a circle. -/
def Repair.visit (r : Repair) (start : Text) : Repair :=
  let (path, closing) := climb r.parents r.settled [] (some start)
  { parents := match closing with
      | some id => cut r.parents id
      | none => r.parents
    settled := path ++ r.settled
    adopted := r.adopted ++ closing.toList }

def repair (parents : ParentMap) : Repair :=
  (parents.map (·.1)).foldl Repair.visit { parents }

def breakCycles (parents : ParentMap) : ParentMap := (repair parents).parents

end ParentMap

end TraceExplorer
