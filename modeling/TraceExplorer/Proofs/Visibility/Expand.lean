import TraceExplorer.Proofs.Visibility.View

/-!
# What an expansion does to the records

Nodes that are expanded together add their grants to those that the records have. All of them are
shown, with their children and all above them.
-/

namespace TraceExplorer.Transition

open VisibilityState

section

variable {s s' : VisibilityState} {t : Transition} {x id : Text} {ids : List Text}

/-! ## Marking -/

@[simp] theorem fresh_expand : (t.expand id).state.fresh = t.state.fresh := by
  rw [expand, fresh_setVisible]
  exact fresh_modify fun _ => rfl

theorem find?_expand :
    (t.expand id).state.find? x =
      if x = id then (t.state.find? x).map fun r => { r with expanded := true, visible := true }
      else t.state.find? x := by
  rw [expand, find?_setVisible, modify_state, find?_modify (by exact fun _ => rfl)]
  split
  · rw [Option.map_map]
    rfl
  · rfl

/-! ## Grants -/

/-- A record with one more grant for each time its id is listed. -/
def granted (below above : List Text) (r : VisibilityRecord) : VisibilityRecord :=
  { r with
    openParents := ⟨r.openParents.value + below.count r.spanId⟩
    openChildren := ⟨r.openChildren.value + above.count r.spanId⟩ }

theorem granted_nil (r : VisibilityRecord) : granted [] [] r = r := rfl

theorem granted_granted (below above below' above' : List Text) (r : VisibilityRecord) :
    granted below' above' (granted below above r) =
      granted (below ++ below') (above ++ above') r := by
  simp [granted, Nat.add_assoc]

theorem find?_foldl_openParents :
    (ids.foldl (fun t child => t.modify child fun c =>
        { c with openParents := c.openParents.increment }) t).state.find? x =
      (t.state.find? x).map (granted ids []) := by
  rw [find?_foldl (fun n r => { r with openParents := ⟨r.openParents.value + n⟩ })
    (fun t id x => find?_modify (by exact fun _ => rfl)) (fun _ => rfl)]
  · apply map_find?_congr
    rintro r rfl
    rfl
  · intro n r
    simp only [RefCount.increment, Nat.add_assoc, Nat.add_comm 1]

theorem find?_foldl_openChildren :
    (ids.foldl (fun t above => t.modify above fun a =>
        { a with openChildren := a.openChildren.increment }) t).state.find? x =
      (t.state.find? x).map (granted [] ids) := by
  rw [find?_foldl (fun n r => { r with openChildren := ⟨r.openChildren.value + n⟩ })
    (fun t id x => find?_modify (by exact fun _ => rfl)) (fun _ => rfl)]
  · apply map_find?_congr
    rintro r rfl
    rfl
  · intro n r
    simp only [RefCount.increment, Nat.add_assoc, Nat.add_comm 1]

theorem fresh_grant : (t.grant id).state.fresh = t.state.fresh := by
  unfold grant
  split
  · rfl
  · exact (fresh_foldl fun _ _ => fresh_modify (by exact fun _ => rfl)).trans
      (fresh_foldl fun _ _ => fresh_modify (by exact fun _ => rfl))

theorem find?_grant :
    (t.grant id).state.find? x =
      (t.state.find? x).map (granted (t.state.childrenOf id) (t.state.ancestorsOf id)) := by
  unfold grant
  split
  · rename_i hnone
    simp [childrenOf, ancestorsOf, hnone, funext granted_nil]
  · rename_i r hsome
    simp only [childrenOf, ancestorsOf, hsome, find?_foldl_openParents, find?_foldl_openChildren,
      Option.map_map]
    congr 1

theorem find?_foldl_grant :
    (ids.foldl grant t).state.find? x =
      (t.state.find? x).map
        (granted (ids.flatMap t.state.childrenOf) (ids.flatMap t.state.ancestorsOf)) := by
  induction ids generalizing t with
  | nil => simp [funext granted_nil]
  | cons id rest ih =>
      rw [List.foldl_cons, ih, find?_grant, childrenOf_congr fresh_grant,
        ancestorsOf_congr fresh_grant, Option.map_map]
      congr 1
      funext r
      simp [granted_granted]

/-! ## All together -/

def shownBy (s : VisibilityState) (ids : List Text) (r : VisibilityRecord) : VisibilityRecord :=
  let below := ids.flatMap s.childrenOf
  let above := ids.flatMap s.ancestorsOf
  { granted below above r with
    expanded := r.expanded || ids.contains r.spanId
    visible := r.visible || (ids ++ below ++ above).contains r.spanId }

theorem shownBy_congr (h : s.fresh = s'.fresh) : shownBy s ids = shownBy s' ids := by
  funext r
  rw [shownBy, shownBy, childrenOf_congr h, ancestorsOf_congr h]

theorem shownBy_nil (s : VisibilityState) (r : VisibilityRecord) : shownBy s [] r = r := by
  simp [shownBy, granted]

/-- Nodes that are shown after others are shown with them. -/
theorem shownBy_shownBy (s : VisibilityState) (ids ids' : List Text) (r : VisibilityRecord) :
    shownBy s ids' (shownBy s ids r) = shownBy s (ids ++ ids') r := by
  have hvisible (x : Text) : (r.visible || (ids ++ ids.flatMap s.childrenOf ++
      ids.flatMap s.ancestorsOf).contains x || (ids' ++ ids'.flatMap s.childrenOf ++
        ids'.flatMap s.ancestorsOf).contains x) =
      (r.visible || (ids ++ ids' ++ (ids ++ ids').flatMap s.childrenOf ++
        (ids ++ ids').flatMap s.ancestorsOf).contains x) := by
    rw [Bool.eq_iff_iff]
    simp only [Bool.or_eq_true, List.contains_iff_mem, List.mem_append, List.flatMap_append]
    grind
  simp only [shownBy, granted, List.flatMap_append, List.count_append, Nat.add_assoc,
    List.contains_append, Bool.or_assoc] at hvisible ⊢
  rw [hvisible]

theorem fresh_expandAll (t : Transition) (ids : List Text) :
    (t.expandAll ids).state.fresh = t.state.fresh :=
  (fresh_foldl_setVisible.trans (fresh_foldl fun _ _ => fresh_grant)).trans
    (fresh_foldl fun _ _ => fresh_expand)

theorem mem_family {s : VisibilityState} :
    x ∈ family s id ↔ x ∈ s.childrenOf id ∨ x ∈ s.ancestorsOf id := by
  unfold family
  split
  · rename_i hnone
    simp [childrenOf, ancestorsOf, hnone]
  · rename_i r hsome
    simp [childrenOf, ancestorsOf, hsome]

/-- Expanding nodes adds one grant below and above for each time a node is listed, and shows the
nodes with all their children and all above them. -/
theorem find?_expandAll :
    (t.expandAll ids).state.find? x = (t.state.find? x).map (shownBy t.state ids) := by
  have hexpand : ∀ r : VisibilityRecord,
      ({ ({ r with expanded := true, visible := true } : VisibilityRecord) with
          expanded := true, visible := true } : VisibilityRecord) =
        { r with expanded := true, visible := true } := fun _ => rfl
  have hmarked : (ids.foldl expand t).state.fresh = t.state.fresh :=
    fresh_foldl fun _ _ => fresh_expand
  simp only [expandAll]
  rw [find?_foldl_setVisible, find?_foldl_grant, childrenOf_congr hmarked,
    ancestorsOf_congr hmarked, find?_foldl_of_idem (fun _ _ _ => find?_expand) hexpand]
  cases h : t.state.find? x with
  | none => simp
  | some r =>
      obtain rfl := spanId_of_find? h
      have hfamily : r.spanId ∈ ids.flatMap (family t.state) ↔
          r.spanId ∈ ids.flatMap t.state.childrenOf ∨
            r.spanId ∈ ids.flatMap t.state.ancestorsOf := by
        simp only [List.mem_flatMap, mem_family, and_or_left, exists_or]
      simp only [Option.map_some, shownBy, hfamily]
      generalize ids.flatMap t.state.childrenOf = below
      generalize ids.flatMap t.state.ancestorsOf = above
      by_cases hids : r.spanId ∈ ids <;> by_cases hbelow : r.spanId ∈ below <;>
        by_cases habove : r.spanId ∈ above <;> simp [granted, hids, hbelow, habove]

end

end TraceExplorer.Transition
