import Mathlib.Data.List.Nodup
import Mathlib.Data.List.Perm.Subperm
import TraceExplorer.Proofs.KeyedList
import TraceExplorer.Tree.Parents

/-!
# Parent links without circles

An ascent is the list of nodes that the links lead through, up to a node without a parent in the
map. A node has at most one ascent, and none if it is on a circle or below one. Cutting links
keeps every ascent finite, and the repair of a map gives every node an ascent.
-/

namespace TraceExplorer.ParentMap

/-- Following the links from a node leads through the listed nodes, that node first, and then
ends, or leaves the map. -/
inductive Ascent (parents : ParentMap) : Option Text → List Text → Prop
  | top : Ascent parents none []
  | outside {id : Text} (unknown : parents.lookup id = none) : Ascent parents (some id) []
  | link {id : Text} {parent : Option Text} {above : List Text}
      (found : parents.lookup id = some parent) (rest : Ascent parents parent above) :
      Ascent parents (some id) (id :: above)

def Grounded (parents : ParentMap) (node : Option Text) : Prop :=
  ∃ above, Ascent parents node above

def Pruned (parents pruned : ParentMap) : Prop :=
  ∀ id, pruned.lookup id = parents.lookup id ∨
    (parents.lookup id).isSome ∧ pruned.lookup id = some none

section

variable {parents pruned : ParentMap} {node : Option Text} {id : Text} {above path : List Text}

/-! ## Ascents -/

theorem Ascent.unique (h : Ascent parents node above) {other : List Text}
    (h' : Ascent parents node other) : above = other := by
  induction h generalizing other with
  | top => cases h'; rfl
  | outside unknown =>
      cases h' with
      | outside _ => rfl
      | link found _ => simp [unknown] at found
  | link found _ ih =>
      cases h' with
      | outside unknown => simp [unknown] at found
      | link found' rest' =>
          obtain rfl := Option.some.inj (found.symm.trans found')
          rw [ih rest']

theorem Ascent.of_mem (h : Ascent parents node above) (hid : id ∈ above) :
    ∃ tail, Ascent parents (some id) (id :: tail) ∧ id :: tail <:+ above := by
  induction h with
  | top => simp at hid
  | outside _ => simp at hid
  | @link first _ rest found h ih =>
      rcases List.mem_cons.mp hid with rfl | hid
      · exact ⟨rest, .link found h, List.suffix_refl _⟩
      · obtain ⟨tail, htail, hsuffix⟩ := ih hid
        exact ⟨tail, htail, hsuffix.trans (List.suffix_cons _ _)⟩

/-- No node occurs twice on the way up. -/
theorem Ascent.nodup (h : Ascent parents node above) : above.Nodup := by
  induction h with
  | top => exact List.nodup_nil
  | outside _ => exact List.nodup_nil
  | @link id _ rest found h ih =>
      refine List.nodup_cons.mpr ⟨fun hid => ?_, ih⟩
      -- A second visit would have the same ascent as the first, yet a shorter one.
      obtain ⟨tail, htail, hsuffix⟩ := h.of_mem hid
      have heq := (Ascent.link found h).unique htail
      have hlen := hsuffix.length_le
      rw [← heq, List.length_cons] at hlen
      omega

theorem Ascent.isSome_lookup (h : Ascent parents node above) (hid : id ∈ above) :
    (parents.lookup id).isSome := by
  obtain ⟨tail, htail, -⟩ := h.of_mem hid
  cases htail with
  | link found _ => simp [found]

theorem Ascent.length_le (h : Ascent parents node above) : above.length ≤ parents.length := by
  have hsub : above ⊆ parents.map (·.1) := fun _ hid =>
    KeyedList.isSome_lookup_iff.mp (h.isSome_lookup hid)
  simpa using (List.subperm_of_subset h.nodup hsub).length_le

/-! ## Cutting links -/

theorem Pruned.refl (parents : ParentMap) : Pruned parents parents := fun _ => Or.inl rfl

theorem Pruned.trans {cut : ParentMap} (h : Pruned parents pruned) (h' : Pruned pruned cut) :
    Pruned parents cut := by
  intro id
  rcases h' id with hkept | ⟨hsome, hcut⟩
  · rw [hkept]
    exact h id
  · refine Or.inr ⟨?_, hcut⟩
    rcases h id with hkept | ⟨hsome', -⟩
    · rwa [← hkept]
    · exact hsome'

/-- A node that had an end above it still has one after links were cut. -/
theorem Pruned.grounded (h : Pruned parents pruned) (hnode : Grounded parents node) :
    Grounded pruned node := by
  obtain ⟨above, habove⟩ := hnode
  induction habove with
  | top => exact ⟨[], .top⟩
  | @outside id unknown =>
      rcases h id with hkept | ⟨hsome, -⟩
      · exact ⟨[], .outside (hkept.trans unknown)⟩
      · simp [unknown] at hsome
  | @link id _ _ found _ ih =>
      rcases h id with hkept | ⟨-, hcut⟩
      · obtain ⟨rest, hrest⟩ := ih
        exact ⟨_, .link (hkept.trans found) hrest⟩
      · exact ⟨_, .link hcut .top⟩

theorem Pruned.lookup_eq (h : Pruned parents pruned) {parent : Text}
    (hid : pruned.lookup id = some (some parent)) : parents.lookup id = some (some parent) := by
  rcases h id with hkept | ⟨-, hcut⟩
  · rwa [← hkept]
  · simp [hcut] at hid

theorem lookup_cut (parents : ParentMap) (id other : Text) :
    (cut parents id).lookup other =
      if other = id then (parents.lookup other).map fun _ => none else parents.lookup other := by
  induction parents with
  | nil => simp [cut]
  | cons link rest ih =>
      obtain ⟨key, parent⟩ := link
      simp only [cut, List.map_cons] at ih ⊢
      by_cases hkey : other = key
      · subst hkey
        by_cases hid : other = id <;> simp [hid]
      · have hne : (other == key) = false := by simp [hkey]
        have hlink : (if key = id then (key, none) else (key, parent)) =
            (key, if key = id then none else parent) := by split <;> rfl
        rw [hlink, List.lookup_cons, hne, List.lookup_cons, hne]
        exact ih

theorem pruned_cut (parents : ParentMap) (id : Text) : Pruned parents (cut parents id) := by
  intro other
  rw [lookup_cut]
  split
  · cases h : parents.lookup other with
    | none => exact Or.inl rfl
    | some _ => exact Or.inr ⟨rfl, rfl⟩
  · exact Or.inl rfl

theorem keys_cut (parents : ParentMap) (id : Text) :
    (cut parents id).map (·.1) = parents.map (·.1) := by
  rw [cut, List.map_map]
  apply List.map_congr_left
  intro link _
  simp only [Function.comp_apply]
  split <;> rfl

/-! ## Climbing -/

/-- The path, last node first, follows the links up to the given next node. -/
def Trail (parents : ParentMap) : List Text → Option Text → Prop
  | [], _ => True
  | id :: path, next => parents.lookup id = some next ∧ Trail parents path (some id)

theorem Trail.isSome_lookup (h : Trail parents path node) (hid : id ∈ path) :
    (parents.lookup id).isSome := by
  induction path generalizing node with
  | nil => simp at hid
  | cons first path ih =>
      rcases List.mem_cons.mp hid with rfl | hid
      · simp [h.1]
      · exact ih h.2 hid

/-- If the links from the end of a trail come to an end, so do those from every node on it, also
after links were cut. -/
theorem Trail.grounded (h : Trail parents path node) (hpruned : Pruned parents pruned)
    (hnode : Grounded pruned node) (hid : id ∈ path) : Grounded pruned (some id) := by
  induction path generalizing node with
  | nil => simp at hid
  | cons first path ih =>
      have hfirst : Grounded pruned (some first) := by
        rcases hpruned first with hkept | ⟨-, hcut⟩
        · obtain ⟨above, habove⟩ := hnode
          exact ⟨_, .link (hkept.trans h.1) habove⟩
        · exact ⟨_, .link hcut .top⟩
      rcases List.mem_cons.mp hid with rfl | hid
      · exact hfirst
      · exact ih h.2 hfirst hid

/-- A climb ends at a top, outside the map, at a settled node, or at a node already passed. -/
theorem climb_trail (parents : ParentMap) (settled path : List Text) (current : Option Text)
    (h : Trail parents path current) :
    let (passed, closing) := climb parents settled path current
    path ⊆ passed ∧
      (∀ id, current = some id → (parents.lookup id).isSome → id ∈ settled ∨ id ∈ passed) ∧
      match closing with
      | none => ∃ last, Trail parents passed last ∧
          ∀ id, last = some id → parents.lookup id = none ∨ id ∈ settled
      | some id => id ∈ passed ∧ Trail parents passed (some id) := by
  fun_induction climb parents settled path current with
  | case1 path => exact ⟨fun _ h => h, by simp, none, h, by simp⟩
  | case2 path id hnone =>
      refine ⟨fun _ h => h, ?_, some id, h, ?_⟩
      · rintro _ ⟨⟩ hsome
        simp [hnone] at hsome
      · rintro _ ⟨⟩
        exact Or.inl hnone
  | case3 path id parent _ hsettled =>
      have hmem : id ∈ settled := by simpa using hsettled
      refine ⟨fun _ h => h, ?_, some id, h, ?_⟩
      · rintro _ ⟨⟩ _
        exact Or.inl hmem
      · rintro _ ⟨⟩
        exact Or.inr hmem
  | case4 path id parent _ _ hclosed =>
      have hmem : id ∈ path := by simpa using hclosed
      refine ⟨fun _ h => h, ?_, hmem, h⟩
      rintro _ ⟨⟩ _
      exact Or.inr hmem
  | case5 path id parent hfound _ _ ih =>
      obtain ⟨hsub, -, hend⟩ := ih ⟨hfound, h⟩
      refine ⟨fun _ h => hsub (List.mem_cons_of_mem _ h), ?_, hend⟩
      rintro _ ⟨⟩ _
      exact Or.inr (hsub List.mem_cons_self)

end

/-! ## Repairing -/

/-- What holds of a repair at any moment: links are only cut, and the links from settled nodes
come to an end. -/
structure Repair.Sound (parents : ParentMap) (r : Repair) : Prop where
  pruned : Pruned parents r.parents
  keys : r.parents.map (·.1) = parents.map (·.1)
  grounded : ∀ id ∈ r.settled, Grounded r.parents (some id)

section

variable {parents : ParentMap} {r : Repair}

theorem Repair.Sound.visit (h : r.Sound parents) {start : Text}
    (hstart : start ∈ parents.map (·.1)) :
    (r.visit start).Sound parents ∧ start ∈ (r.visit start).settled ∧
      r.settled ⊆ (r.visit start).settled := by
  have hclimb := climb_trail r.parents r.settled [] (some start) trivial
  unfold Repair.visit
  generalize climb r.parents r.settled [] (some start) = result at hclimb ⊢
  obtain ⟨passed, closing⟩ := result
  obtain ⟨-, hfirst, hend⟩ := hclimb
  have hknown : (r.parents.lookup start).isSome :=
    KeyedList.isSome_lookup_iff.mpr (h.keys.symm ▸ hstart)
  refine ⟨?_, List.mem_append.mpr (hfirst start rfl hknown).symm, List.subset_append_right _ _⟩
  cases closing with
  | none =>
      obtain ⟨last, htrail, hlast⟩ := hend
      refine ⟨h.pruned, h.keys, fun id hid => ?_⟩
      have hground : Grounded r.parents last := by
        cases last with
        | none => exact ⟨[], .top⟩
        | some id => exact (hlast id rfl).elim (fun hnone => ⟨[], .outside hnone⟩) (h.grounded id)
      rcases List.mem_append.mp hid with hid | hid
      · exact htrail.grounded (.refl _) hground hid
      · exact h.grounded id hid
  | some closed =>
      obtain ⟨hmem, htrail⟩ := hend
      have hcut := pruned_cut r.parents closed
      have htop : Grounded (cut r.parents closed) (some closed) := by
        obtain ⟨parent, hparent⟩ := Option.isSome_iff_exists.mp (htrail.isSome_lookup hmem)
        exact ⟨_, .link (by rw [lookup_cut, if_pos rfl, hparent]; rfl) .top⟩
      refine ⟨h.pruned.trans hcut, (keys_cut _ _).trans h.keys, fun id hid => ?_⟩
      rcases List.mem_append.mp hid with hid | hid
      · exact htrail.grounded hcut htop hid
      · exact hcut.grounded (h.grounded id hid)

theorem Repair.Sound.visit_all (h : r.Sound parents) {starts : List Text}
    (hstarts : starts ⊆ parents.map (·.1)) :
    (starts.foldl Repair.visit r).Sound parents ∧
      r.settled ⊆ (starts.foldl Repair.visit r).settled ∧
      starts ⊆ (starts.foldl Repair.visit r).settled := by
  induction starts generalizing r with
  | nil => exact ⟨h, fun _ h => h, by simp⟩
  | cons start rest ih =>
      obtain ⟨hstart, hrest⟩ := List.cons_subset.mp hstarts
      obtain ⟨hsound, hsettled, hsub⟩ := h.visit hstart
      obtain ⟨hsound', hsub', hrest'⟩ := ih hsound hrest
      exact ⟨hsound', fun _ h => hsub' (hsub h), List.cons_subset.mpr ⟨hsub' hsettled, hrest'⟩⟩

theorem repair_sound (parents : ParentMap) :
    (repair parents).Sound parents ∧ parents.map (·.1) ⊆ (repair parents).settled := by
  have hinit : Repair.Sound parents { parents } := ⟨.refl _, rfl, by simp⟩
  obtain ⟨hsound, -, hall⟩ := hinit.visit_all (List.Subset.refl _)
  exact ⟨hsound, hall⟩

/-- After the repair the links from every node come to an end. -/
theorem grounded_breakCycles {id : Text} (hid : id ∈ parents.map (·.1)) :
    Grounded (breakCycles parents) (some id) :=
  (repair_sound parents).1.grounded id ((repair_sound parents).2 hid)

theorem pruned_breakCycles (parents : ParentMap) : Pruned parents (breakCycles parents) :=
  (repair_sound parents).1.pruned

theorem keys_breakCycles (parents : ParentMap) :
    (breakCycles parents).map (·.1) = parents.map (·.1) :=
  (repair_sound parents).1.keys

end

end TraceExplorer.ParentMap
