import Minikura.Web.Layout

/-!
# No overlap in the layout

The Kubernetes nodes have slots one after the other, wide enough for the groups below them, and
the orphans follow past the last slot.

## Main definitions

* `Spaced` — two nodes of one row are as far apart as a node is wide.
* `k8sSlots` — the Kubernetes nodes in their order, with their slots.

## Main results

* `placeK8sNodes_eq`, `grouping_eq`, `layoutedNodes_eq` — the loops of the layout, each at once.
* `layoutedNodes_spaced` — all that is placed is spaced.
-/

namespace Minikura.Web.Topology

/-- Two nodes of one row are as far apart as a node is wide. -/
def Spaced (a b : TopologyNode) : Prop :=
  a.position.y = b.position.y → nodeWidth ≤ |a.position.x - b.position.x|

variable {nodes : List TopologyNode} {groups : List (String × List TopologyNode)}

/-! ## The row of Kubernetes nodes -/

/-- The width below a Kubernetes node, for all that is on it. -/
def slotWidth (groups : List (String × List TopologyNode)) (k8s : TopologyNode) : ℚ :=
  max nodeWidth ((bucket groups k8s.id).length * nodeWidth)

/-- The Kubernetes nodes in the order in which they are placed. -/
def k8sRow (nodes : List TopologyNode) (groups : List (String × List TopologyNode)) :
    List TopologyNode :=
  let k8sNodes := nodes.filter (·.data.type = .k8sNode)
  k8sNodes.filter (fun k8s => 0 < (bucket groups k8s.id).length) ++
    k8sNodes.filter fun k8s => (bucket groups k8s.id).length = 0

/-- The Kubernetes nodes with their slots. -/
def k8sSlots (nodes : List TopologyNode) (groups : List (String × List TopologyNode)) :
    List (TopologyNode × Slot ℚ) :=
  slotsFrom nodeSpacing.x (slotWidth groups) 0 (k8sRow nodes groups)

def endX (nodes : List TopologyNode) (groups : List (String × List TopologyNode)) : ℚ :=
  cursorFrom nodeSpacing.x (slotWidth groups) 0 (k8sRow nodes groups)

def K8sNodePosition.ofSlot (s : Slot ℚ) : K8sNodePosition := ⟨s.center, s.width⟩

theorem foldl_placeK8sNode (width : TopologyNode → ℚ) (ks : List TopologyNode) (row : Row) :
    ks.foldl (fun row k8s => placeK8sNode (width k8s) row k8s) row =
      { currentX := cursorFrom nodeSpacing.x width row.currentX ks
        k8sNodePositions := setEntries row.k8sNodePositions
          ((slotsFrom nodeSpacing.x width row.currentX ks).map fun p =>
            (p.1.id, .ofSlot p.2))
        layoutedNodesList := row.layoutedNodesList ++
          (slotsFrom nodeSpacing.x width row.currentX ks).map fun p =>
            place p.1 p.2.center 0 } := by
  induction ks generalizing row with
  | nil => simp [cursorFrom, slotsFrom]
  | cons k8s ks ih =>
    rw [List.foldl_cons, ih, slotsFrom, List.map_cons, List.map_cons, setEntries_cons]
    simp [placeK8sNode, cursorFrom, K8sNodePosition.ofSlot, Slot.center]

/-- The width that the first loop keeps for an id is that of the slot. -/
theorem lookup_k8sNodeWidths {ks : List TopologyNode} {k8s : TopologyNode} (h : k8s ∈ ks) :
    (ks.foldl (fun m k8s => setEntry m k8s.id
      (max nodeWidth ((bucket groups k8s.id).length * nodeWidth))) []).lookup k8s.id =
        some (slotWidth groups k8s) := by
  let es := ks.map fun k8s => (k8s.id, slotWidth groups k8s)
  have hfold : ks.foldl (fun m k8s => setEntry m k8s.id
      (max nodeWidth ((bucket groups k8s.id).length * nodeWidth))) [] = setEntries [] es := by
    rw [setEntries, List.foldl_map]
    exact rfl
  rw [hfold]
  cases hl : (setEntries [] es).lookup k8s.id with
  | none =>
    rw [lookup_setEntries, List.lookup_nil, Option.or_none, List.lookup_eq_none_iff] at hl
    have := hl _ (List.mem_reverse.mpr (List.mem_map_of_mem h))
    simp at this
  | some width =>
    have hmem := (mem_setEntries (mem_of_lookup hl)).resolve_left List.not_mem_nil
    obtain ⟨k, -, hk⟩ := List.mem_map.mp hmem
    obtain ⟨hid, rfl⟩ := Prod.mk.inj hk
    rw [slotWidth, slotWidth, hid]

theorem slotWidth_of_empty {k8s : TopologyNode} (h : (bucket groups k8s.id).length = 0) :
    slotWidth groups k8s = nodeWidth := by
  rw [slotWidth, h, Nat.cast_zero, zero_mul]
  exact max_eq_left (by norm_num [nodeWidth])

theorem placeK8sNodes_eq (nodes : List TopologyNode)
    (groups : List (String × List TopologyNode)) : placeK8sNodes nodes groups =
      { currentX := endX nodes groups
        k8sNodePositions := setEntries [] ((k8sSlots nodes groups).map fun p =>
          (p.1.id, .ofSlot p.2))
        layoutedNodesList := (k8sSlots nodes groups).map fun p => place p.1 p.2.center 0 } := by
  have hrow : placeK8sNodes nodes groups =
      (k8sRow nodes groups).foldl
        (fun row k8s => placeK8sNode (slotWidth groups k8s) row k8s) {} := by
    rw [k8sRow, List.foldl_append, placeK8sNodes]
    refine (List.foldl_ext _ _ _ fun row k8s hk8s => ?_).trans
      (congrArg (List.foldl _ · _) (List.foldl_ext _ _ _ fun row k8s hk8s => ?_))
    · rw [slotWidth_of_empty (of_decide_eq_true (List.mem_filter.mp hk8s).2)]
    · rw [lookup_k8sNodeWidths hk8s, Option.getD_some]
  rw [hrow, foldl_placeK8sNode]
  rfl

theorem slotWidth_ge (groups : List (String × List TopologyNode)) (k8s : TopologyNode) :
    nodeWidth ≤ slotWidth groups k8s := le_max_left _ _

theorem slotWidth_nonneg (groups : List (String × List TopologyNode)) (k8s : TopologyNode) :
    0 ≤ slotWidth groups k8s := by
  refine le_trans ?_ (slotWidth_ge groups k8s)
  norm_num [nodeWidth]

theorem spacing_nonneg : 0 ≤ nodeSpacing.x := by norm_num [nodeSpacing]

theorem nodeWidth_nonneg : 0 ≤ nodeWidth := by norm_num [nodeWidth]

theorem k8sSlots_pairwise (nodes : List TopologyNode)
    (groups : List (String × List TopologyNode)) :
    (k8sSlots nodes groups).Pairwise fun p q => p.2.right + nodeSpacing.x ≤ q.2.left :=
  pairwise_slotsFrom spacing_nonneg (slotWidth_nonneg groups)

/-- What is in the slots of different Kubernetes nodes is apart. -/
theorem apart_of_ne {p q : TopologyNode × Slot ℚ} {x y : ℚ} (hp : p ∈ k8sSlots nodes groups)
    (hq : q ∈ k8sSlots nodes groups) (hne : p ≠ q) (hx : p.2.Holds nodeWidth x)
    (hy : q.2.Holds nodeWidth y) : nodeWidth ≤ |x - y| := by
  let R (p q : TopologyNode × Slot ℚ) : Prop :=
    p.2.right + nodeSpacing.x ≤ q.2.left ∨ q.2.right + nodeSpacing.x ≤ p.2.left
  have hsymm : Std.Symm R := ⟨fun _ _ h => h.symm⟩
  have hR : (k8sSlots nodes groups).Pairwise R := (k8sSlots_pairwise nodes groups).imp .inl
  rcases hR.forall hp hq hne with h | h
  · exact Slot.unit_le_abs_sub spacing_nonneg hx hy h
  · rw [abs_sub_comm]
    exact Slot.unit_le_abs_sub spacing_nonneg hy hx h

/-- What is past the last slot is apart from what is in a slot. -/
theorem apart_of_endX_le {p : TopologyNode × Slot ℚ} {x y : ℚ} (hp : p ∈ k8sSlots nodes groups)
    (hx : p.2.Holds nodeWidth x) (hy : endX nodes groups ≤ y) : nodeWidth ≤ |x - y| := by
  have hend : p.2.right + nodeSpacing.x ≤ endX nodes groups :=
    right_add_le_cursor spacing_nonneg (slotWidth_nonneg groups) hp
  have hgap : nodeSpacing.x = 350 := rfl
  have hwidth : nodeWidth = 320 := rfl
  rw [abs_sub_comm]
  refine le_trans ?_ (le_abs_self _)
  linarith [hx.2]

/-! ## Groups -/

/-- The servers, then the proxies. -/
def appNodes (nodes : List TopologyNode) : List TopologyNode :=
  nodes.filter (·.data.type = .server) ++ nodes.filter (·.data.type = .proxy)

/-- A node with the id of the Kubernetes node that it is on, if there is one. -/
def hostEntry (node : TopologyNode) : Option (String × TopologyNode) :=
  node.k8sNodeNames.head?.map fun name => ("k8s-node-" ++ name, node)

theorem foldl_groupNode (nodes : List TopologyNode) (g : Grouping) :
    nodes.foldl groupNode g =
      { k8sNodeGroups := pushAll g.k8sNodeGroups (nodes.filterMap hostEntry)
        orphanedNodes := g.orphanedNodes ++ nodes.filter (·.k8sNodeNames = []) } := by
  induction nodes generalizing g with
  | nil => simp
  | cons node nodes ih =>
    rw [List.foldl_cons, ih, groupNode, List.filterMap_cons, List.filter_cons, hostEntry]
    cases node.k8sNodeNames with
    | nil => simp
    | cons name names => simp

theorem grouping_eq (nodes : List TopologyNode) : grouping nodes =
    { k8sNodeGroups := pushAll [] ((appNodes nodes).filterMap hostEntry)
      orphanedNodes := (appNodes nodes).filter (·.k8sNodeNames = []) } := by
  rw [grouping, foldl_groupNode]
  rfl

theorem groups_nodup (nodes : List TopologyNode) :
    ((grouping nodes).k8sNodeGroups.map (·.1)).Nodup := by
  rw [grouping_eq]
  exact nodup_pushAll _ .nil

/-- The group below a Kubernetes node that has a place. -/
def placedGroup (positions : List (String × K8sNodePosition))
    (entry : String × List TopologyNode) : List TopologyNode :=
  match positions.lookup entry.1 with
  | none => []
  | some k8sPos => placeGroup k8sPos entry.2

theorem layoutedNodes_eq (nodes : List TopologyNode) : layoutedNodes nodes =
    offset ((placeK8sNodes nodes (grouping nodes).k8sNodeGroups).layoutedNodesList ++
      (grouping nodes).k8sNodeGroups.flatMap
        (placedGroup (placeK8sNodes nodes (grouping nodes).k8sNodeGroups).k8sNodePositions) ++
      (grouping nodes).orphanedNodes.mapIdx fun index node =>
        place node ((placeK8sNodes nodes (grouping nodes).k8sNodeGroups).currentX +
          index * nodeWidth) nodeSpacing.y) := rfl

/-- A group with a place is in the slot of a Kubernetes node with the id of the group. -/
theorem placedGroup_eq (nodes : List TopologyNode) (groups : List (String × List TopologyNode))
    (entry : String × List TopologyNode) :
    placedGroup (placeK8sNodes nodes groups).k8sNodePositions entry = [] ∨
      ∃ p ∈ k8sSlots nodes groups, p.1.id = entry.1 ∧
        placedGroup (placeK8sNodes nodes groups).k8sNodePositions entry =
          placeGroup (.ofSlot p.2) entry.2 := by
  rw [placedGroup, placeK8sNodes_eq]
  cases hl : (setEntries [] ((k8sSlots nodes groups).map fun p =>
      (p.1.id, K8sNodePosition.ofSlot p.2))).lookup entry.1 with
  | none => exact .inl rfl
  | some k8sPos =>
    have hmem := (mem_setEntries (mem_of_lookup hl)).resolve_left List.not_mem_nil
    obtain ⟨p, hp, heq⟩ := List.mem_map.mp hmem
    obtain ⟨hid, rfl⟩ := Prod.mk.inj heq
    exact .inr ⟨p, hp, hid, rfl⟩

/-- A node of a group is below the others, within the slot. -/
theorem exists_slot_of_mem_placedGroup {entry : String × List TopologyNode} {node : TopologyNode}
    (hnodup : (groups.map (·.1)).Nodup) (hentry : entry ∈ groups)
    (hnode : node ∈ placedGroup (placeK8sNodes nodes groups).k8sNodePositions entry) :
    ∃ p ∈ k8sSlots nodes groups, p.1.id = entry.1 ∧ p.2.Holds nodeWidth node.position.x ∧
      node.position.y = nodeSpacing.y := by
  rcases placedGroup_eq nodes groups entry with heq | ⟨p, hp, hid, heq⟩
  · rw [heq] at hnode
    cases hnode
  · rw [heq] at hnode
    obtain ⟨i, hi, rfl⟩ := List.mem_mapIdx.mp hnode
    have hwidth : (entry.2.length : ℚ) * nodeWidth ≤ p.2.width := by
      rw [width_of_mem_slotsFrom hp, slotWidth, hid, bucket_of_mem hnodup hentry]
      exact le_max_right _ _
    exact ⟨p, hp, hid, Slot.holds_seat nodeWidth_nonneg hwidth hi, rfl⟩

/-! ## Nothing overlaps -/

theorem mapIdx_spaced {f : ℕ → ℚ} (y : ℚ) (h : ∀ i j, i < j → nodeWidth ≤ |f i - f j|)
    (nodes : List TopologyNode) :
    (nodes.mapIdx fun index node => place node (f index) y).Pairwise Spaced := by
  rw [List.pairwise_iff_getElem]
  intro i j hi hj hij _
  simp only [List.getElem_mapIdx]
  exact h i j hij

theorem placeGroup_spaced (s : Slot ℚ) (group : List TopologyNode) :
    (placeGroup (.ofSlot s) group).Pairwise Spaced :=
  mapIdx_spaced _ (fun _ _ hij => Slot.unit_le_abs_sub_seat nodeWidth_nonneg hij) group

theorem k8sRow_spaced (nodes : List TopologyNode) (groups : List (String × List TopologyNode)) :
    ((k8sSlots nodes groups).map fun p => place p.1 p.2.center 0).Pairwise Spaced := by
  rw [List.pairwise_map]
  refine (k8sSlots_pairwise nodes groups).imp_of_mem fun {p q} hp hq h _ => ?_
  have hwide : ∀ p ∈ k8sSlots nodes groups, p.2.Holds nodeWidth p.2.center := fun p hp =>
    Slot.holds_center (width_of_mem_slotsFrom hp ▸ slotWidth_ge groups p.1)
  exact Slot.unit_le_abs_sub spacing_nonneg (hwide p hp) (hwide q hq) h

theorem groups_spaced (hnodup : (groups.map (·.1)).Nodup) :
    (groups.flatMap
      (placedGroup (placeK8sNodes nodes groups).k8sNodePositions)).Pairwise Spaced := by
  rw [List.pairwise_flatMap]
  constructor
  · intro entry _
    rcases placedGroup_eq nodes groups entry with heq | ⟨p, -, -, heq⟩
    · rw [heq]
      exact .nil
    · rw [heq]
      exact placeGroup_spaced p.2 entry.2
  · refine (List.pairwise_map.mp hnodup).imp_of_mem fun {e e'} he he' hne a ha b hb _ => ?_
    obtain ⟨p, hp, hid, hx, -⟩ := exists_slot_of_mem_placedGroup hnodup he ha
    obtain ⟨q, hq, hid', hy, -⟩ := exists_slot_of_mem_placedGroup hnodup he' hb
    refine apart_of_ne hp hq ?_ hx hy
    rintro rfl
    exact hne (hid.symm.trans hid')

theorem orphans_spaced (x y : ℚ) (nodes : List TopologyNode) :
    (nodes.mapIdx fun index node => place node (x + index * nodeWidth) y).Pairwise Spaced := by
  refine mapIdx_spaced (f := fun index => x + index * nodeWidth) y (fun i j hij => ?_) nodes
  have hsucc : (i : ℚ) + 1 ≤ j := by exact_mod_cast hij
  rw [abs_sub_comm]
  refine le_trans ?_ (le_abs_self _)
  simp only [nodeWidth]
  linarith

theorem offset_eq (nodes : List TopologyNode) : ∃ d : ℚ, offset nodes = nodes.map fun node =>
    { node with position := { node.position with x := node.position.x + d } } := by
  rw [offset]
  split
  · exact ⟨_, rfl⟩
  · refine ⟨0, ?_⟩
    simp only [add_zero]
    exact (List.map_id _).symm

theorem offset_spaced (h : nodes.Pairwise Spaced) : (offset nodes).Pairwise Spaced := by
  obtain ⟨d, hd⟩ := offset_eq nodes
  rw [hd, List.pairwise_map]
  refine h.imp fun {a b} hab hy => ?_
  simpa only [add_sub_add_right_eq_sub] using hab hy

/-- All that is placed is spaced. -/
theorem layoutedNodes_spaced (nodes : List TopologyNode) :
    (layoutedNodes nodes).Pairwise Spaced := by
  rw [layoutedNodes_eq]
  apply offset_spaced
  have hnodup := groups_nodup nodes
  generalize (grouping nodes).k8sNodeGroups = groups at hnodup
  have hrow : ∀ a ∈ (placeK8sNodes nodes groups).layoutedNodesList, a.position.y = 0 := by
    rw [placeK8sNodes_eq]
    intro a ha
    obtain ⟨p, -, rfl⟩ := List.mem_map.mp ha
    rfl
  have horphan : ∀ b ∈ (grouping nodes).orphanedNodes.mapIdx fun index node =>
      place node ((placeK8sNodes nodes groups).currentX + index * nodeWidth) nodeSpacing.y,
      b.position.y = nodeSpacing.y ∧ endX nodes groups ≤ b.position.x := by
    rw [placeK8sNodes_eq]
    intro b hb
    obtain ⟨i, hi, rfl⟩ := List.mem_mapIdx.mp hb
    exact ⟨rfl, le_add_of_nonneg_right (mul_nonneg (Nat.cast_nonneg i) nodeWidth_nonneg)⟩
  have hrows : (0 : ℚ) ≠ nodeSpacing.y := by norm_num [nodeSpacing]
  rw [List.pairwise_append, List.pairwise_append]
  refine ⟨⟨?_, groups_spaced hnodup, ?_⟩, orphans_spaced _ _ _, ?_⟩
  · rw [placeK8sNodes_eq]
    exact k8sRow_spaced nodes groups
  · intro a ha b hb hy
    obtain ⟨entry, hentry, hb⟩ := List.mem_flatMap.mp hb
    obtain ⟨p, -, -, -, hbelow⟩ := exists_slot_of_mem_placedGroup hnodup hentry hb
    exact absurd ((hrow a ha).symm.trans (hy.trans hbelow)) hrows
  · intro a ha b hb hy
    rcases List.mem_append.mp ha with ha | ha
    · exact absurd ((hrow a ha).symm.trans (hy.trans (horphan b hb).1)) hrows
    · obtain ⟨entry, hentry, ha⟩ := List.mem_flatMap.mp ha
      obtain ⟨p, hp, -, hx, -⟩ := exists_slot_of_mem_placedGroup hnodup hentry ha
      exact apart_of_endX_le hp hx (horphan b hb).2

end Minikura.Web.Topology
