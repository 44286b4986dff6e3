import Minikura.Web.Placement

/-!
# Nodes lost in the layout

A server or proxy is placed below the first Kubernetes node of its pods, and where that one is not
shown, it is not shown either. All others are shown once.

## Main definitions

* `Hosted` — what is on a Kubernetes node is shown together with it.

## Main results

* `layoutedNodes_perm_iff` — every node is placed once just if what is shown is hosted.
* `topologyCanvas_exact` — nothing is lost and nothing overlaps, for what is shown of a graph.
-/

namespace Minikura.Web.Topology

/-- A node without its place. -/
def TopologyNode.unplaced (node : TopologyNode) : TopologyNode :=
  { node with position := ⟨0, 0⟩, targetPosition := none, sourcePosition := none }

/-- What is on a Kubernetes node is shown together with it. -/
def Hosted (shown : List TopologyNode) : Prop :=
  ∀ node ∈ shown, node.data.type ≠ .k8sNode → ∀ name, node.k8sNodeNames.head? = some name →
    ∃ k8s ∈ shown, k8s.data.type = .k8sNode ∧ k8s.id = "k8s-node-" ++ name

variable {nodes : List TopologyNode} {groups : List (String × List TopologyNode)}

@[simp] theorem unplaced_place (node : TopologyNode) (x y : ℚ) :
    (place node x y).unplaced = node.unplaced := rfl

/-! ## Those with a place -/

/-- The nodes that have a place: a group only if its Kubernetes node has one. -/
def placedNodes (nodes : List TopologyNode) : List TopologyNode :=
  let groups := (grouping nodes).k8sNodeGroups
  k8sRow nodes groups ++
    (groups.filter (·.1 ∈ (k8sRow nodes groups).map (·.id))).flatMap (·.2) ++
    (grouping nodes).orphanedNodes

theorem map_unplaced_mapIdx (f : ℕ → ℚ) (y : ℚ) (nodes : List TopologyNode) :
    (nodes.mapIdx fun index node => place node (f index) y).map (·.unplaced) =
      nodes.map (·.unplaced) := by
  refine List.ext_getElem (by simp) fun i hi hi' => ?_
  simp

theorem map_unplaced_offset (nodes : List TopologyNode) :
    (offset nodes).map (·.unplaced) = nodes.map (·.unplaced) := by
  obtain ⟨d, hd⟩ := offset_eq nodes
  rw [hd, List.map_map]
  rfl

theorem map_fst_k8sSlots (nodes : List TopologyNode)
    (groups : List (String × List TopologyNode)) :
    (k8sSlots nodes groups).map (·.1) = k8sRow nodes groups :=
  map_fst_slotsFrom _ _ _ _

theorem lookup_position_isSome (id : String) :
    ((placeK8sNodes nodes groups).k8sNodePositions.lookup id).isSome ↔
      id ∈ (k8sRow nodes groups).map (·.id) := by
  rw [lookup_isSome_iff_mem_keys, placeK8sNodes_eq, mem_keys_setEntries, ← map_fst_k8sSlots,
    List.map_map, List.map_map]
  simp [Function.comp_def]

theorem map_unplaced_groups : (groups.flatMap
      (placedGroup (placeK8sNodes nodes groups).k8sNodePositions)).map (·.unplaced) =
    ((groups.filter (·.1 ∈ (k8sRow nodes groups).map (·.id))).flatMap (·.2)).map
      (·.unplaced) := by
  generalize hpositions : (placeK8sNodes nodes groups).k8sNodePositions = positions
  have hsome : ∀ id, (positions.lookup id).isSome ↔ id ∈ (k8sRow nodes groups).map (·.id) :=
    fun id => hpositions ▸ lookup_position_isSome id
  generalize (k8sRow nodes groups).map (·.id) = ids at hsome
  clear hpositions
  induction groups with
  | nil => rfl
  | cons entry groups ih =>
    rw [List.flatMap_cons, List.map_append, ih, List.filter_cons, placedGroup]
    cases hl : positions.lookup entry.1 with
    | none =>
      have hid : entry.1 ∉ ids := fun hid => by simpa [hl] using (hsome entry.1).mpr hid
      simp [hid]
    | some k8sPos =>
      have hid : entry.1 ∈ ids := (hsome entry.1).mp (by simp [hl])
      simp only [hid, decide_true, if_true, List.flatMap_cons, List.map_append]
      rw [placeGroup, map_unplaced_mapIdx]

theorem map_unplaced_layoutedNodes (nodes : List TopologyNode) :
    (layoutedNodes nodes).map (·.unplaced) = (placedNodes nodes).map (·.unplaced) := by
  have hrow : (placeK8sNodes nodes (grouping nodes).k8sNodeGroups).layoutedNodesList.map
      (·.unplaced) = (k8sRow nodes (grouping nodes).k8sNodeGroups).map (·.unplaced) := by
    rw [placeK8sNodes_eq, ← map_fst_k8sSlots, List.map_map, List.map_map]
    exact rfl
  rw [layoutedNodes_eq, map_unplaced_offset, List.map_append, List.map_append, hrow,
    map_unplaced_groups, map_unplaced_mapIdx, placedNodes, List.map_append, List.map_append]

/-! ## Groups and orphans -/

theorem k8sRow_perm (nodes : List TopologyNode) (groups : List (String × List TopologyNode)) :
    List.Perm (k8sRow nodes groups) (nodes.filter (·.data.type = .k8sNode)) := by
  have hrest : ∀ l : List TopologyNode,
      (l.filter fun k8s => (bucket groups k8s.id).length = 0) =
        l.filter fun k8s => !decide (0 < (bucket groups k8s.id).length) := by
    intro l
    refine List.filter_congr fun k8s _ => ?_
    rw [← decide_not, decide_eq_decide]
    omega
  rw [k8sRow, hrest]
  exact List.filter_append_perm _ _

theorem appNodes_perm (nodes : List TopologyNode) :
    List.Perm (nodes.filter (·.data.type = .k8sNode) ++ appNodes nodes) nodes := by
  induction nodes with
  | nil => exact .refl _
  | cons node nodes ih =>
    simp only [appNodes, List.filter_cons] at ih ⊢
    cases node.data.type with
    | k8sNode => exact ih.cons node
    | server => exact List.perm_middle.trans (ih.cons node)
    | proxy =>
      simp only [← List.append_assoc] at ih ⊢
      exact List.perm_middle.trans (ih.cons node)

theorem map_snd_hostEntry (nodes : List TopologyNode) :
    (nodes.filterMap hostEntry).map (·.2) = nodes.filter (¬ ·.k8sNodeNames = []) := by
  induction nodes with
  | nil => rfl
  | cons node nodes ih =>
    rw [List.filterMap_cons, List.filter_cons, hostEntry]
    cases node.k8sNodeNames with
    | nil => simpa using ih
    | cons name names => simpa using ih

/-- All servers and proxies are in a group or an orphan. -/
theorem grouping_perm (nodes : List TopologyNode) :
    List.Perm ((grouping nodes).k8sNodeGroups.flatMap (·.2) ++ (grouping nodes).orphanedNodes)
      (appNodes nodes) := by
  rw [grouping_eq]
  refine ((flatMap_pushAll_perm _ _).append_right _).trans ?_
  rw [List.flatMap_nil, List.nil_append, map_snd_hostEntry]
  refine List.perm_append_comm.trans ?_
  simpa using List.filter_append_perm (fun node : TopologyNode => node.k8sNodeNames = [])
    (appNodes nodes)

/-- Those in a group are on its Kubernetes node. -/
theorem hostEntry_of_mem_group {entry : String × List TopologyNode} {node : TopologyNode}
    (hentry : entry ∈ (grouping nodes).k8sNodeGroups) (hnode : node ∈ entry.2) :
    hostEntry node = some (entry.1, node) := by
  rw [← bucket_of_mem (groups_nodup nodes) hentry, grouping_eq, bucket_pushAll, bucket_nil,
    List.nil_append] at hnode
  obtain ⟨e, he, rfl⟩ := List.mem_map.mp hnode
  obtain ⟨he, hkey⟩ := List.mem_filter.mp he
  obtain ⟨node, -, hhost⟩ := List.mem_filterMap.mp he
  obtain ⟨name, -, rfl⟩ := Option.map_eq_some_iff.mp hhost
  rw [← of_decide_eq_true hkey]
  exact hhost

/-! ## What is lost -/

theorem mem_appNodes {node : TopologyNode} :
    node ∈ appNodes nodes ↔ node ∈ nodes ∧ node.data.type ≠ .k8sNode := by
  rw [appNodes, List.mem_append, List.mem_filter, List.mem_filter]
  cases node.data.type <;> simp

theorem mem_of_mem_k8sRow {node : TopologyNode} (h : node ∈ k8sRow nodes groups) :
    node ∈ nodes ∧ node.data.type = .k8sNode := by
  obtain ⟨hnode, htype⟩ := List.mem_filter.mp ((k8sRow_perm nodes groups).mem_iff.mp h)
  exact ⟨hnode, of_decide_eq_true htype⟩

theorem mem_k8sRow {node : TopologyNode} (h : node ∈ nodes) (htype : node.data.type = .k8sNode) :
    node ∈ k8sRow nodes groups :=
  (k8sRow_perm nodes groups).mem_iff.mpr (List.mem_filter.mpr ⟨h, decide_eq_true htype⟩)

theorem mem_group_or_orphan {node : TopologyNode} :
    node ∈ appNodes nodes ↔ (∃ entry ∈ (grouping nodes).k8sNodeGroups, node ∈ entry.2) ∨
      node ∈ (grouping nodes).orphanedNodes := by
  rw [← (grouping_perm nodes).mem_iff, List.mem_append, List.mem_flatMap]

/-- There is a group only for a Kubernetes node that something is on. -/
theorem exists_of_group {entry : String × List TopologyNode}
    (hentry : entry ∈ (grouping nodes).k8sNodeGroups) : ∃ node ∈ appNodes nodes, ∃ name,
      node.k8sNodeNames.head? = some name ∧ entry.1 = "k8s-node-" ++ name := by
  have hkey : entry.1 ∈ (grouping nodes).k8sNodeGroups.map (·.1) := List.mem_map_of_mem hentry
  rw [grouping_eq, mem_keys_pushAll] at hkey
  obtain ⟨e, he, hkey⟩ := List.mem_map.mp (hkey.resolve_left List.not_mem_nil)
  obtain ⟨node, hnode, hhost⟩ := List.mem_filterMap.mp he
  obtain ⟨name, hname, rfl⟩ := Option.map_eq_some_iff.mp hhost
  exact ⟨node, hnode, name, hname, hkey.symm⟩

/-- All are placed if what is shown is hosted. -/
theorem placedNodes_perm (h : Hosted nodes) : List.Perm (placedNodes nodes) nodes := by
  have hall : (grouping nodes).k8sNodeGroups.filter
      (·.1 ∈ (k8sRow nodes (grouping nodes).k8sNodeGroups).map (·.id)) =
        (grouping nodes).k8sNodeGroups := by
    refine List.filter_eq_self.mpr fun entry hentry => decide_eq_true ?_
    obtain ⟨node, hnode, name, hname, hkey⟩ := exists_of_group hentry
    obtain ⟨hmem, htype⟩ := mem_appNodes.mp hnode
    obtain ⟨k8s, hk8s, hk8sType, hid⟩ := h node hmem htype name hname
    exact List.mem_map.mpr ⟨k8s, mem_k8sRow hk8s hk8sType, hid.trans hkey.symm⟩
  rw [placedNodes, hall, List.append_assoc]
  exact ((k8sRow_perm nodes _).append (grouping_perm nodes)).trans (appNodes_perm nodes)

/-- A node that is placed is hosted. -/
theorem hosted_of_mem {node : TopologyNode} {name : String} (h : node ∈ placedNodes nodes)
    (htype : node.data.type ≠ .k8sNode) (hname : node.k8sNodeNames.head? = some name) :
    ∃ k8s ∈ nodes, k8s.data.type = .k8sNode ∧ k8s.id = "k8s-node-" ++ name := by
  rcases List.mem_append.mp h with h | h
  · rcases List.mem_append.mp h with h | h
    · exact absurd (mem_of_mem_k8sRow h).2 htype
    · obtain ⟨entry, hentry, hnode⟩ := List.mem_flatMap.mp h
      obtain ⟨hentry, hid⟩ := List.mem_filter.mp hentry
      obtain ⟨k8s, hk8s, hid⟩ := List.mem_map.mp (of_decide_eq_true hid)
      have hhost := hostEntry_of_mem_group hentry hnode
      rw [hostEntry, hname] at hhost
      obtain ⟨hkey, -⟩ := Prod.mk.inj (Option.some.inj hhost)
      obtain ⟨hmem, hk8sType⟩ := mem_of_mem_k8sRow hk8s
      exact ⟨k8s, hmem, hk8sType, hid.trans hkey.symm⟩
  · rw [grouping_eq] at h
    have hnone := of_decide_eq_true (List.mem_filter.mp h).2
    rw [hnone] at hname
    cases hname

/-- Every node is placed once just if what is shown is hosted. -/
theorem layoutedNodes_perm_iff (hplain : ∀ node ∈ nodes, node.unplaced = node) :
    List.Perm ((layoutedNodes nodes).map (·.unplaced)) nodes ↔ Hosted nodes := by
  have hmem : ∀ node ∈ placedNodes nodes, node ∈ nodes := by
    intro node hnode
    rcases List.mem_append.mp hnode with hnode | hnode
    · rcases List.mem_append.mp hnode with hnode | hnode
      · exact (mem_of_mem_k8sRow hnode).1
      · obtain ⟨entry, hentry, hnode⟩ := List.mem_flatMap.mp hnode
        exact (mem_appNodes.mp (mem_group_or_orphan.mpr
          (.inl ⟨entry, (List.mem_filter.mp hentry).1, hnode⟩))).1
    · exact (mem_appNodes.mp (mem_group_or_orphan.mpr (.inr hnode))).1
  have hunplaced : (placedNodes nodes).map (·.unplaced) = placedNodes nodes :=
    (List.map_congr_left fun node hnode => hplain node (hmem node hnode)).trans (List.map_id _)
  rw [map_unplaced_layoutedNodes, hunplaced]
  refine ⟨fun hperm node hnode htype name hname => ?_, placedNodes_perm⟩
  exact hosted_of_mem (hperm.mem_iff.mpr hnode) htype hname

/-! ## What the page shows -/

theorem unplaced_of_mem {input : BuildEnhancedGraphInput} {node : TopologyNode}
    (h : node ∈ (buildTopologyGraph input).nodes) : node.unplaced = node := by
  rcases mem_nodes.mp h with ⟨server, -, rfl⟩ | ⟨proxy, -, rfl⟩ | ⟨k8s, -, name, -, rfl⟩ <;> rfl

/-- Nothing is lost and nothing overlaps just if what is shown is hosted. -/
theorem topologyCanvas_exact (toLowerCase : String → String) (input : BuildEnhancedGraphInput)
    (filters : TopologyFilters) :
    List.Perm ((topologyCanvas toLowerCase (buildTopologyGraph input) filters).nodes.map
        (·.unplaced)) (filterNodes toLowerCase (buildTopologyGraph input).nodes filters) ∧
      (topologyCanvas toLowerCase (buildTopologyGraph input) filters).nodes.Pairwise Spaced ↔
    Hosted (filterNodes toLowerCase (buildTopologyGraph input).nodes filters) := by
  have hplain : ∀ node ∈ filterNodes toLowerCase (buildTopologyGraph input).nodes filters,
      node.unplaced = node := fun node hnode => unplaced_of_mem (List.mem_filter.mp hnode).1
  refine ⟨fun h => (layoutedNodes_perm_iff hplain).mp h.1, fun h => ⟨?_, ?_⟩⟩
  · exact (layoutedNodes_perm_iff hplain).mpr h
  · exact layoutedNodes_spaced _

/-- Without filters nothing is lost but what is on Kubernetes nodes that are not listed. -/
theorem hosted_of_unfiltered {toLowerCase : String → String} {input : BuildEnhancedGraphInput}
    {filters : TopologyFilters} (hshow : filters.showK8sNodes = true)
    (hsearch : filters.searchQuery = "") (hstatus : filters.filterByStatus = none)
    (hlisted : ∀ node ∈ (buildTopologyGraph input).nodes, ∀ name,
      node.k8sNodeNames.head? = some name → name ∈ input.nodeNames) :
    Hosted (filterNodes toLowerCase (buildTopologyGraph input).nodes filters) := by
  intro node hnode _ name hname
  obtain ⟨k8s, hk8s, hgiven⟩ :=
    List.mem_filterMap.mp (hlisted node (List.mem_filter.mp hnode).1 name hname)
  refine ⟨input.k8sNode k8s name, ?_, rfl, rfl⟩
  refine List.mem_filter.mpr ⟨mem_nodes.mpr (.inr (.inr ⟨k8s, hk8s, name, hgiven, rfl⟩)), ?_⟩
  simp [BuildEnhancedGraphInput.k8sNode, BuildEnhancedGraphInput.pushNode, hshow, hsearch, hstatus]

/-- One server on one Kubernetes node. -/
def hostedLobby : BuildEnhancedGraphInput where
  servers := [⟨"lobby"⟩]
  proxies := []
  serverPods := [("lobby", [⟨"lobby-0", "Running", "1/1", some "worker"⟩])]
  proxyPods := []
  k8sNodes := [⟨some "worker", "Ready"⟩]

/-- Hiding the Kubernetes nodes hides the server too. -/
theorem hostedLobby_lost : ¬ ∀ (toLowerCase : String → String) (input : BuildEnhancedGraphInput)
    (filters : TopologyFilters),
    List.Perm ((topologyCanvas toLowerCase (buildTopologyGraph input) filters).nodes.map
        (·.unplaced)) (filterNodes toLowerCase (buildTopologyGraph input).nodes filters) ∧
      (topologyCanvas toLowerCase (buildTopologyGraph input) filters).nodes.Pairwise Spaced := by
  intro h
  have hlength := (h id hostedLobby { showK8sNodes := false }).1.length_eq
  revert hlength
  decide +kernel

end Minikura.Web.Topology
