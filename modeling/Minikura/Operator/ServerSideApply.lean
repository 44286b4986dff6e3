import Minikura.Data.ThreeWay
import Minikura.Operator.Controller

/-!
# Server-side apply

The API server in more detail: an apply sets the fields that are sent, takes out those that the
operator sent last time and does not send now, and keeps the rest. What a Service is allocated
is filled in where it is missing. A write that changes nothing is not made.

## Main definitions

* `Object.serverSideApply` — what an apply makes of an object.
* `Allocator`, `Allocator.Documented` — the allocation of addresses and node ports.
* `Managed`, `serve` — the state of this API server, and its answers.

## Main results

* `Generated.atRest_of_apply` — what was applied is at rest: applied again, nothing is written.
-/

namespace Minikura.Operator
open Concurrency

/-! ## Merging -/

def ServicePort.key (p : ServicePort) : Int × String := (p.port, p.protocol)

/-- A node port that is not sent is kept. -/
def ServicePort.over (old : List ServicePort) (p : ServicePort) : ServicePort :=
  if p.nodePort ≠ 0 then p
  else { p with nodePort := ((old.find? fun q => q.key = p.key).map (·.nodePort)).getD 0 }

namespace ServiceSpec

/-- A Service that has no node ports loses those it had. -/
def dropNodePorts (spec : ServiceSpec) : ServiceSpec :=
  if spec.type = "ClusterIP" then
    { spec with ports := spec.ports.map fun p => { p with nodePort := 0 } }
  else spec

def merged (old : ServiceSpec) (last : List ServicePort) (new : ServiceSpec) : ServiceSpec where
  selector := new.selector
  ports := mergeKeyed ServicePort.key old.ports last (new.ports.map (ServicePort.over old.ports))
  type := new.type
  clusterIP := if new.clusterIP = "" then old.clusterIP else new.clusterIP
  clusterIPs := if new.clusterIPs = [] then old.clusterIPs else new.clusterIPs
  ipFamilies := if new.ipFamilies = [] then old.ipFamilies else new.ipFamilies
  ipFamilyPolicy := new.ipFamilyPolicy.or old.ipFamilyPolicy

end ServiceSpec

def WorkloadSpec.merged (old : WorkloadSpec) (last : Option WorkloadSpec) (new : WorkloadSpec) :
    WorkloadSpec where
  replicas := new.replicas
  selector := new.selector
  podLabels := threeWay old.podLabels ((last.map (·.podLabels)).getD []) new.podLabels
  env := mergeKeyed EnvVar.name old.env ((last.map (·.env)).getD []) new.env
  storage := new.storage.or old.storage

/-- The status is not touched. -/
def Body.merged : {kind : ObjectKind} → (old : Body kind) → (last : Option (Body kind)) →
    (new : Body kind) → Body kind
  | .configMap, old, last, new => threeWay old (last.getD []) new
  | .service, old, last, new =>
    { old with
      spec := (old.spec.merged ((last.map (·.spec.ports)).getD []) new.spec).dropNodePorts }
  | .deployment, old, last, new =>
    { old with spec := old.spec.merged (last.map (·.spec)) new.spec }
  | .statefulSet, old, last, new =>
    { old with spec := old.spec.merged (last.map (·.spec)) new.spec }

/-- An object without content, which one that is not there is taken for. -/
def Body.blank : (kind : ObjectKind) → Body kind
  | .configMap => []
  | .service => { spec := { selector := [], ports := [], type := "" } }
  | .deployment | .statefulSet =>
    { spec := { replicas := 0, selector := [], podLabels := [], env := [] } }

namespace Object

variable {kind : ObjectKind}

def blank (kind : ObjectKind) : Object kind := { labels := [], body := Body.blank kind }

def serverSideApply (old : Object kind) (last : Option (Object kind)) (new : Object kind) :
    Object kind where
  labels := threeWay old.labels ((last.map (·.labels)).getD []) new.labels
  controller := new.controller.or old.controller
  body := Body.merged old.body (last.map (·.body)) new.body

end Object

/-! ## Allocation -/

/-- What the API server makes of the spec of a Service that is to be stored under a key. -/
abbrev Allocator := Cluster → ObjectKey → ServiceSpec → Except Error ServiceSpec

structure ServicePort.FilledBy (type : String) (p q : ServicePort) : Prop where
  same : q = { p with nodePort := q.nodePort }
  nodePort : p.nodePort ≠ 0 ∨ type = "ClusterIP" → q.nodePort = p.nodePort

namespace ServiceSpec

/-- Only what is missing is filled in. -/
structure FilledBy (spec spec' : ServiceSpec) : Prop where
  selector : spec'.selector = spec.selector
  type : spec'.type = spec.type
  clusterIP : spec.clusterIP ≠ "" → spec'.clusterIP = spec.clusterIP
  clusterIPs : spec.clusterIPs ≠ [] → spec'.clusterIPs = spec.clusterIPs
  ipFamilies : spec.ipFamilies ≠ [] → spec'.ipFamilies = spec.ipFamilies
  ipFamilyPolicy : spec.ipFamilyPolicy ≠ none → spec'.ipFamilyPolicy = spec.ipFamilyPolicy
  ports : List.Forall₂ (ServicePort.FilledBy spec.type) spec.ports spec'.ports

/-- Nothing is missing, and the names of the ports are distinct. -/
structure Complete (spec : ServiceSpec) : Prop where
  clusterIP : spec.clusterIP ≠ ""
  clusterIPs : spec.clusterIPs ≠ []
  ipFamilies : spec.ipFamilies ≠ []
  ipFamilyPolicy : spec.ipFamilyPolicy ≠ none
  nodePorts : spec.type ≠ "ClusterIP" → ∀ p ∈ spec.ports, p.nodePort ≠ 0
  names : (spec.ports.map (·.name)).Nodup

end ServiceSpec

/-- What the documentation says about the allocation. -/
structure Allocator.Documented (allocate : Allocator) : Prop where
  /-- Only missing values are allocated. -/
  fills : ∀ s key spec spec', allocate s key spec = .ok spec' → spec.FilledBy spec'
  /-- All missing values are allocated, and ports of one name are rejected. -/
  complete : ∀ s key spec spec', allocate s key spec = .ok spec' → spec'.Complete
  /-- A Service that has all is stored again as it is. -/
  unchanged : ∀ (s : Cluster) ns name (svc : Object .service),
    s.objects.lookup ⟨.service, ns, name⟩ = some svc → svc.body.spec.Complete →
      allocate s ⟨.service, ns, name⟩ svc.body.spec = .ok svc.body.spec

def Object.fillIn (allocate : ServiceSpec → Except Error ServiceSpec) :
    {kind : ObjectKind} → Object kind → Except Error (Object kind)
  | .service, obj => do
    let spec ← allocate obj.body.spec
    return { obj with body := { obj.body with spec := spec } }
  | .configMap, obj | .deployment, obj | .statefulSet, obj => .ok obj

/-! ## The API server -/

instance : {kind : ObjectKind} → DecidableEq (Body kind)
  | .configMap => inferInstanceAs (DecidableEq Labels)
  | .service => inferInstanceAs (DecidableEq Service)
  | .deployment => inferInstanceAs (DecidableEq Workload)
  | .statefulSet => inferInstanceAs (DecidableEq Workload)

deriving instance DecidableEq for Object

/-- The cluster, with what the operator applied last to each object. -/
structure Managed where
  cluster : Cluster
  applied : AList fun key : ObjectKey => Object key.kind

/-- Store an object that is not there or is another. -/
def Cluster.put (s : Cluster) (key : ObjectKey) (obj : Object key.kind) : Cluster :=
  if s.objects.lookup key = some obj then s else { s with objects := s.objects.insert key obj }

variable (allocate : Allocator)

/-- What an apply stores. -/
def Managed.result (s : Managed) (key : ObjectKey) (new : Object key.kind) :
    Except Error (Object key.kind) :=
  let old := (s.cluster.objects.lookup key).getD (.blank key.kind)
  if old.accepts new then
    (old.serverSideApply (s.applied.lookup key) new).fillIn (allocate s.cluster key)
  else .error secondControllerError

def serve : (c : Call) → Managed → Settled Error Answer c × Managed
  | .apply key new, s =>
    match s.result allocate key new with
    | .error e => (.error e, s)
    | .ok obj => (.ok (), { cluster := s.cluster.put key obj, applied := s.applied.insert key new })
  | .delete key, s =>
    let answer := handle (.delete key) s.cluster
    (answer.1, { cluster := answer.2, applied := s.applied.erase key })
  | .patchServerStatus key patch, s =>
    match s.cluster.servers.lookup key with
    | none => (.error (notFoundError key), s)
    | some mc =>
      let status := .ofDocument (patch.apply mc.status.document)
      (.ok (), if status = mc.status then s else
        { s with cluster.servers := s.cluster.servers.insert key { mc with status := status } })
  | .patchProxyStatus key patch, s =>
    match s.cluster.proxies.lookup key with
    | none => (.error (notFoundError key), s)
    | some rp =>
      let status := .ofDocument (patch.apply rp.status.document)
      (.ok (), if status = rp.status then s else
        { s with cluster.proxies := s.cluster.proxies.insert key { rp with status := status } })
  | c, s => ((handle c s.cluster).1, { s with cluster := (handle c s.cluster).2 })

/-! ## Ports -/

namespace ServicePort.FilledBy

variable {type : String} {p q r : ServicePort}

theorem refl (type : String) (p : ServicePort) : p.FilledBy type p := ⟨rfl, fun _ => rfl⟩

theorem key (h : p.FilledBy type q) : q.key = p.key := by
  rw [h.same]
  rfl

theorem eq_of_nodePort (h : p.FilledBy type q) : ({ p with nodePort := q.nodePort } :
    ServicePort) = q :=
  h.same.symm

end ServicePort.FilledBy

theorem map_eq_of_forall₂ {α β : Type} {f : α → β} {R : α → α → Prop} {l l' : List α}
    (h : List.Forall₂ R l l') (hf : ∀ a b, R a b → f b = f a) : l'.map f = l.map f := by
  induction h with
  | nil => rfl
  | cons hab _ ih => rw [List.map_cons, List.map_cons, hf _ _ hab, ih]

theorem forall_mem_of_forall₂ {α β : Type} {R : α → β → Prop} {P : β → Prop} {l : List α}
    {l' : List β} (h : List.Forall₂ R l l') (hP : ∀ a b, R a b → P b) : ∀ b ∈ l', P b := by
  induction h with
  | nil => exact fun _ hb => absurd hb List.not_mem_nil
  | cons hab _ ih => exact List.forall_mem_cons.mpr ⟨hP _ _ hab, ih⟩

/-- A list whose elements keep their keys is searched alike. -/
theorem find?_forall₂ {α κ : Type} [DecidableEq κ] {key : α → κ} {R : α → α → Prop}
    {l l' : List α} (h : List.Forall₂ R l l') (hkey : ∀ a b, R a b → key b = key a) {k : κ} {a : α}
    (ha : (l.find? fun a => key a = k) = some a) :
    ∃ b, (l'.find? fun b => key b = k) = some b ∧ R a b := by
  induction h with
  | nil => cases ha
  | @cons c d l l' hcd _ ih =>
    by_cases hc : key c = k
    · rw [List.find?_cons_of_pos (by simpa using hc), Option.some.injEq] at ha
      obtain rfl := ha
      exact ⟨d, List.find?_cons_of_pos (by simpa [hkey c d hcd] using hc), hcd⟩
    · rw [List.find?_cons_of_neg (by simpa using hc)] at ha
      obtain ⟨b, hb, hab⟩ := ih ha
      exact ⟨b, (List.find?_cons_of_neg (by simpa [hkey c d hcd] using hc)).trans hb, hab⟩

namespace ServiceSpec

/-- The part of `preserve` that concerns one port. -/
def preservePort (current desired : ServiceSpec) (p : ServicePort) : ServicePort :=
  if desired.type = "ClusterIP" ∨ p.nodePort ≠ 0 then p
  else
    match current.ports.find? fun q => q.name = p.name && q.protocol = p.protocol with
    | some q => { p with nodePort := q.nodePort }
    | none => p

theorem ports_preserve (current desired : ServiceSpec) : (current.preserve desired).ports =
    desired.ports.map (preservePort current desired) := by
  by_cases htype : desired.type = "ClusterIP"
  · rw [preserve, if_pos htype]
    exact (List.map_id _).symm.trans (List.map_congr_left fun p _ => (if_pos (.inl htype)).symm)
  · rw [preserve, if_neg htype]
    refine List.map_congr_left fun p _ => ?_
    by_cases hp : p.nodePort ≠ 0
    · exact (if_pos hp).trans (if_pos (.inr hp)).symm
    · exact (if_neg hp).trans (if_neg (not_or.mpr ⟨htype, hp⟩)).symm

theorem filledBy_preservePort (current desired : ServiceSpec) (p : ServicePort) :
    p.FilledBy desired.type (preservePort current desired p) := by
  unfold preservePort
  split_ifs with h
  · exact .refl ..
  · have hp : ¬(p.nodePort ≠ 0 ∨ desired.type = "ClusterIP") := fun h' => h h'.symm
    split
    · exact ⟨rfl, fun h' => absurd h' hp⟩
    · exact .refl ..

/-- What is sent for a desired spec, but for the addresses. -/
structure Sends (desired new : ServiceSpec) : Prop where
  selector : new.selector = desired.selector
  type : new.type = desired.type
  ports : List.Forall₂ (ServicePort.FilledBy desired.type) desired.ports new.ports

theorem sends_refl (desired : ServiceSpec) : desired.Sends desired :=
  ⟨rfl, rfl, List.forall₂_same.mpr fun _ _ => .refl ..⟩

theorem sends_preserve (current desired : ServiceSpec) :
    desired.Sends (current.preserve desired) where
  selector := rfl
  type := rfl
  ports := by
    rw [ports_preserve, List.forall₂_map_right_iff]
    exact List.forall₂_same.mpr fun p _ => filledBy_preservePort ..

theorem Sends.keys {desired new : ServiceSpec} (h : desired.Sends new) :
    new.ports.map ServicePort.key = desired.ports.map ServicePort.key := by
  exact map_eq_of_forall₂ h.ports fun _ _ hp => hp.key

/-- The desired ports differ, and node ports are desired only where there are some. -/
structure Proper (desired : ServiceSpec) : Prop where
  ports : (desired.ports.map ServicePort.key).Nodup
  nodePorts : desired.type = "ClusterIP" → ∀ p ∈ desired.ports, p.nodePort = 0

section Fixpoint

variable {old desired new spec : ServiceSpec} {last : List ServicePort} {p : ServicePort}

theorem over_of_nodePort {p : ServicePort} (ports : List ServicePort) (hp : p.nodePort ≠ 0) :
    p.over ports = p :=
  if_pos hp

theorem over_same (ports : List ServicePort) (p : ServicePort) :
    p.over ports = { p with nodePort := (p.over ports).nodePort } := by
  unfold ServicePort.over
  split_ifs <;> rfl

theorem key_over (ports : List ServicePort) (p : ServicePort) : (p.over ports).key = p.key := by
  rw [over_same]
  rfl

/-- What dropping node ports does to a port. -/
structure Drops (type : String) (p q : ServicePort) : Prop where
  same : q = { p with nodePort := q.nodePort }
  kept : type ≠ "ClusterIP" → q = p
  dropped : type = "ClusterIP" → q.nodePort = 0

theorem drops_dropNodePorts (spec : ServiceSpec) :
    List.Forall₂ (Drops spec.type) spec.ports spec.dropNodePorts.ports := by
  unfold dropNodePorts
  split_ifs with h
  · rw [List.forall₂_map_right_iff]
    exact List.forall₂_same.mpr fun p _ => ⟨rfl, fun h' => absurd h h', fun _ => rfl⟩
  · exact List.forall₂_same.mpr fun p _ => ⟨rfl, fun _ => rfl, fun h' => absurd h' h⟩

theorem type_dropNodePorts (spec : ServiceSpec) : spec.dropNodePorts.type = spec.type := by
  unfold dropNodePorts
  split_ifs <;> rfl

theorem selector_dropNodePorts (spec : ServiceSpec) :
    spec.dropNodePorts.selector = spec.selector := by
  unfold dropNodePorts
  split_ifs <;> rfl

/-- Node ports that were dropped are not filled in. -/
theorem dropNodePorts_eq_self {merged : ServiceSpec} (h : merged.dropNodePorts.FilledBy spec) :
    spec.dropNodePorts = spec := by
  unfold dropNodePorts
  split_ifs with htype
  · have hcluster : merged.type = "ClusterIP" :=
      (type_dropNodePorts _).symm.trans (h.type.symm.trans htype)
    have hdropped : ∀ p ∈ merged.dropNodePorts.ports, p.nodePort = 0 :=
      forall_mem_of_forall₂ (drops_dropNodePorts merged) fun _ _ hp => hp.dropped hcluster
    have hzero : ∀ q ∈ spec.ports, q.nodePort = 0 := by
      refine forall_mem_of_forall₂ ((List.forall₂_and_left _ _).mpr ⟨hdropped, h.ports⟩) ?_
      rintro p q ⟨hp, hpq⟩
      rw [hpq.nodePort (.inr ((type_dropNodePorts _).trans hcluster)), hp]
    have hports : spec.ports.map (fun p => { p with nodePort := 0 }) = spec.ports := by
      refine (List.map_congr_left fun q hq => ?_).trans (List.map_id _)
      rw [← hzero q hq]
      rfl
    rw [hports]
  · rfl

theorem Sends.keys_over (h : desired.Sends new) (ports : List ServicePort) :
    (new.ports.map (ServicePort.over ports)).map ServicePort.key =
      desired.ports.map ServicePort.key := by
  rw [List.map_map, ← h.keys]
  exact List.map_congr_left fun p _ => key_over ports p

/-- A desired port is among the ports that are stored, with the node port that was asked
for. -/
theorem find?_stored (hdesired : desired.Proper) (hsends : desired.Sends new)
    (hfilled : (old.merged last new).dropNodePorts.FilledBy spec) (hp : p ∈ desired.ports) :
    ∃ q, (spec.ports.find? fun q => q.key = p.key) = some q ∧ p.FilledBy desired.type q := by
  have htype : (old.merged last new).type = desired.type := hsends.type
  obtain ⟨p', hp', hsent⟩ := find?_forall₂ hsends.ports (fun _ _ h => h.key)
    (find?_of_mem hdesired.ports hp)
  have hmerged : ((old.merged last new).ports.find? fun q => q.key = p.key) =
      some (p'.over old.ports) := by
    rw [← hsent.key, ← key_over old.ports p']
    refine find?_mergeKeyed_of_mem ?_ (List.mem_map_of_mem (List.mem_of_find?_eq_some hp'))
    rw [hsends.keys_over]
    exact hdesired.ports
  obtain ⟨m, hm, hdrops⟩ := find?_forall₂ (drops_dropNodePorts _)
    (fun _ _ h => by rw [h.same]; rfl) hmerged
  obtain ⟨q, hq, hfill⟩ := find?_forall₂ hfilled.ports (fun _ _ h => h.key) hm
  rw [type_dropNodePorts, htype] at hfill
  rw [htype] at hdrops
  refine ⟨q, hq, ?_, fun hasked => ?_⟩
  · rw [hfill.same, hdrops.same, over_same, hsent.same]
  · by_cases hcluster : desired.type = "ClusterIP"
    · rw [hfill.nodePort (.inr hcluster), hdrops.dropped hcluster,
        hdesired.nodePorts hcluster p hp]
    · have hne : p.nodePort ≠ 0 := hasked.resolve_right hcluster
      have hne' : p'.nodePort ≠ 0 := (hsent.nodePort (.inl hne)).symm ▸ hne
      rw [over_of_nodePort _ hne'] at hdrops
      obtain rfl := hdrops.kept hcluster
      rw [hfill.nodePort (.inl hne'), hsent.nodePort (.inl hne)]

/-- A port is found by its name and its protocol. -/
theorem find?_named {q : ServicePort} (hnames : (spec.ports.map (·.name)).Nodup)
    (hq : q ∈ spec.ports) :
    (spec.ports.find? fun r => r.name = q.name && r.protocol = q.protocol) = some q := by
  cases hr : spec.ports.find? fun r => r.name = q.name && r.protocol = q.protocol with
  | none => exact absurd (by simp) (List.find?_eq_none.mp hr q hq)
  | some r =>
    have hrq := List.find?_some hr
    rw [Bool.and_eq_true, decide_eq_true_eq] at hrq
    exact congrArg some
      (List.inj_on_of_nodup_map hnames (List.mem_of_find?_eq_some hr) hq hrq.1)

/-- What is sent for a port that is stored is the port that is stored. -/
theorem over_preservePort {q : ServicePort} (hnames : (spec.ports.map (·.name)).Nodup)
    (hfind : (spec.ports.find? fun q => q.key = p.key) = some q) (hq : p.FilledBy desired.type q) :
    (preservePort spec desired p).over spec.ports = q := by
  have hover : ∀ p' : ServicePort, p'.key = p.key → p'.nodePort = 0 →
      p'.over spec.ports = { p' with nodePort := q.nodePort } := by
    intro p' hkey hzero
    rw [ServicePort.over, if_neg (not_not.mpr hzero), hkey, hfind]
    rfl
  by_cases hport : p.nodePort = 0
  · by_cases hcluster : desired.type = "ClusterIP"
    · rw [preservePort, if_pos (.inl hcluster), hover p rfl hport, hq.eq_of_nodePort]
    · have hnamed : (spec.ports.find? fun r => r.name = p.name && r.protocol = p.protocol) =
          some q := by
        have hsame := find?_named hnames (List.mem_of_find?_eq_some hfind)
        rw [hq.same] at hsame ⊢
        exact hsame
      have hpreserve : preservePort spec desired p = q := by
        rw [preservePort, if_neg (by simp [hcluster, hport]), hnamed]
        exact hq.eq_of_nodePort
      rw [hpreserve]
      by_cases hzero : q.nodePort = 0
      · exact hover q hq.key hzero
      · exact over_of_nodePort _ hzero
  · have hqp : q = p := by
      rw [hq.same, hq.nodePort (.inl hport)]
    rw [preservePort, if_pos (.inr hport), over_of_nodePort _ hport, hqp]

/-- The spec that is stored is the one that the next apply makes of it. -/
theorem merged_eq_self (hdesired : desired.Proper) (hsends : desired.Sends new)
    (hfilled : (old.merged last new).dropNodePorts.FilledBy spec)
    (hnames : (spec.ports.map (·.name)).Nodup) :
    (spec.merged new.ports (spec.preserve desired)).dropNodePorts = spec := by
  have hports : mergeKeyed ServicePort.key spec.ports new.ports
      ((spec.preserve desired).ports.map (ServicePort.over spec.ports)) = spec.ports := by
    refine mergeKeyed_eq_self ?_ fun a ha => ?_
    · rw [(sends_preserve spec desired).keys_over, hsends.keys]
      exact List.Subset.refl _
    · rw [ports_preserve, List.map_map] at ha
      obtain ⟨p, hp, rfl⟩ := List.mem_map.mp ha
      obtain ⟨q, hfind, hq⟩ := find?_stored hdesired hsends hfilled hp
      rw [Function.comp_apply, over_preservePort hnames hfind hq, hq.key]
      exact hfind
  have htype : spec.type = desired.type :=
    hfilled.type.trans ((type_dropNodePorts _).trans hsends.type)
  have hselector : spec.selector = desired.selector :=
    hfilled.selector.trans ((selector_dropNodePorts _).trans hsends.selector)
  have hmerged : spec.merged new.ports (spec.preserve desired) = spec := by
    rw [merged, hports]
    cases spec
    obtain rfl := htype
    obtain rfl := hselector
    simp [preserve]
  rw [hmerged, dropNodePorts_eq_self hfilled]

end Fixpoint

end ServiceSpec

/-! ## Applying again -/

namespace Body

variable {kind : ObjectKind}

/-- A body as the operator generates it: no key occurs twice. -/
def Proper : {kind : ObjectKind} → Body kind → Prop
  | .configMap, data => (data.map (·.1)).Nodup
  | .service, svc => svc.spec.Proper
  | .deployment, w | .statefulSet, w =>
    (w.spec.podLabels.map (·.1)).Nodup ∧ (w.spec.env.map (·.name)).Nodup

/-- A Service has everything that it is allocated. -/
def Complete : {kind : ObjectKind} → Body kind → Prop
  | .service, svc => svc.spec.Complete
  | .configMap, _ | .deployment, _ | .statefulSet, _ => True

end Body

theorem WorkloadSpec.merged_merged {old new : WorkloadSpec} {last : Option WorkloadSpec}
    (hlabels : (new.podLabels.map (·.1)).Nodup) (henv : (new.env.map (·.name)).Nodup) :
    (old.merged last new).merged (some new) new = old.merged last new := by
  have hstorage : new.storage.or (new.storage.or old.storage) = new.storage.or old.storage := by
    cases new.storage <;> rfl
  simp only [merged, Option.map_some, Option.getD_some, threeWay_threeWay hlabels,
    mergeKeyed_mergeKeyed henv, hstorage]

/-- What an apply without allocation makes of a body, another one of the same leaves alone. -/
theorem Body.merged_merged {kind : ObjectKind} (hkind : kind ≠ .service) {old new : Body kind}
    {last : Option (Body kind)} (h : new.Proper) :
    Body.merged (Body.merged old last new) (some new) new = Body.merged old last new := by
  cases kind with
  | configMap => exact threeWay_threeWay h
  | service => exact absurd rfl hkind
  | deployment =>
    exact congrArg (fun spec => { old with spec := spec }) (WorkloadSpec.merged_merged h.1 h.2)
  | statefulSet =>
    exact congrArg (fun spec => { old with spec := spec }) (WorkloadSpec.merged_merged h.1 h.2)

/-! ## What the operator sends -/

namespace Generated

variable (lib : Library) (owner : ObjectMeta)

/-- The object with what its Service was allocated. -/
def preserved : (g : Generated) → Cluster → Object g.key.kind
  | ⟨⟨.service, ns, name⟩, desired⟩, s =>
    match (s.objects.lookup ⟨.service, ns, name⟩ : Option (Object .service)) with
    | none => desired
    | some current =>
      { desired with
        body := { desired.body with
          spec := current.body.spec.preserve desired.body.spec } }
  | ⟨_, desired⟩, _ => desired

/-- What `apply` sends. -/
def sent (g : Generated) (s : Cluster) : Except Error (Object g.key.kind) := do
  let controller ← lib.setControllerReference owner g.object.controller
  return { g.preserved s with controller := some controller }

/-- The object is stored, and to apply it again would leave it as it is. -/
def AtRest (g : Generated) (s : Managed) : Prop :=
  ∃ new obj, g.sent lib owner s.cluster = .ok new ∧ s.cluster.objects.lookup g.key = some obj ∧
    obj.accepts new ∧ obj.serverSideApply (s.applied.lookup g.key) new = obj ∧ obj.body.Complete

/-- An object as the operator generates it. -/
structure Proper (g : Generated) : Prop where
  labels : (g.object.labels.map (·.1)).Nodup
  body : Body.Proper g.object.body

end Generated

section Apply

variable {allocate : Allocator} {lib : Library} {owner : ObjectMeta} {g : Generated}
  {s t : Managed}

theorem labels_preserved (g : Generated) (s : Cluster) :
    (g.preserved s).labels = g.object.labels := by
  obtain ⟨⟨kind, ns, name⟩, desired⟩ := g
  cases kind with
  | service =>
    simp only [Generated.preserved]
    cases s.objects.lookup ⟨.service, ns, name⟩ <;> rfl
  | _ => rfl

theorem controller_preserved (g : Generated) (s : Cluster) :
    (g.preserved s).controller = g.object.controller := by
  obtain ⟨⟨kind, ns, name⟩, desired⟩ := g
  cases kind with
  | service =>
    simp only [Generated.preserved]
    cases s.objects.lookup ⟨.service, ns, name⟩ <;> rfl
  | _ => rfl

theorem serve_get (k : ObjectKey) (s : Managed) :
    serve allocate (.get k) s = ((handle (.get k) s.cluster).1, s) := by
  change (_, { s with cluster := (handle (.get k) s.cluster).2 }) = _
  rw [handle_get]

theorem eval_preserveServiceAllocations (g : Generated) (s : Managed) :
    Async.eval (serve allocate) (preserveServiceAllocations g) s =
      (.ok (g.preserved s.cluster), s) := by
  obtain ⟨⟨kind, ns, name⟩, desired⟩ := g
  cases kind with
  | service =>
    simp only [preserveServiceAllocations, Generated.preserved, Async.eval_bind,
      Async.eval_attempt, await, Async.eval_await, serve_get, handle]
    cases hlookup : s.cluster.objects.lookup ⟨.service, ns, name⟩ <;> rfl
  | _ => rfl

/-- `apply` comes down to one call. -/
theorem eval_apply (g : Generated) (s : Managed) :
    Async.eval (serve allocate) (apply lib owner g) s = match g.sent lib owner s.cluster with
      | .error e => (.error e, s)
      | .ok new => serve allocate (.apply g.key new) s := by
  simp only [apply, Async.eval_bind, eval_preserveServiceAllocations, controller_preserved,
    Generated.sent]
  cases lib.setControllerReference owner g.object.controller <;> rfl

theorem preserved_of_ne (hkind : g.key.kind ≠ .service) (s : Cluster) :
    g.preserved s = g.object := by
  obtain ⟨⟨kind, ns, name⟩, desired⟩ := g
  cases kind with
  | service => exact absurd rfl hkind
  | _ => rfl

theorem fillIn_of_ne {kind : ObjectKind} (hkind : kind ≠ .service)
    (f : ServiceSpec → Except Error ServiceSpec) (obj : Object kind) : obj.fillIn f = .ok obj := by
  cases kind with
  | service => exact absurd rfl hkind
  | _ => rfl

theorem complete_of_ne {kind : ObjectKind} (hkind : kind ≠ .service) (body : Body kind) :
    body.Complete := by
  cases kind with
  | service => exact absurd rfl hkind
  | _ => trivial

theorem fillIn_service {f : ServiceSpec → Except Error ServiceSpec} {obj obj' : Object .service}
    (h : obj.fillIn f = .ok obj') : ∃ spec, f obj.body.spec = .ok spec ∧
      obj' = { obj with body := { obj.body with spec := spec } } := by
  simp only [Object.fillIn] at h
  cases hf : f obj.body.spec with
  | error e =>
    rw [hf] at h
    cases h
  | ok spec =>
    rw [hf] at h
    exact ⟨spec, rfl, (Except.ok.inj h).symm⟩

theorem Object.serverSideApply_twice {kind : ObjectKind} (hkind : kind ≠ .service)
    {old new : Object kind} {last : Option (Object kind)}
    (hlabels : (new.labels.map (·.1)).Nodup) (hbody : new.body.Proper) :
    (old.serverSideApply last new).serverSideApply (some new) new =
      old.serverSideApply last new := by
  have hcontroller : new.controller.or (new.controller.or old.controller) =
      new.controller.or old.controller := by
    cases new.controller <;> rfl
  simp only [serverSideApply, Option.map_some, Option.getD_some, threeWay_threeWay hlabels,
    Body.merged_merged hkind hbody, hcontroller]

@[simp] theorem lookup_put (s : Cluster) (k : ObjectKey) (obj : Object k.kind) :
    (s.put k obj).objects.lookup k = some obj := by
  unfold Cluster.put
  split_ifs with h
  · exact h
  · exact AList.lookup_insert _

theorem lookup_put_ne (s : Cluster) {k l : ObjectKey} (obj : Object k.kind) (h : l ≠ k) :
    (s.put k obj).objects.lookup l = s.objects.lookup l := by
  unfold Cluster.put
  split_ifs
  · rfl
  · exact AList.lookup_insert_ne h

theorem resources_put (s : Cluster) (k : ObjectKey) (obj : Object k.kind) :
    (s.put k obj).servers = s.servers ∧ (s.put k obj).proxies = s.proxies := by
  unfold Cluster.put
  split_ifs <;> exact ⟨rfl, rfl⟩

/-- What was stored for what was sent. -/
theorem eval_apply_ok (h : Async.eval (serve allocate) (apply lib owner g) s = (.ok (), t)) :
    ∃ new obj, g.sent lib owner s.cluster = .ok new ∧
      s.result allocate g.key new = .ok obj ∧
      t = { cluster := s.cluster.put g.key obj, applied := s.applied.insert g.key new } := by
  rw [eval_apply] at h
  cases hsent : g.sent lib owner s.cluster with
  | error e =>
    rw [hsent] at h
    cases h
  | ok new =>
    rw [hsent] at h
    simp only [serve] at h
    cases hresult : s.result allocate g.key new with
    | error e =>
      rw [hresult] at h
      cases h
    | ok obj =>
      rw [hresult] at h
      exact ⟨new, obj, rfl, hresult, (congrArg Prod.snd h).symm⟩

theorem sent_ok {new : Object g.key.kind} {s : Cluster} (h : g.sent lib owner s = .ok new) :
    ∃ c, lib.setControllerReference owner g.object.controller = .ok c ∧
      new = { g.preserved s with controller := some c } := by
  simp only [Generated.sent] at h
  cases hset : lib.setControllerReference owner g.object.controller with
  | error e =>
    rw [hset] at h
    cases h
  | ok c =>
    rw [hset] at h
    exact ⟨c, rfl, (Except.ok.inj h).symm⟩

theorem sent_of_ok {c : String} (h : lib.setControllerReference owner g.object.controller = .ok c)
    (s : Cluster) : g.sent lib owner s = .ok { g.preserved s with controller := some c } := by
  rw [Generated.sent, h]
  rfl

theorem accepts_self {kind : ObjectKind} {old new : Object kind} {c : String}
    (hold : old.controller = some c) (hnew : new.controller = some c) : old.accepts new := by
  simp [Object.accepts, hold, hnew]

theorem sends_preserved {ns name : String} (desired : Object .service) (s : Cluster) :
    desired.body.spec.Sends
      (Generated.preserved ⟨⟨.service, ns, name⟩, desired⟩ s : Object .service).body.spec := by
  simp only [Generated.preserved]
  cases (s.objects.lookup ⟨.service, ns, name⟩ : Option (Object .service)) with
  | none => exact ServiceSpec.sends_refl _
  | some current => exact ServiceSpec.sends_preserve _ _

/-- A Service that was applied is sent again as it is stored. -/
theorem applied_service {ns name c : String} {desired old obj : Object .service}
    {last : Option (Object .service)} {s s' : Cluster} (halloc : allocate.Documented)
    (hg : Generated.Proper ⟨⟨.service, ns, name⟩, desired⟩)
    (hresult : (old.serverSideApply last
      { (Generated.preserved ⟨⟨.service, ns, name⟩, desired⟩ s : Object .service) with
        controller := some c }).fillIn (allocate s ⟨.service, ns, name⟩) = .ok obj)
    (hstored : s'.objects.lookup ⟨.service, ns, name⟩ = some obj) :
    let again : Object .service :=
      { (Generated.preserved ⟨⟨.service, ns, name⟩, desired⟩ s' : Object .service) with
        controller := some c }
    obj.accepts again ∧ obj.serverSideApply (some
      { (Generated.preserved ⟨⟨.service, ns, name⟩, desired⟩ s : Object .service) with
        controller := some c }) again = obj ∧ obj.body.Complete := by
  obtain ⟨spec, hspec, rfl⟩ := fillIn_service hresult
  have hcomplete := halloc.complete _ _ _ _ hspec
  have hfixed := ServiceSpec.merged_eq_self hg.body (sends_preserved desired s)
    (halloc.fills _ _ _ _ hspec) hcomplete.names
  have hsame : (Generated.preserved ⟨⟨.service, ns, name⟩, desired⟩ s').labels =
      (Generated.preserved ⟨⟨.service, ns, name⟩, desired⟩ s).labels :=
    (labels_preserved _ _).trans (labels_preserved _ _).symm
  have hlabels : ((Generated.preserved ⟨⟨.service, ns, name⟩, desired⟩ s).labels.map
      (·.1)).Nodup := by
    rw [labels_preserved]
    exact hg.labels
  have hagain : (Generated.preserved ⟨⟨.service, ns, name⟩, desired⟩ s' :
      Object .service).body.spec = spec.preserve desired.body.spec := by
    simp only [Generated.preserved, hstored]
  refine ⟨accepts_self rfl rfl, ?_, hcomplete⟩
  simp only [Object.serverSideApply, Body.merged, Option.map_some, Option.getD_some,
    Option.some_or, hsame, hagain, hfixed, threeWay_threeWay hlabels]

/-- What was applied is at rest. -/
theorem Generated.atRest_of_apply (halloc : allocate.Documented) (hg : g.Proper)
    (h : Async.eval (serve allocate) (apply lib owner g) s = (.ok (), t)) :
    g.AtRest lib owner t := by
  obtain ⟨new, obj, hsent, hresult, rfl⟩ := eval_apply_ok h
  obtain ⟨c, hc, rfl⟩ := sent_ok hsent
  simp only [Managed.result] at hresult
  split_ifs at hresult with haccepts
  refine ⟨_, obj, sent_of_ok hc _, lookup_put .., ?_⟩
  rw [AList.lookup_insert]
  by_cases hkind : g.key.kind = .service
  · obtain ⟨⟨kind, ns, name⟩, desired⟩ := g
    obtain rfl : kind = .service := hkind
    exact applied_service halloc hg hresult (lookup_put ..)
  · rw [fillIn_of_ne hkind] at hresult
    obtain rfl := Except.ok.inj hresult
    rw [preserved_of_ne hkind, preserved_of_ne hkind]
    exact ⟨accepts_self rfl rfl, Object.serverSideApply_twice hkind hg.labels hg.body,
      complete_of_ne hkind _⟩

/-! ## At rest -/

theorem fillIn_of_complete (halloc : allocate.Documented) {obj : Object g.key.kind} {s : Cluster}
    (hstored : s.objects.lookup g.key = some obj) (hcomplete : obj.body.Complete) :
    obj.fillIn (allocate s g.key) = .ok obj := by
  by_cases hkind : g.key.kind = .service
  · obtain ⟨⟨kind, ns, name⟩, desired⟩ := g
    obtain rfl : kind = .service := hkind
    simp only [Object.fillIn, halloc.unchanged s ns name obj hstored hcomplete]
    rfl
  · exact fillIn_of_ne hkind _ obj

/-- An object at rest is not written. -/
theorem Generated.AtRest.eval (halloc : allocate.Documented) (h : g.AtRest lib owner s) :
    ∃ applied, Async.eval (serve allocate) (apply lib owner g) s =
        (.ok (), { cluster := s.cluster, applied := applied }) ∧
      ∀ k, k ≠ g.key → applied.lookup k = s.applied.lookup k := by
  obtain ⟨new, obj, hsent, hstored, haccepts, hmerged, hcomplete⟩ := h
  have hresult : s.result allocate g.key new = .ok obj := by
    rw [Managed.result, hstored, Option.getD_some, if_pos haccepts, hmerged]
    exact fillIn_of_complete halloc hstored hcomplete
  refine ⟨s.applied.insert g.key new, ?_, fun k hk => AList.lookup_insert_ne hk⟩
  rw [eval_apply, hsent]
  simp only [serve, hresult, Cluster.put, hstored, if_true]

/-- The same object is stored under a key, and the same was applied to it last. -/
structure Managed.SameAt (s t : Managed) (k : ObjectKey) : Prop where
  stored : t.cluster.objects.lookup k = s.cluster.objects.lookup k
  applied : t.applied.lookup k = s.applied.lookup k

theorem preserved_congr {s t : Cluster} (h : t.objects.lookup g.key = s.objects.lookup g.key) :
    g.preserved t = g.preserved s := by
  obtain ⟨⟨kind, ns, name⟩, desired⟩ := g
  cases kind with
  | service => simp only [Generated.preserved, h]
  | _ => rfl

theorem Generated.AtRest.congr (h : g.AtRest lib owner s) (hst : s.SameAt t g.key) :
    g.AtRest lib owner t := by
  obtain ⟨new, obj, hsent, hstored, haccepts, hmerged, hcomplete⟩ := h
  refine ⟨new, obj, ?_, hst.stored.trans hstored, haccepts, ?_, hcomplete⟩
  · rw [← hsent, Generated.sent, Generated.sent, preserved_congr hst.stored]
  · rw [hst.applied]
    exact hmerged

/-- What an apply leaves alone. -/
theorem frame_of_apply (h : Async.eval (serve allocate) (apply lib owner g) s = (.ok (), t)) :
    (∀ k, k ≠ g.key → s.SameAt t k) ∧ t.cluster.servers = s.cluster.servers ∧
      t.cluster.proxies = s.cluster.proxies := by
  obtain ⟨new, obj, -, -, rfl⟩ := eval_apply_ok h
  exact ⟨fun k hk => ⟨lookup_put_ne _ _ hk, AList.lookup_insert_ne hk⟩, resources_put ..⟩

end Apply

/-! ## An allocator -/

/-- One address and one node port, for clusters with no more than one Service. -/
def ServiceSpec.filled (spec : ServiceSpec) : ServiceSpec :=
  { spec with
    clusterIP := if spec.clusterIP = "" then "10.96.0.10" else spec.clusterIP
    clusterIPs := if spec.clusterIPs = [] then ["10.96.0.10"] else spec.clusterIPs
    ipFamilies := if spec.ipFamilies = [] then ["IPv4"] else spec.ipFamilies
    ipFamilyPolicy := some (spec.ipFamilyPolicy.getD "SingleStack")
    ports := spec.ports.map fun p =>
      if p.nodePort ≠ 0 ∨ spec.type = "ClusterIP" then p else { p with nodePort := 30000 } }

def plainAllocator : Allocator := fun _ _ spec =>
  if (spec.ports.map (·.name)).Nodup then .ok spec.filled
  else .error { message := "spec.ports: Duplicate value" }

theorem ServiceSpec.filledBy_filled (spec : ServiceSpec) : spec.FilledBy spec.filled where
  selector := rfl
  type := rfl
  clusterIP h := if_neg h
  clusterIPs h := if_neg h
  ipFamilies h := if_neg h
  ipFamilyPolicy h := by
    cases hp : spec.ipFamilyPolicy with
    | none => exact absurd hp h
    | some policy => simp [filled, hp]
  ports := by
    rw [filled, List.forall₂_map_right_iff]
    refine List.forall₂_same.mpr fun p _ => ⟨?_, fun h => by rw [if_pos h]⟩
    split_ifs <;> rfl

theorem ite_eq_ne {α : Type} [DecidableEq α] {v d x : α} (h : d ≠ x) :
    (if v = x then d else v) ≠ x := by
  split_ifs with hv
  · exact h
  · exact hv

theorem ServiceSpec.complete_filled {spec : ServiceSpec}
    (h : (spec.ports.map (·.name)).Nodup) : spec.filled.Complete where
  clusterIP := ite_eq_ne (by decide)
  clusterIPs := ite_eq_ne (by decide)
  ipFamilies := ite_eq_ne (by decide)
  ipFamilyPolicy := Option.some_ne_none _
  nodePorts htype q hq := by
    have hcluster : spec.type ≠ "ClusterIP" := htype
    obtain ⟨p, -, rfl⟩ := List.mem_map.mp hq
    split_ifs with hp
    · exact hp.resolve_right hcluster
    · exact (by decide : (30000 : Int) ≠ 0)
  names := by
    have hnames : spec.filled.ports.map (·.name) = spec.ports.map (·.name) :=
      map_eq_of_forall₂ spec.filledBy_filled.ports fun _ _ hp => by rw [hp.same]
    rwa [hnames]

theorem ServiceSpec.filled_of_complete {spec : ServiceSpec} (h : spec.Complete) :
    spec.filled = spec := by
  have hports : spec.ports.map (fun p =>
      if p.nodePort ≠ 0 ∨ spec.type = "ClusterIP" then p else { p with nodePort := 30000 }) =
        spec.ports := by
    refine (List.map_congr_left fun p hp => if_pos ?_).trans (List.map_id _)
    exact or_iff_not_imp_right.mpr fun htype => h.nodePorts htype p hp
  have hpolicy : some (spec.ipFamilyPolicy.getD "SingleStack") = spec.ipFamilyPolicy := by
    cases hp : spec.ipFamilyPolicy with
    | none => exact absurd hp h.ipFamilyPolicy
    | some policy => rfl
  rw [filled, hports, hpolicy, if_neg h.clusterIP, if_neg h.clusterIPs, if_neg h.ipFamilies]

theorem plainAllocator_documented : plainAllocator.Documented where
  fills s key spec spec' h := by
    simp only [plainAllocator] at h
    split_ifs at h
    exact Except.ok.inj h ▸ spec.filledBy_filled
  complete s key spec spec' h := by
    simp only [plainAllocator] at h
    split_ifs at h with hnames
    exact Except.ok.inj h ▸ ServiceSpec.complete_filled hnames
  unchanged s ns name svc _ hcomplete := by
    rw [plainAllocator, if_pos hcomplete.names, ServiceSpec.filled_of_complete hcomplete]

end Minikura.Operator
