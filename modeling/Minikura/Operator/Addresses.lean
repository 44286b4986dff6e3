import Minikura.Concurrency.Worker
import Minikura.Operator.ServerSideApply

/-!
# The addresses of a Service

The Service of a resource is applied anew by every `Reconcile`, from a spec that may have
changed in any way. What the API server has allocated to it is read back before it is sent, so
that the players keep finding the server.

## Main definitions

* `Exposed` — a resource with a Service, and the `Reconcile` of it.
* `ServiceSpec.Held` — the addresses that were allocated are the same.
* `PortRule` — what may become of an allocated node port.

## Main result

* `addresses_survive` — runs of the controller, its requests failing anywhere and the resource
  edited at any time.
-/

namespace Minikura.Operator
open Concurrency

/-! ## Exposed resources -/

/-- How a spec asks for the Service to be exposed. -/
structure Exposure where
  type : String
  nodePort : Int

def MinecraftServer.exposure (mc : MinecraftServer) : Exposure where
  type := serviceType mc.spec.serviceType "ClusterIP"
  nodePort := mc.spec.nodePort

def ReverseProxyServer.exposure (rp : ReverseProxyServer) : Exposure where
  type := serviceType rp.spec.serviceType "LoadBalancer"
  nodePort := rp.spec.nodePort

/-- A resource with a Service; the type of a proxy is part of the name. -/
inductive Exposed where
  | server (key : NamespacedName)
  | proxy (key : NamespacedName) (type : String)

namespace Exposed

def service : Exposed → NamespacedName
  | server key => ⟨key.ns, serverName key.name⟩
  | proxy key type => ⟨key.ns, proxyName type key.name⟩

def reconcile (lib : Library) : Exposed → Task Unit
  | server key => reconcileMinecraftServer lib key
  | proxy key _ => reconcileReverseProxyServer lib key

/-- The resource, if it is there, is stored under its own name; the type of a proxy is fixed. -/
def Stored : Exposed → Cluster → Prop
  | server key, s => ∀ mc, s.servers.lookup key = some mc → mc.metadata.key = key
  | proxy key type, s =>
    ∀ rp, s.proxies.lookup key = some rp → rp.metadata.key = key ∧ rp.spec.type = type

/-- The exposure in the spec that was read last. -/
def log : Exposed → (c : Call) → Managed → Settled Error Answer c → Option Exposure →
    Option Exposure
  | server key, .getServer k, _, .ok mc, last => if k = key then some mc.exposure else last
  | proxy key _, .getProxy k, _, .ok rp, last => if k = key then some rp.exposure else last
  | _, _, _, _, last => last

end Exposed

/-- The spec of a Service, if the Service exists. -/
def Cluster.service (s : Cluster) (key : NamespacedName) : Option ServiceSpec :=
  (s.objects.lookup ⟨.service, key.ns, key.name⟩ : Option (Object .service)).map (·.body.spec)

/-! ## Addresses and node ports -/

namespace ServiceSpec

/-- The addresses that were allocated are the same. -/
structure Held (old new : ServiceSpec) : Prop where
  clusterIP : old.clusterIP ≠ "" → new.clusterIP = old.clusterIP
  clusterIPs : old.clusterIPs ≠ [] → new.clusterIPs = old.clusterIPs
  ipFamilies : old.ipFamilies ≠ [] → new.ipFamilies = old.ipFamilies
  ipFamilyPolicy : old.ipFamilyPolicy ≠ none → new.ipFamilyPolicy = old.ipFamilyPolicy

/-- The node port of the port that the operator applies, zero if there is none. -/
def nodePort (spec : ServiceSpec) : Int :=
  ((spec.ports.find? fun q => q.name = "minecraft" && q.protocol = "TCP").map
    (·.nodePort)).getD 0

end ServiceSpec

/-- What may become of an allocated node port while a spec of this exposure is reconciled. -/
def PortRule (last : Option Exposure) (old new : Int) : Prop :=
  (∀ e, last = some e → e.type = "NodePort" ∨ e.type = "LoadBalancer") → old ≠ 0 →
    new = old ∨ ∃ e, last = some e ∧ e.type = "NodePort" ∧ e.nodePort ≠ 0 ∧ new = e.nodePort

theorem PortRule.refl (last : Option Exposure) (port : Int) : PortRule last port port :=
  fun _ _ => .inl rfl

namespace ServiceSpec

variable {old new spec m : ServiceSpec} {last : List ServicePort}

theorem Held.refl (spec : ServiceSpec) : spec.Held spec :=
  ⟨fun _ => rfl, fun _ => rfl, fun _ => rfl, fun _ => rfl⟩

theorem Held.trans (h : old.Held m) (h' : m.Held new) : old.Held new where
  clusterIP ho := (h'.clusterIP (h.clusterIP ho ▸ ho)).trans (h.clusterIP ho)
  clusterIPs ho := (h'.clusterIPs (h.clusterIPs ho ▸ ho)).trans (h.clusterIPs ho)
  ipFamilies ho := (h'.ipFamilies (h.ipFamilies ho ▸ ho)).trans (h.ipFamilies ho)
  ipFamilyPolicy ho := (h'.ipFamilyPolicy (h.ipFamilyPolicy ho ▸ ho)).trans (h.ipFamilyPolicy ho)

theorem FilledBy.held (h : old.FilledBy new) : old.Held new :=
  ⟨h.clusterIP, h.clusterIPs, h.ipFamilies, h.ipFamilyPolicy⟩

theorem held_dropNodePorts (spec : ServiceSpec) : spec.Held spec.dropNodePorts := by
  unfold dropNodePorts
  split_ifs
  · exact ⟨fun _ => rfl, fun _ => rfl, fun _ => rfl, fun _ => rfl⟩
  · exact .refl spec

/-- What was read back is what is kept. -/
theorem held_merged (cur desired : ServiceSpec) (last : List ServicePort) :
    cur.Held (cur.merged last (cur.preserve desired)) where
  clusterIP h := if_neg h
  clusterIPs h := if_neg h
  ipFamilies h := if_neg h
  ipFamilyPolicy h := by
    cases hp : cur.ipFamilyPolicy with
    | none => exact absurd hp h
    | some policy => simp [merged, preserve, hp]

/-- The spec of a Service that is generated for an exposure. -/
structure For (e : Exposure) (spec : ServiceSpec) : Prop where
  type : spec.type = e.type
  ports : ∃ port target, spec.ports = [servicePort e.type port target e.nodePort]

theorem nodePort_eq {q : ServicePort} (hnames : (spec.ports.map (·.name)).Nodup)
    (hq : q ∈ spec.ports) (hname : q.name = "minecraft") (hprotocol : q.protocol = "TCP") :
    spec.nodePort = q.nodePort := by
  have hfind := find?_named hnames hq
  rw [hname, hprotocol] at hfind
  rw [nodePort, hfind]
  rfl

/-- The node port that is sent for a Service that has one. -/
theorem nodePort_preservePort {cur desired : ServiceSpec} {e : Exposure} {p : ServicePort}
    {port target : Int} (hp : servicePort e.type port target e.nodePort = p)
    (htype : desired.type = e.type) (hne : e.type ≠ "ClusterIP") (hport : cur.nodePort ≠ 0) :
    (preservePort cur desired p).nodePort = cur.nodePort ∨
      e.type = "NodePort" ∧ e.nodePort ≠ 0 ∧
        (preservePort cur desired p).nodePort = e.nodePort := by
  by_cases hpinned : e.type = "NodePort" ∧ e.nodePort ≠ 0
  · have hnode : p.nodePort = e.nodePort := hp ▸ if_pos (by simp [hpinned])
    rw [preservePort, if_pos (.inr (hnode.symm ▸ hpinned.2))]
    exact .inr ⟨hpinned.1, hpinned.2, hnode⟩
  · have hnode : p.nodePort = 0 := hp ▸ if_neg (by simpa using hpinned)
    have hname : p.name = "minecraft" ∧ p.protocol = "TCP" := by
      subst hp
      exact ⟨rfl, rfl⟩
    rw [preservePort, if_neg (by simp [htype, hne, hnode]), hname.1, hname.2]
    -- the Service has a port of this name, for it has a node port
    unfold nodePort at hport ⊢
    cases hq : cur.ports.find? fun q => q.name = "minecraft" && q.protocol = "TCP" with
    | none => exact absurd (by rw [hq]; rfl) hport
    | some q => exact .inl rfl

/-- A port that is sent with a node port is stored with it. -/
theorem nodePort_of_sent {p : ServicePort} (hports : new.ports = [p]) (hp : p.nodePort ≠ 0)
    (hname : p.name = "minecraft") (hprotocol : p.protocol = "TCP") (htype : new.type ≠ "ClusterIP")
    (hfilled : (old.merged last new).dropNodePorts.FilledBy spec)
    (hnames : (spec.ports.map (·.name)).Nodup) : spec.nodePort = p.nodePort := by
  have hover : new.ports.map (ServicePort.over old.ports) = [p] := by
    rw [hports, List.map_singleton, over_of_nodePort _ hp]
  have hmerged : ((old.merged last new).dropNodePorts.ports.find? fun q => q.key = p.key) =
      some p := by
    have hkept : (old.merged last new).dropNodePorts = old.merged last new := if_neg htype
    rw [hkept]
    refine find?_mergeKeyed_of_mem ?_ ?_
    · rw [hover]
      exact List.nodup_singleton _
    · rw [hover]
      exact List.mem_singleton.mpr rfl
  obtain ⟨q, hq, hpq⟩ := find?_forall₂ hfilled.ports (fun _ _ h => h.key) hmerged
  have hsame : q.nodePort = p.nodePort := hpq.nodePort (.inl hp)
  rw [nodePort_eq hnames (List.mem_of_find?_eq_some hq) (by rw [hpq.same, hname])
    (by rw [hpq.same, hprotocol]), hsame]

theorem portRule_merged {cur desired : ServiceSpec} {e : Exposure} (hdesired : desired.For e)
    (hfilled : (cur.merged last (cur.preserve desired)).dropNodePorts.FilledBy new)
    (hnames : (new.ports.map (·.name)).Nodup) : PortRule (some e) cur.nodePort new.nodePort := by
  intro hexposed hport
  have hne : e.type ≠ "ClusterIP" := by
    rcases hexposed e rfl with h | h <;> simp [h]
  obtain ⟨port, target, hports⟩ := hdesired.ports
  generalize hp : servicePort e.type port target e.nodePort = p at hports
  have hname : p.name = "minecraft" ∧ p.protocol = "TCP" := by
    subst hp
    exact ⟨rfl, rfl⟩
  have hports' : (cur.preserve desired).ports = [preservePort cur desired p] := by
    rw [ports_preserve, hports, List.map_singleton]
  have hrule := nodePort_preservePort hp hdesired.type hne hport
  have hsame := (filledBy_preservePort cur desired p).same
  generalize preservePort cur desired p = sent at hports' hrule hsame
  have hsent : sent.nodePort ≠ 0 := by
    rcases hrule with h | ⟨-, hpinned, h⟩
    · exact h ▸ hport
    · exact h ▸ hpinned
  have hname' : sent.name = "minecraft" ∧ sent.protocol = "TCP" := by
    rw [hsame]
    exact hname
  have htype' : (cur.preserve desired).type ≠ "ClusterIP" := hdesired.type.trans_ne hne
  have hstored : new.nodePort = sent.nodePort :=
    nodePort_of_sent hports' hsent hname'.1 hname'.2 htype' hfilled hnames
  rcases hrule with h | ⟨htype, hpinned, h⟩
  · exact .inl (hstored.trans h)
  · exact .inr ⟨e, rfl, htype, hpinned, hstored.trans h⟩

end ServiceSpec

/-! ## Calls -/

variable {allocate : Allocator} {lib : Library} {key : NamespacedName} {s : Managed}

/-- A Service stays, with its addresses and its node port as the rule says. -/
def Survives (last : Option Exposure) (old new : Option ServiceSpec) : Prop :=
  ∀ spec, old = some spec → ∃ spec', new = some spec' ∧ spec.Held spec' ∧
    PortRule last spec.nodePort spec'.nodePort

theorem Survives.of_eq {last : Option Exposure} {old new : Option ServiceSpec} (h : new = old) :
    Survives last old new :=
  fun spec hspec => ⟨spec, h.trans hspec, .refl spec, .refl last _⟩

theorem resources_serve {c : Call} (hc : c.patchesStatus = false) (s : Managed) :
    (serve allocate c s).2.cluster.servers = s.cluster.servers ∧
      (serve allocate c s).2.cluster.proxies = s.cluster.proxies := by
  cases c with
  | apply k new =>
    simp only [serve]
    cases s.result allocate k new with
    | error e => exact ⟨rfl, rfl⟩
    | ok obj => exact resources_put ..
  | patchServerStatus => cases hc
  | patchProxyStatus => cases hc
  | _ => exact resources_handle hc s.cluster

/-- Of a resource no call touches more than the status. -/
theorem servers_serve (c : Call) {k : NamespacedName} {mc : MinecraftServer}
    (h : (serve allocate c s).2.cluster.servers.lookup k = some mc) :
    ∃ status, s.cluster.servers.lookup k = some { mc with status := status } := by
  cases hc : c.patchesStatus with
  | false => exact ⟨mc.status, (resources_serve hc s).1 ▸ h⟩
  | true =>
    cases c with
    | patchServerStatus l patch =>
      simp only [serve] at h
      cases hl : s.cluster.servers.lookup l with
      | none => exact ⟨mc.status, by rwa [hl] at h⟩
      | some mc' =>
        simp only [hl] at h
        split_ifs at h
        · exact ⟨mc.status, h⟩
        · by_cases hk : k = l
          · subst hk
            obtain rfl := Option.some.inj ((AList.lookup_insert _).symm.trans h)
            exact ⟨mc'.status, hl⟩
          · exact ⟨mc.status, (AList.lookup_insert_ne hk).symm.trans h⟩
    | patchProxyStatus l patch =>
      refine ⟨mc.status, ?_⟩
      simp only [serve] at h
      cases hl : s.cluster.proxies.lookup l with
      | none => rwa [hl] at h
      | some rp =>
        simp only [hl] at h
        split_ifs at h <;> exact h
    | _ => cases hc

theorem proxies_serve (c : Call) {k : NamespacedName} {rp : ReverseProxyServer}
    (h : (serve allocate c s).2.cluster.proxies.lookup k = some rp) :
    ∃ status, s.cluster.proxies.lookup k = some { rp with status := status } := by
  cases hc : c.patchesStatus with
  | false => exact ⟨rp.status, (resources_serve hc s).2 ▸ h⟩
  | true =>
    cases c with
    | patchServerStatus l patch =>
      refine ⟨rp.status, ?_⟩
      simp only [serve] at h
      cases hl : s.cluster.servers.lookup l with
      | none => rwa [hl] at h
      | some mc =>
        simp only [hl] at h
        split_ifs at h <;> exact h
    | patchProxyStatus l patch =>
      simp only [serve] at h
      cases hl : s.cluster.proxies.lookup l with
      | none => exact ⟨rp.status, by rwa [hl] at h⟩
      | some rp' =>
        simp only [hl] at h
        split_ifs at h
        · exact ⟨rp.status, h⟩
        · by_cases hk : k = l
          · subst hk
            obtain rfl := Option.some.inj ((AList.lookup_insert _).symm.trans h)
            exact ⟨rp'.status, hl⟩
          · exact ⟨rp.status, (AList.lookup_insert_ne hk).symm.trans h⟩
    | _ => cases hc

theorem Exposed.stored_serve {t : Exposed} (h : t.Stored s.cluster) (c : Call) :
    t.Stored (serve allocate c s).2.cluster := by
  cases t with
  | server k =>
    intro mc hmc
    obtain ⟨status, hstatus⟩ := servers_serve c hmc
    exact h { mc with status := status } hstatus
  | proxy k type =>
    intro rp hrp
    obtain ⟨status, hstatus⟩ := proxies_serve c hrp
    exact h { rp with status := status } hstatus

/-- The calls that neither fetch the resource of a run nor write the Service. -/
def Call.Spares (key : NamespacedName) : Call → Prop
  | .apply k _ | .delete k => k ≠ ⟨.service, key.ns, key.name⟩
  | .getServer _ | .getProxy _ => False
  | _ => True

theorem service_serve {c : Call} (hc : c.Spares key) (s : Managed) :
    (serve allocate c s).2.cluster.service key = s.cluster.service key := by
  unfold Cluster.service
  cases c with
  | apply k new =>
    simp only [serve]
    cases s.result allocate k new with
    | error e => rfl
    | ok obj => rw [lookup_put_ne _ _ (Ne.symm hc)]
  | delete k =>
    simp only [serve, handle]
    split_ifs
    · rw [AList.lookup_erase_ne (Ne.symm hc)]
    · rfl
  | patchServerStatus l patch =>
    simp only [serve]
    cases s.cluster.servers.lookup l with
    | none => rfl
    | some mc =>
      dsimp only
      split_ifs <;> rfl
  | patchProxyStatus l patch =>
    simp only [serve]
    cases s.cluster.proxies.lookup l with
    | none => rfl
    | some rp =>
      dsimp only
      split_ifs <;> rfl
  | get k => exact congrArg (Cluster.service ·.2.cluster key) (serve_get k s)
  | listServers ns selector => rfl
  | getServer k => exact hc.elim
  | getProxy k => exact hc.elim

theorem serve_getServer (k : NamespacedName) (s : Managed) :
    (serve allocate (.getServer k) s).2 = s :=
  congrArg (fun cluster => { s with cluster := cluster }) (handle_getServer k s.cluster)

theorem serve_getProxy (k : NamespacedName) (s : Managed) :
    (serve allocate (.getProxy k) s).2 = s :=
  congrArg (fun cluster => { s with cluster := cluster }) (handle_getProxy k s.cluster)

theorem found_getServer {k : NamespacedName} {mc : MinecraftServer} {t : Managed}
    (h : serve allocate (.getServer k) s = (.ok mc, t)) : s.cluster.servers.lookup k = some mc := by
  have hanswer := congrArg Prod.fst h
  simp only [serve, handle] at hanswer
  cases hk : s.cluster.servers.lookup k with
  | none =>
    rw [hk] at hanswer
    cases hanswer
  | some mc' =>
    rw [hk] at hanswer
    exact congrArg some (Except.ok.inj hanswer)

theorem found_getProxy {k : NamespacedName} {rp : ReverseProxyServer} {t : Managed}
    (h : serve allocate (.getProxy k) s = (.ok rp, t)) : s.cluster.proxies.lookup k = some rp := by
  have hanswer := congrArg Prod.fst h
  simp only [serve, handle] at hanswer
  cases hk : s.cluster.proxies.lookup k with
  | none =>
    rw [hk] at hanswer
    cases hanswer
  | some rp' =>
    rw [hk] at hanswer
    exact congrArg some (Except.ok.inj hanswer)

theorem found_get {k : ObjectKey} {obj : Object k.kind} {t : Managed}
    (h : serve allocate (.get k) s = (.ok obj, t)) : s.cluster.objects.lookup k = some obj := by
  rw [serve_get] at h
  have hanswer := congrArg Prod.fst h
  simp only [handle] at hanswer
  cases hk : s.cluster.objects.lookup k with
  | none =>
    rw [hk] at hanswer
    cases hanswer
  | some obj' =>
    rw [hk] at hanswer
    exact congrArg some (Except.ok.inj hanswer)

theorem notFound_get {k : ObjectKey} {e : Error} {t : Managed}
    (h : serve allocate (.get k) s = (.error e, t)) : s.cluster.objects.lookup k = none := by
  rw [serve_get] at h
  have hanswer := congrArg Prod.fst h
  simp only [handle] at hanswer
  cases hk : s.cluster.objects.lookup k with
  | none => rfl
  | some obj =>
    rw [hk] at hanswer
    cases hanswer

/-- Applying what was preserved. -/
theorem survives_apply {e : Exposure} {desired : ServiceSpec} {new : Object .service}
    (halloc : allocate.Documented) (hdesired : desired.For e)
    (hnew : ∀ cur, s.cluster.service key = some cur → new.body.spec = cur.preserve desired) :
    Survives (some e) (s.cluster.service key)
      ((serve allocate (.apply ⟨.service, key.ns, key.name⟩ new) s).2.cluster.service key) := by
  simp only [serve]
  cases hresult : s.result allocate ⟨.service, key.ns, key.name⟩ new with
  | error err => exact .of_eq rfl
  | ok obj =>
    intro cur hcur
    obtain ⟨old, hold, rfl⟩ := Option.map_eq_some_iff.mp hcur
    simp only [Managed.result, hold, Option.getD_some] at hresult
    split_ifs at hresult
    obtain ⟨spec, hspec, rfl⟩ := fillIn_service hresult
    have hfilled := halloc.fills _ _ _ _ hspec
    simp only [Object.serverSideApply, Body.merged, hnew _ hcur] at hfilled
    refine ⟨spec, ?_, ?_, ?_⟩
    · rw [Cluster.service, lookup_put]
      rfl
    · exact ((ServiceSpec.held_merged ..).trans (ServiceSpec.held_dropNodePorts _)).trans
        hfilled.held
    · exact ServiceSpec.portRule_merged hdesired hfilled (halloc.complete _ _ _ _ hspec).names

/-! ## The contract of a run -/

/-- Any request may fail, its effect taking place or not; but that something is not found
is the truth. -/
abbrev servingApi (allocate : Allocator) : Handler Call (Settled Error Answer) Managed :=
  (Handler.ofFun (serve allocate)).lossy.restrict fun c s r s' =>
    ∀ e, r = .error e → e.notFound → serve allocate c s = (r, s')

/-- The API server, with the exposure that is reconciled. -/
abbrev exposedApi (allocate : Allocator) (t : Exposed) :
    Handler Call (Settled Error Answer) (Managed × Option Exposure) :=
  (servingApi allocate).observe t.log

/-- Anything but writing the spec of the Service. -/
structure Exposed.Edited (t : Exposed) (s s' : Managed) : Prop where
  service : s'.cluster.service t.service = s.cluster.service t.service
  stored : t.Stored s.cluster → t.Stored s'.cluster

def exposing (t : Exposed) : Contract Call (Managed × Option Exposure) where
  rely x y := t.Edited x.1 y.1 ∧ y.2 = x.2
  guar _ x y := (t.Stored x.1.cluster → t.Stored y.1.cluster) ∧
    Survives x.2 (x.1.cluster.service t.service) (y.1.cluster.service t.service)
  refl _ := ⟨⟨rfl, fun h => h⟩, rfl⟩
  trans _ _ _ h h' := ⟨⟨h'.1.service.trans h.1.service, fun hs => h'.1.stored (h.1.stored hs)⟩,
    h'.2.trans h.2⟩

section Runs

variable {t : Exposed} {e : Exposure} {x y : Managed × Option Exposure}

/-- A spec of this exposure is reconciled. -/
structure Exposed.At (t : Exposed) (e : Exposure) (x : Managed × Option Exposure) : Prop where
  stored : t.Stored x.1.cluster
  read : x.2 = some e

theorem Exposed.At.stable (h : t.At e x) (hr : (exposing t).rely x y) : t.At e y :=
  ⟨hr.1.stored h.stored, hr.2.trans h.read⟩

theorem log_of_spares {c : Call} (hc : c.Spares key) (r : Settled Error Answer c)
    (last : Option Exposure) : t.log c s r last = last := by
  cases c with
  | getServer => exact hc.elim
  | getProxy => exact hc.elim
  | _ => cases t <;> rfl

/-- A call that is answered, or lost. -/
theorem exposedApi_step {c : Call} {r : Settled Error Answer c}
    (h : exposedApi allocate t c x r y) :
    (y.1 = x.1 ∨ y.1 = (serve allocate c x.1).2) ∧ (∀ a, r = .ok a → serve allocate c x.1 =
      (.ok a, y.1)) ∧ y.2 = t.log c x.1 r x.2 := by
  obtain ⟨hstate, hok⟩ := Handler.of_lossy h.1.1
  exact ⟨hstate, hok, h.2⟩

theorem Exposed.stored_step {c : Call} {r : Settled Error Answer c}
    (h : exposedApi allocate t c x r y) (hx : t.Stored x.1.cluster) : t.Stored y.1.cluster := by
  rcases (exposedApi_step h).1 with hy | hy
  · rwa [hy]
  · rw [hy]
    exact stored_serve hx c

theorem Exposed.At.step_spares {c : Call} {r : Settled Error Answer c} (hc : c.Spares t.service)
    (hx : t.At e x) (h : exposedApi allocate t c x r y) :
    (exposing t).guar c x y ∧ t.At e y ∧
      y.1.cluster.service t.service = x.1.cluster.service t.service := by
  obtain ⟨hstate, -, hlog⟩ := exposedApi_step h
  have hservice : y.1.cluster.service t.service = x.1.cluster.service t.service := by
    rcases hstate with hy | hy
    · rw [hy]
    · rw [hy, service_serve hc]
  exact ⟨⟨stored_step h, .of_eq hservice⟩, ⟨stored_step h hx.stored,
    hlog.trans ((log_of_spares hc r _).trans hx.read)⟩, hservice⟩

theorem wp_spares {α : Type} {p : Prog Call (Settled Error Answer) α}
    (hp : p.Only (Call.Spares t.service)) (hx : t.At e x) :
    wp (exposedApi allocate t) (exposing t) p (fun _ => t.At e) x :=
  wp_of_only hp hx (fun _ _ => Exposed.At.stable) fun _ _ _ _ hc hx h =>
    ⟨(hx.step_spares hc h).1, (hx.step_spares hc h).2.1⟩

/-- What is sent of a Service is what was read back, for it does not change meanwhile. -/
def Preserves (t : Exposed) (desired : ServiceSpec) (new : Object .service)
    (x : Managed × Option Exposure) : Prop :=
  ∀ cur, x.1.cluster.service t.service = some cur → new.body.spec = cur.preserve desired

theorem wp_preserveServiceAllocations {desired : Object .service} (hx : t.At e x) :
    wp (exposedApi allocate t) (exposing t)
      (preserveServiceAllocations ⟨⟨.service, t.service.ns, t.service.name⟩, desired⟩).run
      (fun r y => t.At e y ∧ ∀ new, r = .ok new → Preserves t desired.body.spec new y) x := by
  have stable : ∀ (r : Except Error (Object .service)) y z,
      (t.At e y ∧ ∀ new, r = .ok new → Preserves t desired.body.spec new y) →
        (exposing t).rely y z →
          t.At e z ∧ ∀ new, r = .ok new → Preserves t desired.body.spec new z :=
    fun r y z h hr => ⟨h.1.stable hr, fun new hnew cur hcur =>
      h.2 new hnew cur (hr.1.service.symm.trans hcur)⟩
  simp only [preserveServiceAllocations, Async.run_bind, Async.run_attempt, await, Async.await,
    ExceptT.run_mk, Prog.lift_bind, Prog.call_bind, Prog.pure_bind]
  refine wp_call (t.At e) hx (fun _ _ => Exposed.At.stable) fun y r z hy h => ?_
  obtain ⟨hguar, hz, hservice⟩ := hy.step_spares (c := .get _) trivial h
  refine ⟨hguar, ?_⟩
  cases r with
  | error err =>
    dsimp only
    split_ifs with hnot
    · refine wp_pure ⟨hz, ?_⟩ (stable _)
      rintro new - cur hcur
      have hnone := notFound_get (h.1.2 err rfl hnot)
      rw [hservice, Cluster.service, hnone] at hcur
      cases hcur
    · exact wp_pure ⟨hz, fun new hnew => by cases hnew⟩ (stable _)
  | ok current =>
    refine wp_pure ⟨hz, ?_⟩ (stable _)
    rintro new hnew cur hcur
    have hsome := found_get ((exposedApi_step h).2.1 current rfl)
    rw [hservice, Cluster.service, hsome] at hcur
    cases hcur
    cases hnew
    rfl

theorem wp_applyService {owner : ObjectMeta} {desired : Object .service}
    (halloc : allocate.Documented) (hdesired : desired.body.spec.For e) (hx : t.At e x) :
    wp (exposedApi allocate t) (exposing t)
      (apply lib owner ⟨⟨.service, t.service.ns, t.service.name⟩, desired⟩).run
      (fun _ => t.At e) x := by
  refine wp_async_bind (wp_mono (wp_preserveServiceAllocations hx) fun r y hy => ?_)
  obtain ⟨hy, hnew⟩ := hy
  cases r with
  | error err => exact wp_pure hy fun _ _ => Exposed.At.stable
  | ok new =>
    simp only [Async.run_bind, Task.run_ofExcept, Prog.pure_bind]
    cases lib.setControllerReference owner new.controller with
    | error err => exact wp_pure hy fun _ _ => Exposed.At.stable
    | ok controller =>
      refine wp_call (fun y => t.At e y ∧ Preserves t desired.body.spec new y) ⟨hy, hnew _ rfl⟩
        ?_ fun y r z hy h => ?_
      · exact fun _ _ h hr => ⟨h.1.stable hr, fun cur hcur =>
          h.2 cur (hr.1.service.symm.trans hcur)⟩
      obtain ⟨hy, hnew⟩ := hy
      obtain ⟨hstate, -, hlog⟩ := exposedApi_step h
      refine ⟨⟨Exposed.stored_step h, ?_⟩,
        wp_pure ⟨Exposed.stored_step h hy.stored, ?_⟩ fun _ _ => Exposed.At.stable⟩
      · rw [hy.read]
        rcases hstate with hz | hz
        · exact .of_eq (by rw [hz])
        · rw [hz]
          exact survives_apply halloc hdesired hnew
      · rw [hlog, ← hy.read]
        cases t <;> rfl

theorem spares_of_minor {c : Call} (hc : c.minor) : c.Spares key := by
  cases c <;> trivial

theorem keptByMinor_exposing :
    KeptByMinor (exposedApi allocate t) (exposing t) (t.At e) where
  stable _ _ := Exposed.At.stable
  call _ _ _ _ hc hx h :=
    ⟨(hx.step_spares (spares_of_minor hc) h).1, (hx.step_spares (spares_of_minor hc) h).2.1⟩

/-- A step that may fail, and what follows. -/
theorem wp_orFail_at {step rest : Task Unit} {fail : Error → Task Unit}
    (hstep : wp (exposedApi allocate t) (exposing t) step.run (fun _ => t.At e) x)
    (hfail : ∀ err y, t.At e y →
      wp (exposedApi allocate t) (exposing t) (fail err).run (fun _ => t.At e) y)
    (hrest : ∀ y, t.At e y →
      wp (exposedApi allocate t) (exposing t) rest.run (fun _ => t.At e) y) :
    wp (exposedApi allocate t) (exposing t) (orFail step fail rest).run (fun _ => t.At e) x := by
  refine wp_orFail (wp_mono hstep fun r y hy => ?_)
  cases r with
  | ok _ => exact hrest y hy
  | error err => exact hfail err y hy

end Runs

/-! ## A whole run -/

section Reconcile

variable {e : Exposure} {x : Managed × Option Exposure}

theorem for_minecraftService (mc : MinecraftServer) :
    (minecraftService mc).object.body.spec.For mc.exposure :=
  ⟨rfl, _, _, rfl⟩

theorem for_proxyService (rp : ReverseProxyServer) :
    (proxyService rp).object.body.spec.For rp.exposure :=
  ⟨rfl, _, _, rfl⟩

theorem wp_serverExposed {mc : MinecraftServer} (halloc : allocate.Documented)
    (hkey : mc.metadata.key = key) (hx : (Exposed.server key).At mc.exposure x) :
    wp (exposedApi allocate (.server key)) (exposing (.server key)) (mc.reconcile lib).run
      (fun _ => (Exposed.server key).At mc.exposure) x := by
  subst hkey
  have fail : ∀ (mc' : MinecraftServer) reason err y,
      (Exposed.server mc.metadata.key).At mc.exposure y →
        wp (exposedApi allocate (.server mc.metadata.key)) (exposing (.server mc.metadata.key))
          (mc'.fail lib reason err).run
          (fun _ => (Exposed.server mc.metadata.key).At mc.exposure) y :=
    fun _ _ _ _ hy => keptByMinor_exposing.serverFail (fun _ _ h => h) hy
  have hworkload : ∀ k : ObjectKey, k.kind = .deployment ∨ k.kind = .statefulSet →
      k ≠ ⟨.service, mc.metadata.ns, serverName mc.metadata.name⟩ := by
    rintro k hk rfl
    rcases hk with hk | hk <;> cases hk
  unfold MinecraftServer.reconcile
  dsimp only
  split_ifs
  · exact wp_pure hx fun _ _ => Exposed.At.stable
  · exact fail _ _ _ _ hx
  · exact fail _ _ _ _ hx
  · refine wp_orFail_at (wp_spares (only_apply (fun _ => trivial) (fun _ => nofun) _) hx)
      (fail _ _) fun x hx => ?_
    refine wp_orFail_at (wp_applyService halloc (for_minecraftService mc) hx) (fail _ _)
      fun x hx => ?_
    refine wp_orFail_at (wp_spares (only_reconcileWorkload (fun _ => trivial)
      (fun k _ hk => hworkload k hk) _ _) hx) (fail _ _) fun x hx => ?_
    refine wp_orFail_at (wp_spares (only_pruneOppositeWorkload (fun _ => trivial)
      (fun k hk => hworkload k hk) _ _) hx) (fail _ _) fun x hx => ?_
    refine wp_async_bind (wp_mono (keptByMinor_exposing.serverUpdateStatus hx) ?_)
    rintro r y ⟨⟨⟨mc', r'⟩, rfl⟩, hy⟩
    cases r' with
    | error err => exact fail _ _ _ _ hy
    | ok _ => exact wp_pure hy fun _ _ => Exposed.At.stable

theorem wp_proxyExposed {rp : ReverseProxyServer} (halloc : allocate.Documented)
    (hkey : rp.metadata.key = key) (hx : (Exposed.proxy key rp.spec.type).At rp.exposure x) :
    wp (exposedApi allocate (.proxy key rp.spec.type)) (exposing (.proxy key rp.spec.type))
      (rp.reconcile lib).run (fun _ => (Exposed.proxy key rp.spec.type).At rp.exposure) x := by
  subst hkey
  have fail : ∀ (rp' : ReverseProxyServer) reason err y,
      (Exposed.proxy rp.metadata.key rp.spec.type).At rp.exposure y →
        wp (exposedApi allocate (.proxy rp.metadata.key rp.spec.type))
          (exposing (.proxy rp.metadata.key rp.spec.type)) (rp'.fail lib reason err).run
          (fun _ => (Exposed.proxy rp.metadata.key rp.spec.type).At rp.exposure) y :=
    fun _ _ _ _ hy => keptByMinor_exposing.proxyFail (fun _ _ h => h) hy
  have hstale : ∀ k : ObjectKey, k.name ≠ proxyName rp.spec.type rp.metadata.name →
      k ≠ ⟨.service, rp.metadata.ns, proxyName rp.spec.type rp.metadata.name⟩ := by
    rintro k hk rfl
    exact hk rfl
  unfold ReverseProxyServer.reconcile
  split_ifs
  · exact wp_pure hx fun _ _ => Exposed.At.stable
  · exact fail _ _ _ _ hx
  · exact fail _ _ _ _ hx
  · refine wp_orFail_at (wp_spares (only_apply (fun _ => trivial) (fun _ => nofun) _) hx)
      (fail _ _) fun x hx => ?_
    refine wp_orFail_at (wp_applyService halloc (for_proxyService rp) hx) (fail _ _)
      fun x hx => ?_
    refine wp_orFail_at (wp_spares (only_apply (fun _ => trivial) (fun _ => nofun) _) hx)
      (fail _ _) fun x hx => ?_
    refine wp_orFail_at (wp_spares (only_pruneStaleResources (fun _ => trivial)
      (fun k hk => hstale k hk)) hx) (fail _ _) fun x hx => ?_
    refine wp_async_bind (wp_mono (keptByMinor_exposing.proxyUpdateStatus hx) ?_)
    rintro r y ⟨⟨⟨rp', r'⟩, rfl⟩, hy⟩
    cases r' with
    | error err => exact fail _ _ _ _ hy
    | ok _ => exact wp_pure hy fun _ _ => Exposed.At.stable

/-- Reading the resource writes nothing. -/
theorem exposedApi_read {t : Exposed} {c : Call} {r : Settled Error Answer c}
    {y : Managed × Option Exposure} (hc : (serve allocate c x.1).2 = x.1)
    (h : exposedApi allocate t c x r y) : y.1 = x.1 := by
  rcases (exposedApi_step h).1 with hy | hy
  · exact hy
  · exact hy.trans hc

theorem wp_exposed {t : Exposed} (halloc : allocate.Documented) (hx : t.Stored x.1.cluster) :
    wp (exposedApi allocate t) (exposing t) (t.reconcile lib).run (fun _ _ => True) x := by
  cases t with
  | server key =>
    simp only [Exposed.reconcile, reconcileMinecraftServer, Async.run_bind, Async.run_attempt,
      await, Async.await, ExceptT.run_mk, Prog.lift_bind, Prog.call_bind, Prog.pure_bind]
    refine wp_call (fun y => (Exposed.server key).Stored y.1.cluster) hx
      (fun _ _ h hr => hr.1.stored h) fun y r z hy h => ?_
    have hz : z.1 = y.1 := exposedApi_read (serve_getServer key y.1) h
    refine ⟨⟨Exposed.stored_step h, .of_eq (by rw [hz])⟩, ?_⟩
    cases r with
    | error err => exact fun _ _ => trivial
    | ok mc =>
      obtain ⟨-, hok, hlog⟩ := exposedApi_step h
      have hmc := found_getServer (hok mc rfl)
      refine wp_mono (wp_serverExposed halloc (hy mc hmc) ⟨hz ▸ hy, ?_⟩) fun _ _ _ => trivial
      rw [hlog]
      exact if_pos rfl
  | proxy key type =>
    simp only [Exposed.reconcile, reconcileReverseProxyServer, Async.run_bind, Async.run_attempt,
      await, Async.await, ExceptT.run_mk, Prog.lift_bind, Prog.call_bind, Prog.pure_bind]
    refine wp_call (fun y => (Exposed.proxy key type).Stored y.1.cluster) hx
      (fun _ _ h hr => hr.1.stored h) fun y r z hy h => ?_
    have hz : z.1 = y.1 := exposedApi_read (serve_getProxy key y.1) h
    refine ⟨⟨Exposed.stored_step h, .of_eq (by rw [hz])⟩, ?_⟩
    cases r with
    | error err => exact fun _ _ => trivial
    | ok rp =>
      obtain ⟨-, hok, hlog⟩ := exposedApi_step h
      have hrp := found_getProxy (hok rp rfl)
      obtain ⟨hkey, rfl⟩ := hy rp hrp
      refine wp_mono (wp_proxyExposed halloc hkey ⟨hz ▸ hy, ?_⟩) fun _ _ _ => trivial
      rw [hlog]
      exact if_pos rfl

end Reconcile

/-! ## All runs -/

/-- Edits, with the spec that was read last left alone. -/
def Exposed.editing (t : Exposed) :
    Managed × Option Exposure → Managed × Option Exposure → Prop :=
  fun x y => t.Edited x.1 y.1 ∧ y.2 = x.2

variable {t : Exposed}
  {x y : Option (Prog Call (Settled Error Answer) (Except Error Unit)) ×
    (Managed × Option Exposure)}

/-- One step of the controller of a resource: of a `Reconcile`, which may stop anywhere, or an
edit. -/
abbrev ExposedStep (allocate : Allocator) (lib : Library) (t : Exposed) :=
  WorkerStep (exposedApi allocate t) t.editing t.editing (t.reconcile lib).run

abbrev ExposedSteps (allocate : Allocator) (lib : Library) (t : Exposed) :=
  WorkerSteps (exposedApi allocate t) t.editing t.editing (t.reconcile lib).run

theorem exposedSpec (lib : Library) (halloc : allocate.Documented) :
    WorkerSpec (exposedApi allocate t) t.editing t.editing (t.reconcile lib).run (exposing t)
      (fun _ _ => True) (fun x => t.Stored x.1.cluster) where
  env _ _ _ h := h
  rely _ _ hs h := h.1.stored hs
  guar _ _ _ hs h := h.1 hs
  idle _ _ hs h := h.1.stored hs
  wp _ hs := wp_exposed halloc hs

theorem survives_step (halloc : allocate.Documented)
    (hx : WorkerGood (exposedApi allocate t) (exposing t) (fun _ _ => True)
      (fun x => t.Stored x.1.cluster) x)
    (h : ExposedStep allocate lib t x y) :
    Survives x.2.2 (x.2.1.cluster.service t.service) (y.2.1.cluster.service t.service) := by
  cases h with
  | start => exact .of_eq rfl
  | work hs =>
    cases hs with
    | call hc => exact (hx.call (exposedSpec lib halloc) hc).1.2
    | left => exact .of_eq rfl
    | right => exact .of_eq rfl
    | env he => exact .of_eq he.1.service
  | stop => exact .of_eq rfl
  | idle hi => exact .of_eq hi.1.service

/-- In every run of the controller, with its requests failing anywhere and the resource edited
at any time: the Service stays, with the addresses it was allocated; and a step from a spec
with the type NodePort or LoadBalancer changes an allocated node port only to the one that the
spec has for this type. -/
theorem addresses_survive {s : Managed} {last : Option Exposure} (halloc : allocate.Documented)
    (hs : t.Stored s.cluster) (run : ExposedSteps allocate lib t (none, (s, last)) x) :
    (∀ y spec, ExposedSteps allocate lib t x y → x.2.1.cluster.service t.service = some spec →
      ∃ spec', y.2.1.cluster.service t.service = some spec' ∧ spec.Held spec') ∧
    ∀ y spec, ExposedStep allocate lib t x y → x.2.1.cluster.service t.service = some spec →
      ∃ spec', y.2.1.cluster.service t.service = some spec' ∧
        PortRule x.2.2 spec.nodePort spec'.nodePort := by
  have hspec := exposedSpec (t := t) lib halloc
  have good := WorkerSteps.good hspec run (.idle hs)
  refine ⟨fun y spec hxy hx => ?_, fun y spec hxy hx => ?_⟩
  · induction hxy with
    | refl => exact ⟨spec, hx, .refl spec⟩
    | tail hxz hzy ih =>
      obtain ⟨m, hm, hheld⟩ := ih
      obtain ⟨spec', hspec', hheld', -⟩ :=
        survives_step halloc (WorkerSteps.good hspec hxz good) hzy m hm
      exact ⟨spec', hspec', hheld.trans hheld'⟩
  · obtain ⟨spec', hspec', -, hrule⟩ := survives_step halloc good hxy spec hx
    exact ⟨spec', hspec', hrule⟩

/-- A server with a node port of its own. -/
def lobby : MinecraftServer where
  metadata := {
    name := "lobby", ns := "minikura", uid := "uid-lobby", generation := 1, deleting := false
    labels := [] }
  spec := { type := "STATELESS", listenPort := 25565, serviceType := "NodePort" }

def lobbyKey : NamespacedName := lobby.metadata.key

/-- The answers of an API server on which nothing fails. -/
def exposedAnswers (t : Exposed) (c : Call) (x : Managed × Option Exposure) :
    Option (Settled Error Answer c × (Managed × Option Exposure)) :=
  let answer := serve plainAllocator c x.1
  some (answer.1, answer.2, t.log c x.1 answer.1 x.2)

theorem exposedApi_of_answers (c : Call) (x : Managed × Option Exposure)
    (r : Settled Error Answer c) (y : Managed × Option Exposure)
    (h : exposedAnswers t c x = some (r, y)) : exposedApi plainAllocator t c x r y := by
  cases Option.some.inj h
  exact ⟨⟨.inl rfl, fun _ _ _ => rfl⟩, rfl⟩

def lobbyReconcile (x : Managed × Option Exposure) :
    Prog Call (Settled Error Answer) (Except Error Unit) × (Managed × Option Exposure) :=
  (reconcileMinecraftServer plainLibrary lobbyKey).run.runTurns
    (exposedAnswers (.server lobbyKey)) (List.replicate 10 .go) x

/-- The server before its first `Reconcile`. -/
def lobbyStart : Managed × Option Exposure :=
  ({ cluster := { Cluster.empty with servers := AList.singleton lobbyKey lobby }, applied := ∅ },
    none)

/-- After the first `Reconcile`, another port and a load balancer are asked for. -/
def lobbyEdited : Managed × Option Exposure :=
  let x := (lobbyReconcile lobbyStart).2
  let mc : MinecraftServer :=
    { lobby with
      spec := { lobby.spec with
        listenPort := 25570, serviceType := "LoadBalancer", nodePort := 31000 } }
  ({ x.1 with cluster := { x.1.cluster with servers := AList.singleton lobbyKey mc } }, x.2)

theorem stored_singleton {objects proxies} {mc : MinecraftServer} (h : mc.metadata.key = key) :
    (Exposed.server key).Stored ⟨AList.singleton key mc, proxies, objects⟩ := by
  intro mc' hmc'
  have hself : (AList.singleton key mc : AList fun _ => MinecraftServer).lookup key = some mc :=
    List.dlookup_cons_eq ..
  obtain rfl : mc = mc' := Option.some.inj (hself.symm.trans hmc')
  exact h

theorem addresses_survive_lobby : ∃ spec spec',
    lobbyEdited.1.cluster.service (Exposed.server lobbyKey).service = some spec ∧
      (lobbyReconcile lobbyEdited).2.1.cluster.service (Exposed.server lobbyKey).service =
        some spec' ∧ spec.nodePort = 30000 ∧ spec.Held spec' := by
  have first : ExposedSteps plainAllocator plainLibrary (.server lobbyKey) (none, lobbyStart)
      (some (.pure (.ok ())), (lobbyReconcile lobbyStart).2) :=
    .head .start (WorkerSteps.of_steps (steps_result exposedApi_of_answers (by decide +kernel)))
  have edited : ExposedSteps plainAllocator plainLibrary (.server lobbyKey) (none, lobbyStart)
      (none, lobbyEdited) :=
    (first.tail .stop).tail (.idle ⟨⟨rfl, fun _ => stored_singleton rfl⟩, rfl⟩)
  have second : ExposedSteps plainAllocator plainLibrary (.server lobbyKey) (none, lobbyEdited)
      (some (.pure (.ok ())), (lobbyReconcile lobbyEdited).2) :=
    .head .start (WorkerSteps.of_steps (steps_result exposedApi_of_answers (by decide +kernel)))
  have hport : (lobbyEdited.1.cluster.service (Exposed.server lobbyKey).service).map
      (·.nodePort) = some 30000 := by decide +kernel
  obtain ⟨spec, hspec, hnode⟩ := Option.map_eq_some_iff.mp hport
  obtain ⟨spec', hspec', hheld⟩ :=
    (addresses_survive plainAllocator_documented (stored_singleton rfl) edited).1 _ spec second
      hspec
  exact ⟨spec, spec', hspec, hspec', hnode, hheld⟩

end Minikura.Operator
