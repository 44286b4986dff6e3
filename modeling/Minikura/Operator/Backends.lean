import Mathlib.Data.Finset.Basic
import Mathlib.Data.Finset.Dedup
import Minikura.Concurrency.Observation
import Minikura.Concurrency.Watch
import Minikura.Operator.Controller

/-!
# The backends of the proxies

The proxy controller at work: a cache that follows the API server, changes that are
delivered after the cache reflects them, a queue of the proxies to reconcile, and runs of
`Reconcile` that read the cache early and write late, all interleaved.

## Main definitions

* `Machine`, `Machine.next` — the states and the actions.
* `Machine.Due` — a proxy that is queued or about to be.

## Main results

* `wp_reconcile_settles` — a run that nothing disturbs leaves the right backends.
* `backends_not_stale` — the backends of a proxy that is not due are right.
-/

namespace Minikura.Operator
open Concurrency

variable (lib : Library)

/-! ## The machine -/

structure Machine where
  servers : Watched NamespacedName MinecraftServer
  proxies : Watched NamespacedName ReverseProxyServer
  /-- The work queue, in which no name is twice. -/
  queue : Finset NamespacedName
  /-- The runs of `Reconcile`, at most one for each name. -/
  running : NamespacedName → Option (Prog Call (Settled Error Answer) (Except Error Unit))

namespace Machine

def initial : Machine := ⟨.empty, .empty, ∅, fun _ => none⟩

def api (s : Machine) : Cluster := ⟨s.servers.store, s.proxies.store, ∅⟩

def cache (s : Machine) : Cluster := ⟨s.servers.replica, s.proxies.replica, ∅⟩

/-- How a call fares: what is answered about objects, and whether a write fails, with its
effect or without it. -/
structure Fate where
  object : (c : Call) → Settled Error Answer c
  fault : Option (Error × Bool)

/-- A write of the status of a proxy, after which the API server is `after`. -/
def patched (s : Machine) (fate : Fate) (key : NamespacedName)
    (answer : Except Error Unit × Cluster) : Except Error Unit × Machine :=
  let written := { s with proxies := s.proxies.change key (answer.2.proxies.lookup key) }
  match fate.fault with
  | none => (answer.1, written)
  | some (e, true) => (.error e, written)
  | some (e, false) => (.error e, s)

/-- Reads of resources are answered from the cache, writes of a status by the API server.
Of the objects, nothing is assumed. -/
def serve (s : Machine) (fate : Fate) : (c : Call) → Settled Error Answer c × Machine
  | .getServer key => ((handle (.getServer key) s.cache).1, s)
  | .getProxy key => ((handle (.getProxy key) s.cache).1, s)
  | .listServers ns selector => ((handle (.listServers ns selector) s.cache).1, s)
  | .patchProxyStatus key patch =>
    s.patched fate key (handle (.patchProxyStatus key patch) s.api)
  | c => (fate.object c, s)

/-- The proxies to reconcile after a change of a server. -/
def proxiesForChange (s : Machine) (e : Change NamespacedName MinecraftServer) :
    Finset NamespacedName :=
  (e.values.flatMap
    (ReverseProxyServer.proxiesForServer lib (s.proxies.replica.entries.map (·.2)))).toFinset

/-- The queue after a run. -/
def requeue (s : Machine) (key : NamespacedName) : Except Error Unit → Finset NamespacedName
  | .ok _ => s.queue
  | .error _ => insert key s.queue

inductive Action where
  | changeServer (key : NamespacedName) (new : Option MinecraftServer)
  | changeProxy (key : NamespacedName) (new : Option ReverseProxyServer)
  | reflectServer
  | reflectProxy
  | deliverServer
  | deliverProxy
  /-- A change of an object, or a resync. -/
  | wake (key : NamespacedName)
  | begin (key : NamespacedName)
  | call (key : NamespacedName) (fate : Fate)
  | finish (key : NamespacedName)

def next (s : Machine) : Action → Option Machine
  | .changeServer key new =>
    if ∀ mc ∈ new, mc.metadata.key = key then
      some { s with servers := s.servers.change key new }
    else none
  | .changeProxy key new =>
    if ∀ rp ∈ new, rp.metadata.key = key then
      some { s with proxies := s.proxies.change key new }
    else none
  | .reflectServer => some { s with servers := s.servers.reflect }
  | .reflectProxy => some { s with proxies := s.proxies.reflect }
  | .deliverServer =>
    match s.servers.deliver with
    | none => none
    | some (e, servers) =>
      some { s with servers := servers, queue := s.queue ∪ s.proxiesForChange lib e }
  | .deliverProxy =>
    match s.proxies.deliver with
    | none => none
    | some (e, proxies) => some { s with proxies := proxies, queue := insert e.key s.queue }
  | .wake key => some { s with queue := insert key s.queue }
  | .begin key =>
    if key ∈ s.queue ∧ (s.running key).isNone then
      some { s with
        queue := s.queue.erase key
        running := Function.update s.running key (some (reconcileReverseProxyServer lib key).run) }
    else none
  | .call key fate =>
    match s.running key with
    | some (.call c k) =>
      let (r, s') := s.serve fate c
      some { s' with running := Function.update s.running key (some (k r)) }
    | _ => none
  | .finish key =>
    match s.running key with
    | some (.pure r) =>
      some { s with
        running := Function.update s.running key none
        queue := s.requeue key r }
    | _ => none

/-- The states that the actions lead to. -/
def Reachable (s : Machine) : Prop :=
  Relation.ReflTransGen (fun s s' => ∃ a, next lib s a = some s') initial s

end Machine

/-! ## Which backends are right -/

/-- `Reconcile` finds nothing wrong with the spec. -/
def ReverseProxyServer.Accepted (rp : ReverseProxyServer) : Prop :=
  (rp.spec.type = Types.proxyVelocity ∨ rp.spec.type = Types.proxyBungeeCord) ∧
    0 < rp.spec.externalPort ∧ 0 < rp.spec.listenPort

/-- The proxy is to be kept up to date. -/
structure ReverseProxyServer.Kept (rp : ReverseProxyServer) : Prop where
  present : rp.metadata.deleting = false
  accepted : rp.Accepted
  selector : ∃ selector, rp.selector lib = .ok selector

/-- The server is a backend of the proxy. -/
def ReverseProxyServer.backs (rp : ReverseProxyServer) (mc : MinecraftServer) : Bool :=
  mc.metadata.ns = rp.metadata.ns && rp.matchesBackend lib mc

/-- The names of the servers that are backends of the proxy. -/
def ReverseProxyServer.expected (rp : ReverseProxyServer)
    (servers : AList fun _ : NamespacedName => MinecraftServer) : List String :=
  sortStrings (((servers.entries.map (·.2)).filter (rp.backs lib)).map (·.metadata.name))

/-- The proxy is queued, or the target of a change that has not been delivered. -/
def Machine.Due (s : Machine) (key : NamespacedName) (rp : ReverseProxyServer) : Prop :=
  key ∈ s.queue ∨ (∃ e ∈ s.proxies.pending, e.key = key) ∨
    ∃ e ∈ s.servers.pending, ∃ mc ∈ e.values, rp.backs lib mc

variable {lib} {rp : ReverseProxyServer}

/-- The selector when listing and the one when an event arrives agree. -/
theorem matchesBackend_eq {selector : Labels → Bool} (h : rp.selector lib = .ok selector)
    (mc : MinecraftServer) : rp.matchesBackend lib mc = selector mc.metadata.labels := by
  unfold ReverseProxyServer.selector at h
  unfold ReverseProxyServer.matchesBackend
  cases hs : rp.spec.backendSelector with
  | none =>
    rw [hs] at h
    rw [← Except.ok.inj h]
  | some s =>
    rw [hs] at h
    cases hl : lib.labelSelectorAsSelector s with
    | error e => simp [hl] at h
    | ok sel =>
      simp only [hl, Except.ok.injEq] at h ⊢
      rw [h]

theorem expected_congr {servers servers' : AList fun _ : NamespacedName => MinecraftServer}
    (h : ∀ key mc, rp.backs lib mc →
      (servers.lookup key = some mc ↔ servers'.lookup key = some mc)) :
    rp.expected lib servers = rp.expected lib servers' :=
  sortStrings_perm ((perm_filter_values h).map _)

/-! ## A run that nothing disturbs -/

/-- What a run finds, as long as nothing about the proxy comes due. -/
structure View where
  proxy : ReverseProxyServer
  backends : List String

/-- The view is what reads answer with, and a patch that is accepted changes nothing. -/
def undisturbed (lib : Library) (key : NamespacedName) :
    Handler Call (Settled Error Answer) View :=
  fun c v r v' => v' = v ∧ match c, r with
    | .getProxy k, r => k = key → r = .ok v.proxy
    | .listServers ns selector, r => ns = v.proxy.metadata.ns →
      v.proxy.selector lib = .ok selector → ∀ servers, r = .ok servers →
        sortStrings (servers.map (·.metadata.name)) = v.backends
    | .patchProxyStatus k patch, r => k = key → r = .ok () →
      .ofDocument (patch.apply v.proxy.status.document) = v.proxy.status
    | _, _ => True

/-- Nothing is promised of a run, but that it does not move the view. -/
def watching : Contract Call View := .alone fun _ _ _ => True

/-- A run that returns without an error has found the backends right. -/
def Settles (lib : Library) (key : NamespacedName)
    (q : Prog Call (Settled Error Answer) (Except Error Unit)) (v : View) : Prop :=
  wp (undisturbed lib key) watching q
    (fun r v => r = .ok () → v.proxy.status.backends = v.backends) v

variable {key : NamespacedName} {v : View}

theorem wp_undisturbed {α : Type} (p : Prog Call (Settled Error Answer) α) :
    wp (undisturbed lib key) watching p (fun _ w => w = v) v :=
  wp_of_only p.only_true rfl (fun _ _ hs ht => ht.trans hs)
    fun _ _ _ _ _ hs h => ⟨trivial, h.1.trans hs⟩

theorem settles_fail {rp : ReverseProxyServer} {reason : String} {cause : Error} :
    Settles lib key (rp.fail lib reason cause).run v := by
  refine wp_failWithStatus (wp_mono (wp_undisturbed (v := v) _) fun r w _ => ?_)
  cases r <;>
    · intro t _ h
      cases h

theorem settles_orFail {rp : ReverseProxyServer} {reason : String} {step rest : Task Unit}
    (h : Settles lib key rest.run v) :
    Settles lib key (orFail step (rp.fail lib reason) rest).run v := by
  refine wp_orFail (wp_mono (wp_undisturbed (v := v) _) fun r w hw => ?_)
  subst hw
  cases r with
  | ok u => exact h
  | error e => exact settles_fail

theorem wp_backends (hkept : v.proxy.Kept lib) :
    wp (undisturbed lib key) watching (v.proxy.backends lib).run
      (fun r w => w = v ∧ ∀ names, r = .ok names → names = v.backends) v := by
  obtain ⟨selector, hselector⟩ := hkept.selector
  simp only [ReverseProxyServer.backends, hselector, Async.run_bind, Task.run_ofExcept,
    Prog.pure_bind, await, Async.await, ExceptT.run_mk, Prog.lift_bind]
  refine wp_call (· = v) rfl (fun _ _ hs ht => ht.trans hs) fun s r w hs hH => ⟨trivial, ?_⟩
  subst hs
  obtain ⟨rfl, hlist⟩ := hH
  cases r with
  | error e => exact fun _ hu => ⟨hu, by simp⟩
  | ok servers =>
    refine fun _ hu => ⟨hu, fun names hnames => ?_⟩
    rw [← Except.ok.inj hnames]
    exact hlist rfl hselector servers rfl

theorem wp_updateStatus_settles (hkey : v.proxy.metadata.key = key) (hkept : v.proxy.Kept lib) :
    wp (undisturbed lib key) watching (v.proxy.updateStatus lib).run
      (fun r w => w = v ∧ ∀ rp, r = .ok (rp, .ok ()) → v.proxy.status.backends = v.backends) v := by
  refine wp_async_bind (wp_map.mpr (wp_mono (Q := fun r w => w = v ∧
    ∀ counts names endpoint, r = .ok (counts, names, endpoint) → names = v.backends) ?_ ?_))
  · refine wp_async_bind (wp_mono (wp_undisturbed (v := v) _) fun r w hw => ?_)
    subst hw
    cases r with
    | error e => exact fun _ hu => ⟨hu, by simp⟩
    | ok counts =>
      refine wp_async_bind (wp_mono (wp_backends hkept) fun r w hw => ?_)
      obtain ⟨rfl, hnames⟩ := hw
      cases r with
      | error e => exact fun _ hu => ⟨hu, by simp⟩
      | ok names =>
        refine wp_async_bind (wp_mono (wp_undisturbed (v := w) _) fun r u hu => ?_)
        subst hu
        cases r with
        | error e => exact fun _ hu => ⟨hu, by simp⟩
        | ok endpoint =>
          refine fun _ hu => ⟨hu, fun counts' names' endpoint' h => ?_⟩
          cases h
          exact hnames names rfl
  · rintro r w ⟨rfl, hread⟩
    cases r with
    | error e =>
      refine fun _ hu => ⟨hu, fun rp h => ?_⟩
      cases h
    | ok read =>
      obtain ⟨⟨ready, replicas⟩, names, endpoint⟩ := read
      simp only [ReverseProxyServer.patchStatus, Async.run_bind, Async.run_attempt, await,
        Async.await, ExceptT.run_mk, Prog.lift_bind, Prog.call_bind, Prog.pure_bind]
      refine wp_call (· = w) rfl (fun _ _ hs ht => ht.trans hs) fun s r u hs hH => ⟨trivial, ?_⟩
      subst hs
      obtain ⟨rfl, hpatch⟩ := hH
      refine fun _ ht => ⟨ht, fun rp hr => ?_⟩
      cases r with
      | error e => cases hr
      | ok a =>
        have hsame := hpatch hkey rfl
        rw [MergePatch.apply_diff_self, ReverseProxyServerStatus.ofDocument_document] at hsame
        rw [← hsame]
        exact hread _ _ _ rfl

/-- A whole run: where it returns no error, the status it was to write was there already. -/
theorem reconcile_settles (hkey : v.proxy.metadata.key = key) (hkept : v.proxy.Kept lib) :
    Settles lib key (reconcileReverseProxyServer lib key).run v := by
  unfold Settles
  simp only [reconcileReverseProxyServer, Async.run_bind, Async.run_attempt, await, Async.await,
    ExceptT.run_mk, Prog.lift_bind, Prog.call_bind, Prog.pure_bind]
  refine wp_call (· = v) rfl (fun _ _ hs ht => ht.trans hs) fun s r w hs hH => ⟨trivial, ?_⟩
  subst hs
  obtain ⟨rfl, hread⟩ := hH
  obtain rfl := hread rfl
  dsimp only
  unfold ReverseProxyServer.reconcile
  rw [hkept.present]
  simp only [Bool.false_eq_true, if_false]
  split_ifs
  · exact settles_fail
  · exact settles_fail
  · refine settles_orFail (settles_orFail (settles_orFail (settles_orFail ?_)))
    refine wp_async_bind (wp_mono (wp_updateStatus_settles hkey hkept) fun r u hu => ?_)
    obtain ⟨rfl, hupdate⟩ := hu
    cases r with
    | error e =>
      intro t _ h
      cases h
    | ok outcome =>
      obtain ⟨rp, r⟩ := outcome
      cases r with
      | error e => exact settles_fail
      | ok a =>
        intro t ht _
        obtain rfl : t = u := ht
        exact hupdate rp rfl

/-! ## The invariant -/

namespace Machine

variable {s s' : Machine}

/-- What is known of a proxy that is not due, by whether a run for it is under way. -/
def Rests (lib : Library) (key : NamespacedName) (v : View) :
    Option (Prog Call (Settled Error Answer) (Except Error Unit)) → Prop
  | none => v.proxy.status.backends = v.backends
  | some q => Settles lib key q v

/-- The view of a run for the proxy. -/
def view (lib : Library) (s : Machine) (rp : ReverseProxyServer) : View :=
  ⟨rp, rp.expected lib s.servers.store⟩

structure Consistent (lib : Library) (s : Machine) : Prop where
  servers : s.servers.Tracks
  proxies : s.proxies.Tracks
  keyed : ∀ key rp, s.proxies.store.lookup key = some rp → rp.metadata.key = key
  rests : ∀ key rp, s.proxies.store.lookup key = some rp → rp.Kept lib → ¬s.Due lib key rp →
    Rests lib key (s.view lib rp) (s.running key)

theorem not_due_iff {key : NamespacedName} : ¬s.Due lib key rp ↔
    key ∉ s.queue ∧ (∀ e ∈ s.proxies.pending, e.key ≠ key) ∧
      ∀ e ∈ s.servers.pending, ∀ mc, rp.backs lib mc → mc ∉ e.values := by
  unfold Due
  constructor
  · intro h
    simp only [not_or] at h
    exact ⟨h.1, fun e he hk => h.2.1 ⟨e, he, hk⟩, fun e he mc hmc hv => h.2.2 ⟨e, he, mc, hv, hmc⟩⟩
  · rintro ⟨hq, hp, hs⟩ (h | ⟨e, he, hk⟩ | ⟨e, he, mc, hv, hmc⟩)
    · exact hq h
    · exact hp e he hk
    · exact hs e he mc hmc hv

/-- The states between which nothing happened to a proxy that is not due afterwards. -/
structure Calm (lib : Library) (s s' : Machine) (key : NamespacedName) (rp : ReverseProxyServer) :
    Prop where
  due : ¬s.Due lib key rp
  stored : s.proxies.store.lookup key = some rp
  expected : rp.expected lib s.servers.store = rp.expected lib s'.servers.store

theorem Consistent.rests_of_calm {key : NamespacedName} (h : Consistent lib s)
    (hkept : rp.Kept lib) (hcalm : Calm lib s s' key rp) :
    Rests lib key (s'.view lib rp) (s.running key) := by
  rw [view, ← hcalm.expected]
  exact h.rests key rp hcalm.stored hkept hcalm.due

/-- A proxy that is up to date in the cache. -/
theorem Consistent.lookup_replica {key : NamespacedName} (h : Consistent lib s)
    (hdue : ¬s.Due lib key rp) (hrp : s.proxies.store.lookup key = some rp) :
    s.proxies.replica.lookup key = some rp :=
  (h.proxies.lookup_eq (not_due_iff.mp hdue).2.1).trans hrp

/-- The backends of a proxy that is not due are up to date in the cache. -/
theorem Consistent.expected_replica {key : NamespacedName} (h : Consistent lib s)
    (hdue : ¬s.Due lib key rp) :
    rp.expected lib s.servers.replica = rp.expected lib s.servers.store :=
  expected_congr fun k mc hmc =>
    h.servers.lookup_iff (fun e he => (not_due_iff.mp hdue).2.2 e he mc hmc) k

/-! ## The actions -/

theorem consistent_initial : Consistent lib initial where
  servers := Watched.tracks_empty
  proxies := Watched.tracks_empty
  keyed key rp h := by simp [initial, Watched.empty] at h
  rests key rp h := by simp [initial, Watched.empty] at h

theorem Consistent.changeServer (h : Consistent lib s) (k : NamespacedName)
    (new : Option MinecraftServer) :
    Consistent lib { s with servers := s.servers.change k new } where
  servers := h.servers.change k new
  proxies := h.proxies
  keyed := h.keyed
  rests key rp hrp hkept hdue := by
    obtain ⟨hq, hp, hs⟩ := not_due_iff.mp hdue
    refine h.rests_of_calm hkept ⟨not_due_iff.mpr ⟨hq, hp, fun e he => ?_⟩, hrp, ?_⟩
    · exact hs e (Watched.pending_change he)
    · exact expected_congr fun l mc hmc =>
        (Watched.lookup_change_iff fun e he => hs e he mc hmc).symm

/-- A change of a proxy, made by anyone. -/
theorem calm_changeProxy {key k : NamespacedName} {new : Option ReverseProxyServer}
    (hdue : ¬Machine.Due lib { s with proxies := s.proxies.change k new } key rp)
    (hrp : (s.proxies.change k new).store.lookup key = some rp) :
    Calm lib s { s with proxies := s.proxies.change k new } key rp := by
  obtain ⟨hq, hp, hs⟩ := not_due_iff.mp hdue
  refine ⟨not_due_iff.mpr ⟨hq, fun e he => hp e (Watched.pending_change he), hs⟩, ?_, rfl⟩
  rwa [← Watched.lookup_change_eq hp]

theorem keyed_change {k : NamespacedName} {new : Option ReverseProxyServer}
    (h : Consistent lib s) (hnew : ∀ rp ∈ new, rp.metadata.key = k) (key : NamespacedName)
    (rp : ReverseProxyServer) (hrp : (s.proxies.change k new).store.lookup key = some rp) :
    rp.metadata.key = key := by
  rcases Watched.change_cases s.proxies k new with hsame | ⟨hstore, -, -⟩
  · rw [hsame] at hrp
    exact h.keyed key rp hrp
  · rw [hstore] at hrp
    by_cases hk : key = k
    · subst hk
      rw [lookup_put_self] at hrp
      exact hnew rp hrp
    · rw [lookup_put_ne _ hk] at hrp
      exact h.keyed key rp hrp

theorem Consistent.changeProxy (h : Consistent lib s) {k : NamespacedName}
    {new : Option ReverseProxyServer} (hnew : ∀ rp ∈ new, rp.metadata.key = k) :
    Consistent lib { s with proxies := s.proxies.change k new } where
  servers := h.servers
  proxies := h.proxies.change k new
  keyed := keyed_change h hnew
  rests _ _ hrp hkept hdue := h.rests_of_calm hkept (calm_changeProxy hdue hrp)

theorem Consistent.reflectServer (h : Consistent lib s) :
    Consistent lib { s with servers := s.servers.reflect } where
  servers := h.servers.reflect
  proxies := h.proxies
  keyed := h.keyed
  rests key rp hrp hkept hdue := by
    refine h.rests_of_calm hkept ⟨?_, hrp, ?_⟩
    · simpa only [Due, Watched.pending_reflect] using hdue
    · simp only [Watched.store_reflect]

theorem Consistent.reflectProxy (h : Consistent lib s) :
    Consistent lib { s with proxies := s.proxies.reflect } where
  servers := h.servers
  proxies := h.proxies.reflect
  keyed := by
    simp only [Watched.store_reflect]
    exact h.keyed
  rests key rp hrp hkept hdue := by
    refine h.rests_of_calm hkept ⟨?_, ?_, rfl⟩
    · simpa only [Due, Watched.pending_reflect] using hdue
    · simpa only [Watched.store_reflect] using hrp

/-- A change that is about a backend of a proxy puts it into the queue, at the latest when
the cache is up to date about the proxy. -/
theorem mem_proxiesForChange {key : NamespacedName} {e : Change NamespacedName MinecraftServer}
    {mc : MinecraftServer} (hrp : s.proxies.replica.lookup key = some rp)
    (hkey : rp.metadata.key = key) (hmc : mc ∈ e.values) (hbacks : rp.backs lib mc) :
    key ∈ s.proxiesForChange lib e := by
  simp only [proxiesForChange, List.mem_toFinset, List.mem_flatMap]
  refine ⟨mc, hmc, List.mem_map.mpr ⟨rp, List.mem_filter.mpr ⟨?_, ?_⟩, hkey⟩⟩
  · exact List.mem_map.mpr ⟨⟨key, rp⟩, AList.mem_lookup_iff.mp hrp, rfl⟩
  · simp only [ReverseProxyServer.backs, Bool.and_eq_true, decide_eq_true_eq] at hbacks ⊢
    exact ⟨hbacks.1.symm, hbacks.2⟩

theorem Consistent.deliverServer (h : Consistent lib s)
    {e : Change NamespacedName MinecraftServer} {servers : Watched NamespacedName MinecraftServer}
    (hd : s.servers.deliver = some (e, servers)) :
    Consistent lib { s with
      servers := servers, queue := s.queue ∪ s.proxiesForChange lib e } where
  servers := h.servers.deliver hd
  proxies := h.proxies
  keyed := h.keyed
  rests key rp hrp hkept hdue := by
    obtain ⟨hstore, -, hpending⟩ := Watched.deliver_eq hd
    obtain ⟨hq, hp, hs⟩ := not_due_iff.mp hdue
    simp only [Finset.mem_union, not_or] at hq
    refine h.rests_of_calm hkept ⟨not_due_iff.mpr ⟨hq.1, hp, fun d hd mc hmc => ?_⟩, hrp, ?_⟩
    · rw [hpending] at hd
      rcases List.mem_cons.mp hd with rfl | hd
      · refine fun hv => hq.2 (mem_proxiesForChange ?_ (h.keyed key rp hrp) hv hmc)
        exact (h.proxies.lookup_eq hp).trans hrp
      · exact hs d hd mc hmc
    · rw [hstore]

theorem Consistent.deliverProxy (h : Consistent lib s)
    {e : Change NamespacedName ReverseProxyServer}
    {proxies : Watched NamespacedName ReverseProxyServer}
    (hd : s.proxies.deliver = some (e, proxies)) :
    Consistent lib { s with proxies := proxies, queue := insert e.key s.queue } := by
  obtain ⟨hstore, -, hpending⟩ := Watched.deliver_eq hd
  refine ⟨h.servers, h.proxies.deliver hd, fun key rp hrp => ?_, fun key rp hrp hkept hdue => ?_⟩
  · rw [hstore] at hrp
    exact h.keyed key rp hrp
  · rw [hstore] at hrp
    obtain ⟨hq, hp, hs⟩ := not_due_iff.mp hdue
    simp only [Finset.mem_insert, not_or] at hq
    refine h.rests_of_calm hkept ⟨not_due_iff.mpr ⟨hq.2, fun d hd => ?_, hs⟩, hrp, rfl⟩
    rw [hpending] at hd
    rcases List.mem_cons.mp hd with rfl | hd
    · exact fun hk => hq.1 hk.symm
    · exact hp d hd

theorem Consistent.wake (h : Consistent lib s) (k : NamespacedName) :
    Consistent lib { s with queue := insert k s.queue } where
  servers := h.servers
  proxies := h.proxies
  keyed := h.keyed
  rests key rp hrp hkept hdue := by
    obtain ⟨hq, hp, hs⟩ := not_due_iff.mp hdue
    simp only [Finset.mem_insert, not_or] at hq
    exact h.rests_of_calm hkept ⟨not_due_iff.mpr ⟨hq.2, hp, hs⟩, hrp, rfl⟩

theorem Consistent.begin (h : Consistent lib s) (k : NamespacedName) :
    Consistent lib { s with
      queue := s.queue.erase k
      running := Function.update s.running k (some (reconcileReverseProxyServer lib k).run) } where
  servers := h.servers
  proxies := h.proxies
  keyed := h.keyed
  rests key rp hrp hkept hdue := by
    by_cases hk : key = k
    · subst hk
      simp only [Function.update_self]
      exact reconcile_settles (h.keyed key rp hrp) hkept
    · obtain ⟨hq, hp, hs⟩ := not_due_iff.mp hdue
      simp only [Function.update_of_ne hk]
      have hq : key ∉ s.queue := fun hmem => hq (Finset.mem_erase.mpr ⟨hk, hmem⟩)
      exact h.rests_of_calm hkept ⟨not_due_iff.mpr ⟨hq, hp, hs⟩, hrp, rfl⟩

theorem Consistent.finish (h : Consistent lib s) {k : NamespacedName} {r : Except Error Unit}
    (hrun : s.running k = some (.pure r)) :
    Consistent lib { s with
      running := Function.update s.running k none
      queue := s.requeue k r } where
  servers := h.servers
  proxies := h.proxies
  keyed := h.keyed
  rests key rp hrp hkept hdue := by
    obtain ⟨hq, hp, hs⟩ := not_due_iff.mp hdue
    have hqueue : key ∉ s.queue := by
      cases r with
      | ok _ => exact hq
      | error e => exact fun hmem => hq (Finset.mem_insert_of_mem hmem)
    have calm : Calm lib s s key rp := ⟨not_due_iff.mpr ⟨hqueue, hp, hs⟩, hrp, rfl⟩
    have hcalm := h.rests_of_calm hkept calm
    by_cases hk : key = k
    · subst hk
      simp only [Function.update_self]
      rw [hrun] at hcalm
      cases r with
      | ok u => exact hcalm _ rfl rfl
      | error e => exact absurd (Finset.mem_insert_self key s.queue) hq
    · simp only [Function.update_of_ne hk]
      exact hcalm

/-- What a call is answered is what a run that is not disturbed may be answered. -/
theorem Consistent.undisturbed_serve {key : NamespacedName} {fate : Fate} {c : Call}
    (h : Consistent lib s) (hdue : ¬(s.serve fate c).2.Due lib key rp)
    (hrp : (s.serve fate c).2.proxies.store.lookup key = some rp) :
    Calm lib s (s.serve fate c).2 key rp ∧
      undisturbed lib key c (s.view lib rp) (s.serve fate c).1 (s.view lib rp) := by
  cases c with
  | getServer k => exact ⟨⟨hdue, hrp, rfl⟩, rfl, trivial⟩
  | get k => exact ⟨⟨hdue, hrp, rfl⟩, rfl, trivial⟩
  | apply k obj => exact ⟨⟨hdue, hrp, rfl⟩, rfl, trivial⟩
  | delete k => exact ⟨⟨hdue, hrp, rfl⟩, rfl, trivial⟩
  | patchServerStatus k patch => exact ⟨⟨hdue, hrp, rfl⟩, rfl, trivial⟩
  | getProxy k =>
    refine ⟨⟨hdue, hrp, rfl⟩, rfl, fun hk => ?_⟩
    subst hk
    simp only [serve, handle, cache, h.lookup_replica hdue hrp]
    rfl
  | listServers ns selector =>
    refine ⟨⟨hdue, hrp, rfl⟩, rfl, fun hns hselector servers hservers => ?_⟩
    change rp.selector lib = .ok selector at hselector
    have hlist : servers = (s.servers.replica.entries.map (·.2)).filter (rp.backs lib) := by
      rw [← Except.ok.inj hservers]
      refine List.filter_congr fun mc _ => ?_
      rw [ReverseProxyServer.backs, matchesBackend_eq hselector, hns]
      rfl
    rw [hlist]
    exact h.expected_replica hdue
  | patchProxyStatus k patch =>
    have hwritten : ∀ r, (s.serve fate (.patchProxyStatus k patch)) = (r, { s with
        proxies := s.proxies.change k
          ((handle (.patchProxyStatus k patch) s.api).2.proxies.lookup k) }) →
        Calm lib s (s.serve fate (.patchProxyStatus k patch)).2 key rp ∧
          (k = key → ReverseProxyServerStatus.ofDocument (patch.apply rp.status.document) =
            rp.status) := by
      intro r hserve
      rw [hserve] at hdue hrp ⊢
      have hcalm := calm_changeProxy hdue hrp
      refine ⟨hcalm, fun hk => ?_⟩
      subst hk
      have hsame := Watched.eq_of_change (not_due_iff.mp hdue).2.1
      have hlookup : s.api.proxies.lookup k = some rp := hcalm.stored
      simp only [handle, hlookup, AList.lookup_insert] at hsame
      exact (congrArg ReverseProxyServer.status
        (Option.some.inj (hcalm.stored.symm.trans hsame))).symm
    cases hfault : fate.fault with
    | none =>
      obtain ⟨hcalm, hpatch⟩ := hwritten (handle (.patchProxyStatus k patch) s.api).1
        (by simp only [serve, patched, hfault])
      exact ⟨hcalm, rfl, fun hk _ => hpatch hk⟩
    | some fault =>
      obtain ⟨e, effect⟩ := fault
      cases effect with
      | true =>
        obtain ⟨hcalm, hpatch⟩ := hwritten (.error e) (by simp only [serve, patched, hfault])
        exact ⟨hcalm, rfl, fun hk _ => hpatch hk⟩
      | false =>
        have hserve : s.serve fate (.patchProxyStatus k patch) = (.error e, s) := by
          simp only [serve, patched, hfault]
        rw [hserve] at hdue hrp ⊢
        exact ⟨⟨hdue, hrp, rfl⟩, rfl, by simp⟩

/-- What is done for a call is nothing, or a change of a proxy. -/
theorem Consistent.serve (h : Consistent lib s) (fate : Fate) (c : Call) :
    Consistent lib (s.serve fate c).2 ∧ (s.serve fate c).2.running = s.running := by
  cases c with
  | patchProxyStatus k patch =>
    have hnew : ∀ rp ∈ (handle (.patchProxyStatus k patch) s.api).2.proxies.lookup k,
        rp.metadata.key = k := by
      intro rp hrp
      cases hk : s.api.proxies.lookup k with
      | none => simp [handle, hk] at hrp
      | some rp' =>
        simp only [handle, hk, AList.lookup_insert, Option.mem_def, Option.some.injEq] at hrp
        rw [← hrp]
        exact h.keyed k rp' hk
    simp only [Machine.serve, patched]
    split
    · exact ⟨h.changeProxy hnew, rfl⟩
    · exact ⟨h.changeProxy hnew, rfl⟩
    · exact ⟨h, rfl⟩
  | _ => exact ⟨h, rfl⟩

/-- A call of a run. -/
theorem Consistent.call (h : Consistent lib s) {k : NamespacedName} {c : Call}
    {f : Settled Error Answer c → Prog Call (Settled Error Answer) (Except Error Unit)}
    (hrun : s.running k = some (.call c f)) (fate : Fate) :
    Consistent lib { (s.serve fate c).2 with
      running := Function.update s.running k (some (f (s.serve fate c).1)) } := by
  obtain ⟨h', hrunning⟩ := h.serve fate c
  refine ⟨h'.servers, h'.proxies, h'.keyed, fun key rp hrp hkept hdue => ?_⟩
  by_cases hk : key = k
  · subst hk
    simp only [Function.update_self]
    obtain ⟨hcalm, hanswer⟩ := h.undisturbed_serve hdue hrp
    have hsettles := h.rests key rp hcalm.stored hkept hcalm.due
    rw [hrun] at hsettles
    have hview : view lib (s.serve fate c).2 rp = s.view lib rp := by
      rw [view, ← hcalm.expected]
      rfl
    exact hview ▸ (hsettles _ rfl _ _ hanswer).2
  · simp only [Function.update_of_ne hk]
    rw [← hrunning]
    exact h'.rests key rp hrp hkept hdue

theorem Consistent.next (h : Consistent lib s) {a : Action} (ha : s.next lib a = some s') :
    Consistent lib s' := by
  cases a with
  | changeServer k new =>
    simp only [Machine.next] at ha
    split_ifs at ha
    exact Option.some.inj ha ▸ h.changeServer k new
  | changeProxy k new =>
    simp only [Machine.next] at ha
    split_ifs at ha with hnew
    exact Option.some.inj ha ▸ h.changeProxy hnew
  | reflectServer => exact Option.some.inj ha ▸ h.reflectServer
  | reflectProxy => exact Option.some.inj ha ▸ h.reflectProxy
  | deliverServer =>
    simp only [Machine.next] at ha
    split at ha
    · cases ha
    · exact Option.some.inj ha ▸ h.deliverServer ‹_›
  | deliverProxy =>
    simp only [Machine.next] at ha
    split at ha
    · cases ha
    · exact Option.some.inj ha ▸ h.deliverProxy ‹_›
  | wake k => exact Option.some.inj ha ▸ h.wake k
  | begin k =>
    simp only [Machine.next] at ha
    split_ifs at ha
    exact Option.some.inj ha ▸ h.begin k
  | call k fate =>
    simp only [Machine.next] at ha
    split at ha
    · exact Option.some.inj ha ▸ h.call ‹_› fate
    · cases ha
  | finish k =>
    simp only [Machine.next] at ha
    split at ha
    · exact Option.some.inj ha ▸ h.finish ‹_›
    · cases ha

theorem Reachable.consistent (h : Reachable lib s) : Consistent lib s := by
  induction h with
  | refl => exact consistent_initial
  | tail _ hstep ih =>
    obtain ⟨a, ha⟩ := hstep
    exact ih.next ha

end Machine

/-- In every reachable state, for every proxy that is to be kept up to date and is neither
queued nor being reconciled nor the target of an undelivered change: its backends are the
sorted names of the servers in its namespace that its selector selects, each of which is a
match when an event arrives. -/
theorem backends_not_stale {s : Machine} {key : NamespacedName} {selector : Labels → Bool}
    (reachable : s.Reachable lib) (hrp : s.proxies.store.lookup key = some rp)
    (hdeleting : rp.metadata.deleting = false) (haccepted : rp.Accepted)
    (hselector : rp.selector lib = .ok selector) (hdue : ¬s.Due lib key rp)
    (hidle : s.running key = none) :
    let servers := (s.servers.store.entries.map (·.2)).filter fun mc =>
      mc.metadata.ns = rp.metadata.ns && selector mc.metadata.labels
    rp.status.backends = sortStrings (servers.map (·.metadata.name)) ∧
      ∀ mc ∈ servers, rp.matchesBackend lib mc := by
  have hmatch := matchesBackend_eq hselector
  refine ⟨?_, fun mc hmc => ?_⟩
  · have hrests := reachable.consistent.rests key rp hrp ⟨hdeleting, haccepted, _, hselector⟩ hdue
    rw [hidle] at hrests
    have hbacks : rp.backs lib = fun mc =>
        decide (mc.metadata.ns = rp.metadata.ns) && selector mc.metadata.labels :=
      funext fun mc => by rw [ReverseProxyServer.backs, hmatch]
    refine hrests.trans ?_
    rw [Machine.view, ReverseProxyServer.expected, hbacks]
  · rw [hmatch]
    have h := (List.mem_filter.mp hmc).2
    simp only [Bool.and_eq_true] at h
    exact h.2

namespace Machine

/-- The state after a list of actions, if all of them are possible. -/
def after (lib : Library) (s : Machine) : List Action → Option Machine
  | [] => some s
  | a :: rest => (s.next lib a).bind fun s' => s'.after lib rest

theorem reachable_of_after {s s' : Machine} {actions : List Action} (hs : s.Reachable lib)
    (h : s.after lib actions = some s') : s'.Reachable lib := by
  induction actions generalizing s with
  | nil => exact Option.some.inj h ▸ hs
  | cons a rest ih =>
    obtain ⟨t, ht, h⟩ := Option.bind_eq_some_iff.mp h
    exact ih (hs.tail ⟨a, ht⟩) h

/-- Objects are written, and none is ever found. -/
def smooth : Fate where
  object
    | .apply .. | .delete _ => .ok ()
    | _ => .error (notFoundError ⟨"", ""⟩)
  fault := none

def lobby : MinecraftServer where
  metadata := {
    name := "lobby", ns := "minikura", uid := "uid-lobby", generation := 1, deleting := false
    labels := [("tier", "lobby")] }
  spec := { type := "STATELESS", listenPort := 25565 }

def gate : ReverseProxyServer where
  metadata := {
    name := "gate", ns := "minikura", uid := "uid-gate", generation := 1, deleting := false
    labels := [] }
  spec := {
    type := "VELOCITY", externalPort := 25565, listenPort := 25577
    backendSelector := some { matchLabels := [("tier", "lobby")] } }

/-- One `Reconcile` of the proxy, from the queue to its end. -/
def reconcileGate : List Action :=
  .begin gate.metadata.key :: List.replicate 12 (.call gate.metadata.key smooth) ++
    [.finish gate.metadata.key]

/-- A server and a proxy are created and taken notice of. -/
def settling : List Action :=
  [.changeServer lobby.metadata.key (some lobby), .changeProxy gate.metadata.key (some gate),
    .reflectServer, .deliverServer, .reflectProxy, .deliverProxy] ++ reconcileGate ++
    [.reflectProxy, .deliverProxy] ++ reconcileGate

def settled : Machine := (initial.after plainLibrary settling).getD initial

theorem settled_reachable : settled.Reachable plainLibrary := by
  have hsome : (initial.after plainLibrary settling).isSome := by decide +kernel
  obtain ⟨s, hs⟩ := Option.isSome_iff_exists.mp hsome
  rw [settled, hs, Option.getD_some]
  exact reachable_of_after .refl hs

theorem settled_not_due {rp : ReverseProxyServer} :
    ¬settled.Due plainLibrary gate.metadata.key rp := by
  have hqueue : settled.queue = ∅ := by decide +kernel
  have hproxies : settled.proxies.pending = [] := by decide +kernel
  have hservers : settled.servers.pending = [] := by decide +kernel
  simp [Due, hqueue, hproxies, hservers]

end Machine

open Machine in
theorem backends_not_stale_settled : ∃ rp,
    settled.proxies.store.lookup gate.metadata.key = some rp ∧
    ∃ selector, rp.selector plainLibrary = .ok selector ∧
      let servers := (settled.servers.store.entries.map (·.2)).filter fun mc =>
        mc.metadata.ns = rp.metadata.ns && selector mc.metadata.labels
      rp.status.backends = sortStrings (servers.map (·.metadata.name)) ∧
        ∀ mc ∈ servers, rp.matchesBackend plainLibrary mc := by
  have hstored : (settled.proxies.store.lookup gate.metadata.key).map
      (fun rp => (rp.metadata.deleting, rp.spec)) = some (false, gate.spec) := by decide +kernel
  obtain ⟨rp, hrp, hshape⟩ := Option.map_eq_some_iff.mp hstored
  rw [Prod.mk.injEq] at hshape
  have haccepted : rp.Accepted := by
    rw [ReverseProxyServer.Accepted, hshape.2]
    decide
  obtain ⟨selector, hselector⟩ : ∃ selector, rp.selector plainLibrary = .ok selector := by
    rw [ReverseProxyServer.selector, hshape.2]
    exact ⟨_, rfl⟩
  exact ⟨rp, hrp, selector, hselector, backends_not_stale settled_reachable hrp hshape.1 haccepted
    hselector settled_not_due (by decide +kernel)⟩

end Minikura.Operator
