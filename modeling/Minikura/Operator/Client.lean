import Minikura.Concurrency.Observation
import Minikura.Data.MergePatch
import Minikura.Data.OrderedMap
import Minikura.Operator.Types

/-!
# The API server as the controllers see it

The requests a controller makes, each atomic, and what an API server answers. A status
is patched by a merge patch of its fields; an object is written by a forced server-side
apply, which the server rejects when it would give the object a second controller.

## Main definitions

* `Call`, `Answer`, `handle` — the requests and what they do.
* `api`, `flakyApi` — the API server, and one on which any request may fail.
-/

namespace Minikura.Operator
open Concurrency

/-! ## Status documents -/

inductive StatusField where
  | phase
  | message
  | readyReplicas
  | replicas
  | endpoint
  | backends
  | observedGeneration
  | conditions
deriving Repr, DecidableEq

inductive FieldValue where
  | str (s : String)
  | num (n : Int)
  | strs (ss : List String)
  | conditions (cs : List Condition)
deriving Repr, DecidableEq

abbrev StatusDocument := Document StatusField FieldValue
abbrev StatusPatch := MergePatch StatusField FieldValue

namespace FieldValue

/-! A zero value is left out of the document, and read where the document has none. -/

def ofString (s : String) : Option FieldValue := if s = "" then none else some (.str s)
def ofInt (n : Int) : Option FieldValue := if n = 0 then none else some (.num n)
def ofStrings (ss : List String) : Option FieldValue := if ss = [] then none else some (.strs ss)
def ofConditions (cs : List Condition) : Option FieldValue :=
  if cs = [] then none else some (.conditions cs)

def toString? : Option FieldValue → String
  | some (.str s) => s
  | _ => ""

def toInt? : Option FieldValue → Int
  | some (.num n) => n
  | _ => 0

def toStrings? : Option FieldValue → List String
  | some (.strs ss) => ss
  | _ => []

def toConditions? : Option FieldValue → List Condition
  | some (.conditions cs) => cs
  | _ => []

@[simp] theorem toString?_ofString (s : String) : toString? (ofString s) = s := by
  unfold ofString
  split_ifs with h
  · exact h.symm
  · rfl

@[simp] theorem toInt?_ofInt (n : Int) : toInt? (ofInt n) = n := by
  unfold ofInt
  split_ifs with h
  · exact h.symm
  · rfl

@[simp] theorem toStrings?_ofStrings (ss : List String) : toStrings? (ofStrings ss) = ss := by
  unfold ofStrings
  split_ifs with h
  · exact h.symm
  · rfl

@[simp] theorem toConditions?_ofConditions (cs : List Condition) :
    toConditions? (ofConditions cs) = cs := by
  unfold ofConditions
  split_ifs with h
  · exact h.symm
  · rfl

end FieldValue

open FieldValue

def MinecraftServerStatus.document (s : MinecraftServerStatus) : StatusDocument
  | .phase => ofString s.phase
  | .message => ofString s.message
  | .readyReplicas => ofInt s.readyReplicas
  | .replicas => ofInt s.replicas
  | .endpoint => ofString s.endpoint
  | .backends => none
  | .observedGeneration => ofInt s.observedGeneration
  | .conditions => ofConditions s.conditions

def MinecraftServerStatus.ofDocument (d : StatusDocument) : MinecraftServerStatus where
  phase := toString? (d .phase)
  message := toString? (d .message)
  readyReplicas := toInt? (d .readyReplicas)
  replicas := toInt? (d .replicas)
  endpoint := toString? (d .endpoint)
  observedGeneration := toInt? (d .observedGeneration)
  conditions := toConditions? (d .conditions)

def ReverseProxyServerStatus.document (s : ReverseProxyServerStatus) : StatusDocument
  | .backends => ofStrings s.backends
  | field => s.toMinecraftServerStatus.document field

def ReverseProxyServerStatus.ofDocument (d : StatusDocument) : ReverseProxyServerStatus where
  toMinecraftServerStatus := .ofDocument d
  backends := toStrings? (d .backends)

/-- Nothing of a status is lost in its document. -/
@[simp] theorem MinecraftServerStatus.ofDocument_document (s : MinecraftServerStatus) :
    ofDocument s.document = s := by
  simp [ofDocument, document]

@[simp] theorem ReverseProxyServerStatus.ofDocument_document (s : ReverseProxyServerStatus) :
    ofDocument s.document = s := by
  simp [ofDocument, document, MinecraftServerStatus.ofDocument, MinecraftServerStatus.document]

/-! ## Calls -/

inductive Call where
  | getServer (key : NamespacedName)
  | getProxy (key : NamespacedName)
  | get (key : ObjectKey)
  | apply (key : ObjectKey) (object : Object key.kind)
  | delete (key : ObjectKey)
  | listServers (ns : String) (selector : Labels → Bool)
  | patchServerStatus (key : NamespacedName) (patch : StatusPatch)
  | patchProxyStatus (key : NamespacedName) (patch : StatusPatch)

abbrev Answer : Call → Type
  | .getServer _ => MinecraftServer
  | .getProxy _ => ReverseProxyServer
  | .get key => Object key.kind
  | .listServers _ _ => List MinecraftServer
  | _ => Unit

/-- Computations of a controller. -/
abbrev Task (α : Type) := Async Error Answer α

/-- Make a call. -/
def await (c : Call) : Task (Answer c) := Async.await c

def Task.ofExcept {α : Type} (r : Except Error α) : Task α := ExceptT.mk (.pure r)

@[simp] theorem Task.run_ofExcept {α : Type} (r : Except Error α) :
    (Task.ofExcept r).run = .pure r := rfl

/-! ## The API server -/

structure Cluster where
  servers : AList fun _ : NamespacedName => MinecraftServer
  proxies : AList fun _ : NamespacedName => ReverseProxyServer
  objects : AList fun key : ObjectKey => Object key.kind

def Cluster.empty : Cluster := ⟨∅, ∅, ∅⟩

def notFoundError (key : NamespacedName) : Error :=
  { message := key.name ++ " not found", notFound := true }

def secondControllerError : Error :=
  { message := "Only one reference can have Controller set to true" }

/-- The status of an object is not touched by an apply. -/
def Body.withStatus : {kind : ObjectKind} → (old new : Body kind) → Body kind
  | .configMap, _, new => new
  | .service, old, new => { new with ingress := old.ingress }
  | .deployment, old, new =>
    { new with readyReplicas := old.readyReplicas, replicas := old.replicas }
  | .statefulSet, old, new =>
    { new with readyReplicas := old.readyReplicas, replicas := old.replicas }

/-- What an apply makes of an object that is there. -/
def Object.merge {kind : ObjectKind} (old new : Object kind) : Object kind where
  labels := setEntries old.labels new.labels
  controller := new.controller.or old.controller
  body := old.body.withStatus new.body

/-- An apply may not name a controller where there is another one. -/
def Object.accepts {kind : ObjectKind} (old new : Object kind) : Bool :=
  old.controller.all fun c => new.controller.all (· = c)

def handle : (c : Call) → Cluster → Settled Error Answer c × Cluster
  | .getServer key, s =>
    match s.servers.lookup key with
    | some mc => (.ok mc, s)
    | none => (.error (notFoundError key), s)
  | .getProxy key, s =>
    match s.proxies.lookup key with
    | some rp => (.ok rp, s)
    | none => (.error (notFoundError key), s)
  | .get key, s =>
    match s.objects.lookup key with
    | some obj => (.ok obj, s)
    | none => (.error (notFoundError ⟨key.ns, key.name⟩), s)
  | .apply key new, s =>
    match s.objects.lookup key with
    | none => (.ok (), { s with objects := s.objects.insert key new })
    | some old =>
      if old.accepts new then
        (.ok (), { s with objects := s.objects.insert key (old.merge new) })
      else (.error secondControllerError, s)
  | .delete key, s =>
    if (s.objects.lookup key).isSome then
      (.ok (), { s with objects := s.objects.erase key })
    else (.error (notFoundError ⟨key.ns, key.name⟩), s)
  | .listServers ns selector, s =>
    (.ok ((s.servers.entries.map (·.2)).filter fun mc =>
      mc.metadata.ns = ns && selector mc.metadata.labels), s)
  | .patchServerStatus key patch, s =>
    match s.servers.lookup key with
    | none => (.error (notFoundError key), s)
    | some mc =>
      let status := .ofDocument (patch.apply mc.status.document)
      (.ok (), { s with servers := s.servers.insert key { mc with status := status } })
  | .patchProxyStatus key patch, s =>
    match s.proxies.lookup key with
    | none => (.error (notFoundError key), s)
    | some rp =>
      let status := .ofDocument (patch.apply rp.status.document)
      (.ok (), { s with proxies := s.proxies.insert key { rp with status := status } })

/-- The API server, as long as no request fails. -/
abbrev api : Handler Call (Settled Error Answer) Cluster := .ofFun handle

/-- Any request may fail, its effect taking place or not; but that something is not found
is the truth. -/
abbrev flakyApi : Handler Call (Settled Error Answer) Cluster :=
  api.lossy.restrict fun c s r s' => ∀ e, r = .error e → e.notFound → api c s r s'

section Answers

variable {μ : Type} (obs : (c : Call) → Cluster → Settled Error Answer c → μ → μ)

/-- The answers of an API server on which nothing fails, with a record of the calls. -/
def answers (c : Call) (x : Cluster × μ) : Option (Settled Error Answer c × (Cluster × μ)) :=
  let answer := handle c x.1
  some (answer.1, answer.2, obs c x.1 answer.1 x.2)

theorem flakyApi_of_answers (c : Call) (x : Cluster × μ) (r : Settled Error Answer c)
    (y : Cluster × μ) (h : answers obs c x = some (r, y)) : flakyApi.observe obs c x r y := by
  cases Option.some.inj h
  exact ⟨⟨.inl rfl, fun _ _ _ => rfl⟩, rfl⟩

end Answers

/-! ## Objects and their controllers -/

namespace Cluster

/-- The controller of an object, if the object exists. -/
def controllerOf (s : Cluster) (k : ObjectKey) : Option (Option String) :=
  (s.objects.lookup k).map (·.controller)

def Controls (s : Cluster) (uid : String) (k : ObjectKey) : Prop :=
  s.controllerOf k = some (some uid)

end Cluster

section Calls

variable {c : Call} {s s' : Cluster} {r : Settled Error Answer c} {uid : String}

/-- A request that fails may have been carried out, one that succeeds has been, and what
is said to be missing is missing. -/
structure FlakyStep (c : Call) (s : Cluster) (r : Settled Error Answer c) (s' : Cluster) :
    Prop where
  state : s' = s ∨ s' = (handle c s).2
  ok : ∀ a, r = .ok a → handle c s = (.ok a, s')
  notFound : ∀ e, r = .error e → e.notFound → handle c s = (.error e, s')

theorem flakyStep_of_flakyApi (h : flakyApi c s r s') : FlakyStep c s r s' := by
  obtain ⟨hlossy, hnot⟩ := h
  obtain ⟨hstate, hok⟩ := Handler.of_lossy hlossy
  exact ⟨hstate, hok, fun e he hn => he ▸ hnot e he hn⟩

theorem handle_get (k : ObjectKey) (s : Cluster) : (handle (.get k) s).2 = s := by
  simp only [handle]
  cases s.objects.lookup k <;> rfl

theorem handle_getServer (k : NamespacedName) (s : Cluster) :
    (handle (.getServer k) s).2 = s := by
  simp only [handle]
  cases s.servers.lookup k <;> rfl

theorem handle_getProxy (k : NamespacedName) (s : Cluster) :
    (handle (.getProxy k) s).2 = s := by
  simp only [handle]
  cases s.proxies.lookup k <;> rfl

/-- The calls that write a resource. -/
def Call.patchesStatus : Call → Bool
  | .patchServerStatus .. | .patchProxyStatus .. => true
  | _ => false

theorem resources_handle {c : Call} (hc : c.patchesStatus = false) (s : Cluster) :
    (handle c s).2.servers = s.servers ∧ (handle c s).2.proxies = s.proxies := by
  cases c with
  | get k =>
    rw [handle_get]
    exact ⟨rfl, rfl⟩
  | getServer k =>
    rw [handle_getServer]
    exact ⟨rfl, rfl⟩
  | getProxy k =>
    rw [handle_getProxy]
    exact ⟨rfl, rfl⟩
  | listServers => exact ⟨rfl, rfl⟩
  | apply k new =>
    simp only [handle]
    cases s.objects.lookup k with
    | none => exact ⟨rfl, rfl⟩
    | some old =>
      dsimp only
      split_ifs <;> exact ⟨rfl, rfl⟩
  | delete k =>
    simp only [handle]
    split_ifs <;> exact ⟨rfl, rfl⟩
  | patchServerStatus => cases hc
  | patchProxyStatus => cases hc

/-- No call removes a resource or touches more of it than the status. -/
theorem handle_server (c : Call) {s : Cluster} {k : NamespacedName} {mc : MinecraftServer}
    (h : s.servers.lookup k = some mc) :
    ∃ status, (handle c s).2.servers.lookup k = some { mc with status := status } := by
  cases hc : c.patchesStatus with
  | false => exact ⟨mc.status, by rw [(resources_handle hc s).1, h]⟩
  | true =>
    cases c with
    | patchServerStatus l patch =>
      simp only [handle]
      cases hl : s.servers.lookup l with
      | none => exact ⟨mc.status, h⟩
      | some mc' =>
        by_cases hk : k = l
        · subst hk
          obtain rfl : mc = mc' := Option.some.inj (h.symm.trans hl)
          exact ⟨_, AList.lookup_insert _⟩
        · exact ⟨mc.status, (AList.lookup_insert_ne hk).trans h⟩
    | patchProxyStatus l patch =>
      simp only [handle]
      cases s.proxies.lookup l <;> exact ⟨mc.status, h⟩
    | _ => cases hc

theorem handle_proxy (c : Call) {s : Cluster} {k : NamespacedName} {rp : ReverseProxyServer}
    (h : s.proxies.lookup k = some rp) :
    ∃ status, (handle c s).2.proxies.lookup k = some { rp with status := status } := by
  cases hc : c.patchesStatus with
  | false => exact ⟨rp.status, by rw [(resources_handle hc s).2, h]⟩
  | true =>
    cases c with
    | patchServerStatus l patch =>
      simp only [handle]
      cases s.servers.lookup l <;> exact ⟨rp.status, h⟩
    | patchProxyStatus l patch =>
      simp only [handle]
      cases hl : s.proxies.lookup l with
      | none => exact ⟨rp.status, h⟩
      | some rp' =>
        by_cases hk : k = l
        · subst hk
          obtain rfl : rp = rp' := Option.some.inj (h.symm.trans hl)
          exact ⟨_, AList.lookup_insert _⟩
        · exact ⟨rp.status, (AList.lookup_insert_ne hk).trans h⟩
    | _ => cases hc

/-- The calls that write no object. -/
def Call.calm : Call → Bool
  | .apply .. | .delete .. => false
  | _ => true

theorem objects_handle_of_calm (hc : c.calm) (s : Cluster) :
    (handle c s).2.objects = s.objects := by
  cases c with
  | get k => rw [handle_get]
  | getServer k => rw [handle_getServer]
  | getProxy k => rw [handle_getProxy]
  | listServers => rfl
  | patchServerStatus k patch =>
    simp only [handle]
    cases s.servers.lookup k <;> rfl
  | patchProxyStatus k patch =>
    simp only [handle]
    cases s.proxies.lookup k <;> rfl
  | apply => cases hc
  | delete => cases hc

theorem controllerOf_insert_self (s : Cluster) (k : ObjectKey) (obj : Object k.kind) :
    Cluster.controllerOf { s with objects := s.objects.insert k obj } k =
      some obj.controller := by
  rw [Cluster.controllerOf, AList.lookup_insert, Option.map_some]

theorem controllerOf_insert_ne (s : Cluster) {k l : ObjectKey} (obj : Object k.kind)
    (h : l ≠ k) : Cluster.controllerOf { s with objects := s.objects.insert k obj } l =
      s.controllerOf l := by
  rw [Cluster.controllerOf, AList.lookup_insert_ne h, Cluster.controllerOf]

/-- An apply puts the object under its controller, or is rejected. -/
theorem handle_apply {k : ObjectKey} {new : Object k.kind} (hnew : new.controller = some uid) :
    (handle (.apply k new) s).2 = s ∧ (∀ u, (handle (.apply k new) s).1 ≠ .ok u) ∨
      ∃ obj : Object k.kind, obj.controller = some uid ∧
        (handle (.apply k new) s).2 = { s with objects := s.objects.insert k obj } := by
  simp only [handle]
  cases s.objects.lookup k with
  | none => exact .inr ⟨new, hnew, rfl⟩
  | some old =>
    dsimp only
    split_ifs
    · exact .inr ⟨old.merge new, by simp [Object.merge, hnew], rfl⟩
    · exact .inl ⟨rfl, nofun⟩

theorem handle_delete (k : ObjectKey) (s : Cluster) :
    (handle (.delete k) s).2.controllerOf k = none ∧
      ∀ l, l ≠ k → (handle (.delete k) s).2.controllerOf l = s.controllerOf l := by
  simp only [handle]
  split_ifs with hk
  · refine ⟨?_, fun l hl => ?_⟩
    · rw [Cluster.controllerOf, AList.lookup_erase, Option.map_none]
    · rw [Cluster.controllerOf, AList.lookup_erase_ne hl, Cluster.controllerOf]
  · refine ⟨?_, fun _ _ => rfl⟩
    rw [Cluster.controllerOf, Option.not_isSome_iff_eq_none.mp hk, Option.map_none]

theorem FlakyStep.resources (h : FlakyStep c s r s') (hc : c.patchesStatus = false) :
    s'.servers = s.servers ∧ s'.proxies = s.proxies := by
  rcases h.state with rfl | rfl
  · exact ⟨rfl, rfl⟩
  · exact resources_handle hc s

theorem FlakyStep.server (h : FlakyStep c s r s') {k : NamespacedName} {mc : MinecraftServer}
    (hk : s.servers.lookup k = some mc) :
    ∃ status, s'.servers.lookup k = some { mc with status := status } := by
  rcases h.state with rfl | rfl
  · exact ⟨mc.status, hk⟩
  · exact handle_server c hk

theorem FlakyStep.proxy (h : FlakyStep c s r s') {k : NamespacedName} {rp : ReverseProxyServer}
    (hk : s.proxies.lookup k = some rp) :
    ∃ status, s'.proxies.lookup k = some { rp with status := status } := by
  rcases h.state with rfl | rfl
  · exact ⟨rp.status, hk⟩
  · exact handle_proxy c hk

/-- What is read of a proxy that is there. -/
theorem FlakyStep.getProxy {k : NamespacedName} {rp : ReverseProxyServer}
    {r : Settled Error Answer (.getProxy k)} (h : FlakyStep (.getProxy k) s r s')
    (hk : s.proxies.lookup k = some rp) :
    (∀ rp', r = .ok rp' → rp' = rp) ∧ ∀ e, r = .error e → ¬e.notFound := by
  have hread : handle (.getProxy k) s = (.ok rp, s) := by simp [handle, hk]
  refine ⟨fun rp' hr => ?_, fun e hr he => ?_⟩
  · exact Except.ok.inj (congrArg Prod.fst ((h.ok rp' hr).symm.trans hread))
  · cases congrArg Prod.fst ((h.notFound e hr he).symm.trans hread)

theorem FlakyStep.getServer {k : NamespacedName} {mc : MinecraftServer}
    {r : Settled Error Answer (.getServer k)} (h : FlakyStep (.getServer k) s r s')
    (hk : s.servers.lookup k = some mc) :
    (∀ mc', r = .ok mc' → mc' = mc) ∧ ∀ e, r = .error e → ¬e.notFound := by
  have hread : handle (.getServer k) s = (.ok mc, s) := by simp [handle, hk]
  refine ⟨fun mc' hr => ?_, fun e hr he => ?_⟩
  · exact Except.ok.inj (congrArg Prod.fst ((h.ok mc' hr).symm.trans hread))
  · cases congrArg Prod.fst ((h.notFound e hr he).symm.trans hread)

theorem FlakyStep.objects (h : FlakyStep c s r s') (hc : c.calm) : s'.objects = s.objects := by
  rcases h.state with rfl | rfl
  · rfl
  · exact objects_handle_of_calm hc s

theorem controllerOf_of_objects_eq (h : s'.objects = s.objects) (k : ObjectKey) :
    s'.controllerOf k = s.controllerOf k := by
  rw [Cluster.controllerOf, h, Cluster.controllerOf]

/-- What an apply with a controller leaves behind. -/
theorem FlakyStep.apply {k : ObjectKey} {new : Object k.kind}
    {r : Settled Error Answer (.apply k new)} (h : FlakyStep (.apply k new) s r s')
    (hnew : new.controller = some uid) :
    (∀ l, s'.controllerOf l = s.controllerOf l ∨ l = k ∧ s'.Controls uid l) ∧
      (r = .ok () → s'.Controls uid k) := by
  rcases handle_apply (s := s) hnew with ⟨hstate, hno⟩ | ⟨obj, hobj, hstate⟩
  · refine ⟨fun l => .inl ?_, fun hr => ?_⟩
    · rcases h.state with rfl | rfl
      · rfl
      · rw [hstate]
    · exact absurd (congrArg Prod.fst (h.ok () hr)) (hno ())
  · have hset : (handle (.apply k new) s).2.Controls uid k := by
      rw [hstate, Cluster.Controls, controllerOf_insert_self, hobj]
    refine ⟨fun l => ?_, fun hr => ?_⟩
    · rcases h.state with rfl | rfl
      · exact .inl rfl
      · by_cases hl : l = k
        · exact .inr ⟨hl, hl ▸ hset⟩
        · rw [hstate]
          exact .inl (controllerOf_insert_ne s obj hl)
    · have hs : (handle (.apply k new) s).2 = s' := congrArg Prod.snd (h.ok () hr)
      exact hs ▸ hset

/-- An apply takes nothing away. -/
theorem FlakyStep.exists_of_apply {k l : ObjectKey} {new : Object k.kind}
    {r : Settled Error Answer (.apply k new)} (h : FlakyStep (.apply k new) s r s')
    (hnew : new.controller = some uid) (hl : s.controllerOf l ≠ none) :
    s'.controllerOf l ≠ none := by
  rcases (h.apply hnew).1 l with hsame | ⟨-, hset⟩
  · rwa [hsame]
  · exact fun hnone => Option.some_ne_none _ (hset.symm.trans hnone)

/-- What a deletion leaves behind. -/
theorem FlakyStep.delete {k : ObjectKey} {r : Settled Error Answer (.delete k)}
    (h : FlakyStep (.delete k) s r s') :
    (∀ l, l ≠ k → s'.controllerOf l = s.controllerOf l) ∧
      (ignoreNotFound r = .ok () → s'.controllerOf k = none) := by
  obtain ⟨hk, hl⟩ := handle_delete k s
  refine ⟨fun l hne => ?_, fun hr => ?_⟩
  · rcases h.state with rfl | rfl
    · rfl
    · exact hl l hne
  · cases r with
    | ok u =>
      have hs : (handle (.delete k) s).2 = s' := congrArg Prod.snd (h.ok u rfl)
      exact hs ▸ hk
    | error e =>
      unfold ignoreNotFound at hr
      dsimp only at hr
      split_ifs at hr with he
      have hs : (handle (.delete k) s).2 = s' := congrArg Prod.snd (h.notFound e rfl he)
      exact hs ▸ hk

/-- A deletion takes nothing away but the object, here one under a controller. -/
theorem FlakyStep.exists_of_delete {k l : ObjectKey} {r : Settled Error Answer (.delete k)}
    (h : FlakyStep (.delete k) s r s') (hk : s.Controls uid k) (hl : s.controllerOf l ≠ none)
    (hc : ¬s.Controls uid l) : s'.controllerOf l ≠ none := by
  rwa [h.delete.1 l fun he => hc (he ▸ hk)]

/-- What a read of an object says about it. -/
theorem FlakyStep.get {k : ObjectKey} {r : Settled Error Answer (.get k)}
    (h : FlakyStep (.get k) s r s') :
    s' = s ∧ (∀ obj, r = .ok obj → s.controllerOf k = some obj.controller) ∧
      ∀ e, r = .error e → e.notFound → s.controllerOf k = none := by
  have hstate : s' = s := by
    rcases h.state with rfl | rfl
    · rfl
    · exact handle_get k s
  refine ⟨hstate, ?_, ?_⟩
  · rintro obj rfl
    have hget := congrArg Prod.fst (h.ok obj rfl)
    simp only [handle] at hget
    cases hk : s.objects.lookup k with
    | none => simp [hk] at hget
    | some o =>
      simp only [hk, Except.ok.injEq] at hget
      rw [Cluster.controllerOf, hk, hget, Option.map_some]
  · rintro e rfl he
    have hget := congrArg Prod.fst (h.notFound e rfl he)
    simp only [handle] at hget
    cases hk : s.objects.lookup k with
    | none => rw [Cluster.controllerOf, hk, Option.map_none]
    | some o => simp [hk] at hget

end Calls

end Minikura.Operator
