import Minikura.Backend.Connections
import Minikura.Operator.Resources

/-!
# Names of resources

Backend, topology page and operator compute the same names, and what the operator
generates for one custom resource is never taken for an object of another.

## Main definitions

* `Agrees` — the four computations of the names of a resource.
* `CustomResource` — a server or a proxy; `CustomResource.generated` — its objects.
* `Separate` — two resources share neither objects nor pods.

## Main results

* `names_agree` — both hold for accepted ids.
-/

namespace Minikura.Operator
open Backend

/-! ## Agreement -/

/-- Backend and topology page look for the names the operator uses. -/
structure Agrees (ns id : String) : Prop where
  server : serverServiceName id = .ok (serverName id)
  proxy (type : ReverseProxyServerType) :
    proxyServiceName type id = .ok (proxyName type.name id)
  address : connectionAddress ns id = .ok (serverName id ++ "." ++ ns ++ ".svc.cluster.local")
  serverPods (mc : MinecraftServer) (h : mc.metadata.name = id) :
    ∃ value, (serverLabels mc).lookup labelKeys.serverId = some value ∧
      serverPodSelector id = .ok (labelKeys.serverId ++ "=" ++ value)
  proxyPods (rp : ReverseProxyServer) (h : rp.metadata.name = id) :
    ∃ value, (proxyLabels rp).lookup labelKeys.proxyId = some value ∧
      proxyPodSelector id = .ok (labelKeys.proxyId ++ "=" ++ value)
  topology : kubernetesResourceName id = id

variable {id : String}

theorem serverName_accepted (h : resourceIdAccepted id) : serverName id = "minecraft-" ++ id := by
  have hlength := length_of_accepted h
  refine limitedName_of_le ?_
  rw [String.length_append, dnsLabelMaxLength, show "minecraft-".length = 10 from rfl]
  omega

theorem labelValue_accepted (h : resourceIdAccepted id) : labelValue id = id := by
  have hlength := length_of_accepted h
  refine limitedName_of_le ?_
  rw [dnsLabelMaxLength]
  omega

theorem proxyName_accepted (h : resourceIdAccepted id) (type : ReverseProxyServerType) :
    proxyName type.name id = toLower type.name ++ "-" ++ id := by
  have hlength := length_of_accepted h
  have htype : (toLower type.name).length ≤ 10 := by
    cases type <;> decide
  refine limitedName_of_le ?_
  rw [String.length_append, String.length_append, dnsLabelMaxLength,
    show "-".length = 1 from rfl]
  omega

theorem agrees_of_accepted (ns : String) (h : resourceIdAccepted id) : Agrees ns id where
  server := by
    rw [serverServiceName, operatorResourceName_accepted h, serverName_accepted h]
    rfl
  proxy type := by
    rw [proxyServiceName, operatorResourceName_accepted h, proxyName_accepted h]
    rfl
  address := by
    rw [connectionAddress, operatorResourceName_accepted h, serverName_accepted h]
    rfl
  serverPods mc hmc := by
    refine ⟨labelValue mc.metadata.name, rfl, ?_⟩
    rw [serverPodSelector, hmc, operatorResourceName_accepted h, labelValue_accepted h]
    rfl
  proxyPods rp hrp := by
    refine ⟨labelValue rp.metadata.name, rfl, ?_⟩
    rw [proxyPodSelector, hrp, operatorResourceName_accepted h, labelValue_accepted h]
    rfl
  topology := kubernetesResourceName_accepted h

/-! ## Resources and their objects -/

inductive CustomResource where
  | server (mc : MinecraftServer)
  | proxy (rp : ReverseProxyServer)

/-- `mc.Name` and `rp.Name` -/
def CustomResource.name : CustomResource → String
  | server mc => mc.metadata.name
  | proxy rp => rp.metadata.name

/-- What tells resources apart: the type, which a server has none of, and the name. -/
def CustomResource.identity : CustomResource → Option String × String
  | server mc => (none, mc.metadata.name)
  | proxy rp => (some rp.spec.type, rp.metadata.name)

/-- The backend accepts the id, and a proxy is of one of the types. -/
def CustomResource.Accepted : CustomResource → Prop
  | server mc => operatorResourceName mc.metadata.name = .ok mc.metadata.name
  | proxy rp => operatorResourceName rp.metadata.name = .ok rp.metadata.name ∧
      ∃ type : ReverseProxyServerType, rp.spec.type = type.name

/-- The ConfigMap, the Service and the workloads that can be generated for a resource. -/
def CustomResource.generated (lib : Library) : CustomResource → List (Except Error Generated)
  | server mc => [.ok (minecraftConfigMap mc), .ok (minecraftService mc),
      .ok (minecraftDeployment mc), minecraftStatefulSet lib mc]
  | proxy rp => [.ok (proxyConfigMap rp), .ok (proxyService rp), .ok (proxyDeployment rp)]

/-- The name of the objects other than the ConfigMap. -/
def CustomResource.app : CustomResource → String
  | server mc => serverName mc.metadata.name
  | proxy rp => proxyName rp.spec.type rp.metadata.name

/-- The names before those that are too long are cut. -/
def CustomResource.rawNames : CustomResource → List String
  | server mc => ["minecraft-" ++ mc.metadata.name, serverName mc.metadata.name ++ "-config"]
  | proxy rp => [toLower rp.spec.type ++ "-" ++ rp.metadata.name,
      proxyName rp.spec.type rp.metadata.name ++ "-config"]

/-- Distinct names that are too long do not share the hash that ends the names cut from
them. -/
def CustomResource.HashesDiffer (r r' : CustomResource) : Prop :=
  ∀ n ∈ r.rawNames, ∀ n' ∈ r'.rawNames, n ≠ n' → dnsLabelMaxLength < n.length →
    dnsLabelMaxLength < n'.length → hashPrefix n ≠ hashPrefix n'

def Generated.selector : Generated → Option Labels
  | ⟨⟨.configMap, _, _⟩, _⟩ => none
  | ⟨⟨.service, _, _⟩, object⟩ => some object.body.spec.selector
  | ⟨⟨.deployment, _, _⟩, object⟩ => some object.body.spec.selector
  | ⟨⟨.statefulSet, _, _⟩, object⟩ => some object.body.spec.selector

def Generated.podLabels : Generated → Option Labels
  | ⟨⟨.configMap, _, _⟩, _⟩ => none
  | ⟨⟨.service, _, _⟩, _⟩ => none
  | ⟨⟨.deployment, _, _⟩, object⟩ => some object.body.spec.podLabels
  | ⟨⟨.statefulSet, _, _⟩, object⟩ => some object.body.spec.podLabels

/-- A selector matches labels that have each of its entries. -/
def selects (selector labels : Labels) : Bool :=
  selector.all fun e => labels.lookup e.1 == some e.2

/-- No object of one resource has the kind and name of an object of the other, and no
selector of the one matches the pods of the other. -/
structure Separate (lib : Library) (r r' : CustomResource) : Prop where
  names (g g' : Generated) : .ok g ∈ r.generated lib → .ok g' ∈ r'.generated lib →
    (g.key.kind, g.key.name) ≠ (g'.key.kind, g'.key.name)
  pods (g g' : Generated) : .ok g ∈ r.generated lib → .ok g' ∈ r'.generated lib →
    ∀ selector ∈ g.selector, ∀ labels ∈ g'.podLabels, selects selector labels = false

/-! ## Separation -/

variable {lib : Library} {r r' : CustomResource} {g : Generated}

/-- The names and labels of an object follow from the name of the application. -/
structure NamedAfter (app : String) (g : Generated) : Prop where
  name : g.key.name = if g.key.kind = .configMap then configMapName app else app
  selector : ∀ selector ∈ g.selector, selector = selectorLabels app
  podLabels : ∀ labels ∈ g.podLabels, labels.lookup "app" = some app

theorem namedAfter_of_generated (h : .ok g ∈ r.generated lib) : NamedAfter r.app g := by
  cases r with
  | server mc =>
    simp only [CustomResource.generated, List.mem_cons, List.not_mem_nil, or_false,
      Except.ok.injEq] at h
    rcases h with rfl | rfl | rfl | h
    · exact ⟨rfl, nofun, nofun⟩
    · exact ⟨rfl, by rintro _ ⟨⟩; rfl, nofun⟩
    · exact ⟨rfl, by rintro _ ⟨⟩; rfl, by rintro _ ⟨⟩; rfl⟩
    · unfold minecraftStatefulSet at h
      dsimp only at h
      split at h
      · cases h
      · cases h
        exact ⟨rfl, by rintro _ ⟨⟩; rfl, by rintro _ ⟨⟩; rfl⟩
  | proxy rp =>
    simp only [CustomResource.generated, List.mem_cons, List.not_mem_nil, or_false,
      Except.ok.injEq] at h
    rcases h with rfl | rfl | rfl
    · exact ⟨rfl, nofun, nofun⟩
    · exact ⟨rfl, by rintro _ ⟨⟩; rfl, nofun⟩
    · exact ⟨rfl, by rintro _ ⟨⟩; rfl, by rintro _ ⟨⟩; rfl⟩

theorem selects_selectorLabels {app app' : String} {labels : Labels}
    (h : labels.lookup "app" = some app') (hne : app ≠ app') :
    selects (selectorLabels app) labels = false := by
  simpa [selects, selectorLabels, h] using hne.symm

/-- What the name of an application starts with, for each type of resources. -/
def stems : List (Option String × String) :=
  [(none, "minecraft-"), (some "VELOCITY", "velocity-"), (some "BUNGEECORD", "bungeecord-")]

theorem app_accepted (h : r.Accepted) :
    ∃ stem, r.app = stem ++ r.name ∧ (r.identity.1, stem) ∈ stems := by
  cases r with
  | server mc =>
    exact ⟨_, serverName_accepted (accepted_of_operatorResourceName h), List.mem_cons_self ..⟩
  | proxy rp =>
    obtain ⟨hid, type, htype⟩ := h
    refine ⟨toLower type.name ++ "-", ?_, ?_⟩
    · rw [CustomResource.app, htype]
      exact proxyName_accepted (accepted_of_operatorResourceName hid) type
    · rw [CustomResource.identity, htype]
      change (some type.name, toLower type.name ++ "-") ∈ stems
      cases type <;> decide

/-- No stem starts with the letter of another. -/
theorem stems_head :
    ∀ e ∈ stems, ∀ e' ∈ stems, e.2.toList.head? = e'.2.toList.head? → e = e' := by
  decide

theorem stem_ne_nil : ∀ e ∈ stems, e.2.toList ≠ [] := by
  decide

/-- Resources of different types or names have applications of different names. -/
theorem identity_eq_of_app (h : r.Accepted) (h' : r'.Accepted) (he : r.app = r'.app) :
    r.identity = r'.identity := by
  obtain ⟨stem, happ, hstem⟩ := app_accepted h
  obtain ⟨stem', happ', hstem'⟩ := app_accepted h'
  rw [happ, happ'] at he
  have hhead := congrArg (fun s => s.toList.head?) he
  simp only [String.toList_append, List.head?_append_of_ne_nil _ (stem_ne_nil _ hstem),
    List.head?_append_of_ne_nil _ (stem_ne_nil _ hstem')] at hhead
  obtain ⟨htype, rfl⟩ := Prod.mk.inj (stems_head _ hstem _ hstem' hhead)
  have hname : r.name = r'.name := (String.append_right_inj stem).mp he
  cases r <;> cases r' <;> exact Prod.ext htype hname

theorem length_name_le (h : .ok g ∈ r.generated lib) :
    g.key.name.length ≤ dnsLabelMaxLength := by
  have happ : r.app.length ≤ dnsLabelMaxLength := by
    cases r <;> exact length_limitedName (by decide)
  rw [(namedAfter_of_generated h).name]
  split_ifs
  · exact length_limitedName (by decide)
  · exact happ

theorem config_mem_rawNames (r : CustomResource) : r.app ++ "-config" ∈ r.rawNames := by
  cases r <;> exact List.mem_cons_of_mem _ (List.mem_singleton_self _)

theorem separate_of_accepted (h : r.Accepted) (h' : r'.Accepted) (hne : r.identity ≠ r'.identity)
    (hhash : r.HashesDiffer r') : Separate lib r r' := by
  have happ : r.app ≠ r'.app := fun he => hne (identity_eq_of_app h h' he)
  have hconfig : configMapName r.app ≠ configMapName r'.app :=
    configMapName_ne happ (hhash _ (config_mem_rawNames r) _ (config_mem_rawNames r')
      fun he => happ ((String.append_left_inj _).mp he))
  refine ⟨fun g g' hg hg' he => ?_, fun g g' hg hg' selector hs labels hl => ?_⟩
  · obtain ⟨hkind, hname⟩ := Prod.mk.inj he
    rw [(namedAfter_of_generated hg).name, (namedAfter_of_generated hg').name, hkind] at hname
    split_ifs at hname
    · exact hconfig hname
    · exact happ hname
  · rw [(namedAfter_of_generated hg).selector selector hs]
    exact selects_selectorLabels ((namedAfter_of_generated hg').podLabels labels hl) happ

/-- For every accepted id the backend and the topology page compute the names and labels of
the operator. The names generated for an accepted resource fit a DNS label, and different
resources share no object and no pod, if no two names that are cut share a hash. -/
theorem names_agree (lib : Library) :
    (∀ ns id, operatorResourceName id = .ok id → Agrees ns id) ∧
    ∀ r r' : CustomResource, r.Accepted → r'.Accepted →
      (∀ g, .ok g ∈ r.generated lib → g.key.name.length ≤ 63) ∧
      (r.identity ≠ r'.identity → r.HashesDiffer r' → Separate lib r r') :=
  ⟨fun ns _ h => agrees_of_accepted ns (accepted_of_operatorResourceName h),
    fun _ _ h h' => ⟨fun _ => length_name_le, separate_of_accepted h h'⟩⟩

/-- A server whose id has the greatest length. -/
def longest (last : String) : MinecraftServer where
  metadata := {
    name := String.ofList (List.replicate 50 'a') ++ last, ns := "minikura", uid := "uid-" ++ last
    generation := 1, deleting := false, labels := [] }
  spec := { type := "STATEFUL", listenPort := 25565 }

theorem names_agree_longest : Agrees "minikura" (longest "a").metadata.name ∧
    Separate plainLibrary (.server (longest "a")) (.server (longest "b")) := by
  have ha : operatorResourceName (longest "a").metadata.name = .ok (longest "a").metadata.name := by
    decide +kernel
  have hb : operatorResourceName (longest "b").metadata.name = .ok (longest "b").metadata.name := by
    decide +kernel
  have hne : (CustomResource.server (longest "a")).identity ≠
      (CustomResource.server (longest "b")).identity := by
    decide +kernel
  have hhash : (CustomResource.server (longest "a")).HashesDiffer (.server (longest "b")) := by
    unfold CustomResource.HashesDiffer
    decide +kernel
  have hseparate := (names_agree plainLibrary).2 (.server (longest "a")) (.server (longest "b"))
    ha hb
  exact ⟨(names_agree plainLibrary).1 _ _ ha, hseparate.2 hne hhash⟩

end Minikura.Operator
