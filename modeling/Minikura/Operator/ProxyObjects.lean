import Mathlib.Data.Set.Basic
import Minikura.Concurrency.Worker
import Minikura.Operator.Controller

/-!
# The objects of a reverse proxy

The names of a proxy's objects contain its type, and the type may change at any time.
`pruneStaleResources` looks for the objects of the other type under the name of its
Service and Deployment; the name of a ConfigMap is another one, so that an old ConfigMap
stays.

## Main definitions

* `History` — the spec a run works on, and the ConfigMaps the proxy has had.
* `Cluster.Tidy` — the proxy controls no object but those of its spec.

## Main results

* `proxy_tidy_iff` — in all runs, when a `Reconcile` without an error leaves a tidy proxy.
* `proxy_not_tidy` — a change of the type leaves a ConfigMap behind.
-/

namespace Minikura.Operator
open Concurrency

variable {lib : Library} {key : NamespacedName} {uid : String}

/-! ## What a run is judged by -/

def proxyTypes : List String := [Types.proxyVelocity, Types.proxyBungeeCord]

/-- The kinds of the objects of a proxy. -/
def proxyKinds : List ObjectKind := [.deployment, .service, .configMap]

/-- Where `pruneStaleResources` looks for the objects of a type. -/
def typeKey (key : NamespacedName) (type : String) (kind : ObjectKind) : ObjectKey :=
  ⟨kind, key.ns, proxyName type key.name⟩

@[simp] theorem typeKey_name (key : NamespacedName) (type : String) (kind : ObjectKind) :
    (typeKey key type kind).name = proxyName type key.name := by
  simp only [typeKey]

def configMapKey (key : NamespacedName) (type : String) : ObjectKey :=
  ⟨.configMap, key.ns, configMapName (proxyName type key.name)⟩

/-- The keys of the objects generated for a spec. -/
def generatedKeys (rp : ReverseProxyServer) : List ObjectKey :=
  [(proxyConfigMap rp).key, (proxyService rp).key, (proxyDeployment rp).key]

namespace Cluster

/-- The resource is there and is not being deleted. -/
def ServedProxy (s : Cluster) (key : NamespacedName) (uid : String) : Prop :=
  ∃ rp, s.proxies.lookup key = some rp ∧ rp.metadata.key = key ∧ rp.metadata.uid = uid ∧
    rp.metadata.deleting = false

/-- Of the kinds and in the namespace of the proxy, it controls nothing but the objects
of its spec. -/
def Tidy (s : Cluster) (uid : String) (rp : ReverseProxyServer) : Prop :=
  ∀ k, k.kind ∈ proxyKinds → k.ns = rp.metadata.ns → s.Controls uid k → k ∈ generatedKeys rp

end Cluster

/-- Edits of the resource, and anything else that neither gives objects to this proxy nor
takes its objects away. -/
structure ProxyEdited (key : NamespacedName) (uid : String) (s s' : Cluster) : Prop where
  served : s.ServedProxy key uid → s'.ServedProxy key uid
  controls : ∀ k, s'.Controls uid k ↔ s.Controls uid k

/-- What is remembered of a run. -/
structure History where
  /-- What the run has read last. -/
  snapshot : Option ReverseProxyServer := none
  /-- The ConfigMaps the proxy was found to control before any call. -/
  configMaps : Set ObjectKey := ∅

def readProxy (key : NamespacedName) : (c : Call) → Settled Error Answer c →
    Option ReverseProxyServer → Option ReverseProxyServer
  | .getProxy k, .ok rp, snapshot => if k = key then some rp else snapshot
  | _, _, snapshot => snapshot

def History.record (key : NamespacedName) (uid : String) (c : Call) (s : Cluster)
    (r : Settled Error Answer c) (h : History) : History where
  snapshot := readProxy key c r h.snapshot
  configMaps := h.configMaps ∪ {k | k.kind = .configMap ∧ s.Controls uid k}

/-- The API server, with the history. -/
abbrev historyApi (key : NamespacedName) (uid : String) :
    Handler Call (Settled Error Answer) (Cluster × History) :=
  flakyApi.observe (History.record key uid)

/-! ## Names of different types -/

/-- The name of a ConfigMap is under the name of no other type. -/
theorem type_eq_of_configMapName {t t' n : String} (ht : t ∈ proxyTypes) (ht' : t' ∈ proxyTypes)
    (h : configMapName (proxyName t n) = proxyName t' n) : t = t' := by
  have hv : (proxyName Types.proxyVelocity n).toList.head? = some 'v' :=
    head?_proxyName (by decide) (by decide) n
  have hb : (proxyName Types.proxyBungeeCord n).toList.head? = some 'b' :=
    head?_proxyName (by decide) (by decide) n
  simp only [proxyTypes, List.mem_cons, List.not_mem_nil, or_false] at ht ht'
  rcases ht with rfl | rfl <;> rcases ht' with rfl | rfl
  · rfl
  · cases (head?_configMapName (by decide) hv).symm.trans (h ▸ hb)
  · cases (head?_configMapName (by decide) hb).symm.trans (h ▸ hv)
  · rfl

/-! ## What every run preserves -/

variable {rp : ReverseProxyServer} {S S' : Set ObjectKey} {x y : Cluster × History}

/-- The objects of the proxy are those of its types, and what ConfigMaps it has had it
still has, but for those `pruneStaleResources` can find. -/
structure Accounted (key : NamespacedName) (uid : String) (x : Cluster × History) : Prop where
  served : x.1.ServedProxy key uid
  owned : ∀ k, x.1.Controls uid k → ∃ t ∈ proxyTypes,
    k = configMapKey key t ∨ k = typeKey key t .service ∨ k = typeKey key t .deployment
  recorded : ∀ k ∈ x.2.configMaps, k.kind = .configMap ∧ k.ns = key.ns
  kept : ∀ k ∈ x.2.configMaps, x.1.Controls uid k ∨
    ∃ t ∈ proxyTypes, k.name = proxyName t key.name

/-- A run only ever takes away objects of this proxy. -/
def proxyReconciling (key : NamespacedName) (uid : String) :
    Contract Call (Cluster × History) where
  rely x y := ProxyEdited key uid x.1 y.1 ∧ y.2 = x.2
  guar _ x y := (Accounted key uid x → Accounted key uid y) ∧
    ∀ k, x.1.controllerOf k ≠ none → ¬x.1.Controls uid k → y.1.controllerOf k ≠ none
  refl _ := ⟨⟨fun h => h, fun _ => Iff.rfl⟩, rfl⟩
  trans _ _ _ h h' := ⟨⟨fun hs => h'.1.served (h.1.served hs),
    fun k => (h'.1.controls k).trans (h.1.controls k)⟩, h'.2.trans h.2⟩

theorem Accounted.stable (h : Accounted key uid x) (hr : (proxyReconciling key uid).rely x y) :
    Accounted key uid y where
  served := hr.1.served h.served
  owned k hk := h.owned k ((hr.1.controls k).mp hk)
  recorded k hk := h.recorded k (hr.2 ▸ hk)
  kept k hk := by
    rw [hr.2] at hk
    exact (h.kept k hk).imp_left (hr.1.controls k).mpr

/-- What a call is to do for the accounts to stay correct. -/
theorem Accounted.step {c : Call} {r : Settled Error Answer c} (h : Accounted key uid x)
    (hstep : FlakyStep c x.1 r y.1) (hlog : y.2 = History.record key uid c x.1 r x.2)
    (hnew : ∀ k, y.1.Controls uid k → x.1.Controls uid k ∨ ∃ t ∈ proxyTypes,
      k = configMapKey key t ∨ k = typeKey key t .service ∨ k = typeKey key t .deployment)
    (hold : ∀ k, x.1.Controls uid k → y.1.Controls uid k ∨
      ∃ t ∈ proxyTypes, k.name = proxyName t key.name) : Accounted key uid y where
  served := by
    obtain ⟨rp, hrp, hmeta⟩ := h.served
    obtain ⟨status, hstatus⟩ := hstep.proxy hrp
    exact ⟨_, hstatus, hmeta⟩
  owned k hk := (hnew k hk).elim (h.owned k) id
  recorded k hk := by
    rw [hlog] at hk
    rcases hk with hk | ⟨hkind, hk⟩
    · exact h.recorded k hk
    · obtain ⟨t, -, rfl | rfl | rfl⟩ := h.owned k hk <;> exact ⟨hkind, rfl⟩
  kept k hk := by
    rw [hlog] at hk
    rcases hk with hk | ⟨-, hk⟩
    · exact (h.kept k hk).elim (hold k) .inr
    · exact hold k hk

/-! ## Inside a run -/

/-- The run works on `rp`, and the proxy controls no object of `S`. -/
structure On (key : NamespacedName) (uid : String) (rp : ReverseProxyServer)
    (S : Set ObjectKey) (x : Cluster × History) : Prop where
  accounted : Accounted key uid x
  snapshot : x.2.snapshot = some rp
  gone : ∀ k ∈ S, ¬x.1.Controls uid k
  recorded : ∀ k, k.kind = .configMap → x.1.Controls uid k →
    k ∈ x.2.configMaps ∨ k = (proxyConfigMap rp).key

theorem On.stable (h : On key uid rp S x) (hr : (proxyReconciling key uid).rely x y) :
    On key uid rp S y where
  accounted := h.accounted.stable hr
  snapshot := hr.2 ▸ h.snapshot
  gone k hk hc := h.gone k hk ((hr.1.controls k).mp hc)
  recorded k hk hc := hr.2 ▸ h.recorded k hk ((hr.1.controls k).mp hc)

theorem On.mono (h : On key uid rp S x) (hS : S' ⊆ S) : On key uid rp S' x :=
  { h with gone := fun k hk => h.gone k (hS hk) }

theorem flakyStep_of_historyApi {c : Call} {r : Settled Error Answer c}
    (h : historyApi key uid c x r y) :
    FlakyStep c x.1 r y.1 ∧ y.2 = History.record key uid c x.1 r x.2 :=
  ⟨flakyStep_of_flakyApi h.1, h.2⟩

/-- A call that writes no object. -/
theorem guar_of_calm {c : Call} {r : Settled Error Answer c} (hc : c.calm)
    (h : historyApi key uid c x r y) : (proxyReconciling key uid).guar c x y := by
  obtain ⟨hstep, hlog⟩ := flakyStep_of_historyApi h
  have hsame := controllerOf_of_objects_eq (hstep.objects hc)
  refine ⟨fun hx => hx.step hstep hlog (fun k hk => .inl ?_) fun k hk => .inl ?_, fun k hk _ => ?_⟩
  · rwa [Cluster.Controls, hsame] at hk
  · rwa [Cluster.Controls, hsame]
  · rwa [hsame]

theorem On.step_minor {c : Call} {r : Settled Error Answer c} (hc : c.minor)
    (hx : On key uid rp S x) (h : historyApi key uid c x r y) :
    (proxyReconciling key uid).guar c x y ∧ On key uid rp S y := by
  have hguar := guar_of_calm (Call.calm_of_minor hc) h
  obtain ⟨hstep, hlog⟩ := flakyStep_of_historyApi h
  have hsame := controllerOf_of_objects_eq (hstep.objects (Call.calm_of_minor hc))
  refine ⟨hguar, hguar.1 hx.accounted, ?_, fun k hk hc => ?_, fun k hk hc => .inl ?_⟩
  · rw [hlog, ← hx.snapshot]
    cases c <;> first | rfl | cases hc
  · exact hx.gone k hk (by rwa [Cluster.Controls, ← hsame])
  · rw [hlog]
    exact .inr ⟨hk, by rwa [Cluster.Controls, ← hsame]⟩

theorem keptByMinor_on :
    KeptByMinor (historyApi key uid) (proxyReconciling key uid) (On key uid rp S) where
  stable _ _ := On.stable
  call _ _ _ _ hc hx h := hx.step_minor hc h

/-- The three objects of the type a run works on. -/
theorem generatedKeys_eq (hkey : rp.metadata.key = key) :
    generatedKeys rp = [configMapKey key rp.spec.type, typeKey key rp.spec.type .service,
      typeKey key rp.spec.type .deployment] := by
  subst hkey
  rfl

/-- Applying an object of the type the run works on. -/
theorem wp_applyProxy {g : Generated} {reason : String} {rest : Task Unit}
    {Q : Except Error Unit → Cluster × History → Prop} (hlib : lib.Documented)
    (howner : rp.metadata.uid = uid) (hkey : rp.metadata.key = key)
    (htype : rp.spec.type ∈ proxyTypes) (hg : g.key ∈ generatedKeys rp)
    (hQ : ∀ e t, On key uid rp ∅ t → Q (.error e) t) (hx : On key uid rp ∅ x)
    (h : ∀ y, On key uid rp ∅ y →
      wp (historyApi key uid) (proxyReconciling key uid) rest.run Q y) :
    wp (historyApi key uid) (proxyReconciling key uid)
      (orFail (apply lib rp.metadata g) (rp.fail lib reason) rest).run Q x := by
  refine wp_orFail (wp_mono (Q := fun _ => On key uid rp ∅) ?_ fun r y hy => ?_)
  · refine keptByMinor_on.apply hlib hx (fun _ _ _ => On.stable) (fun _ _ h => h)
      fun new y r z hnew hy hH => ?_
    obtain ⟨hstep, hlog⟩ := flakyStep_of_historyApi hH
    rw [howner] at hnew
    have hchange := (hstep.apply hnew).1
    rw [generatedKeys_eq hkey] at hg
    have hkeys := List.mem_cons.mp hg |>.imp_right fun h => List.mem_cons.mp h
    have hnew' : ∀ k, z.1.Controls uid k → y.1.Controls uid k ∨ k = g.key :=
      fun k hk => (hchange k).imp (fun h => h.symm.trans hk) And.left
    have hguar : (proxyReconciling key uid).guar (.apply g.key new) y z := by
      refine ⟨fun hy => hy.step hstep hlog (fun k hk => ?_) (fun k hk => .inl ?_),
        fun k hk _ => hstep.exists_of_apply hnew hk⟩
      · refine (hnew' k hk).imp_right fun h => ⟨_, htype, ?_⟩
        subst h
        simpa using hg
      · exact (hchange k).elim (fun h => h.trans hk) And.right
    refine ⟨hguar, hguar.1 hy.accounted, ?_, fun _ h => h.elim, fun k hk hc => ?_⟩
    · rw [hlog]
      exact hy.snapshot
    · rcases hnew' k hc with hc | rfl
      · rw [hlog]
        exact .inl (.inr ⟨hk, hc⟩)
      · refine .inr ?_
        subst hkey
        simp only [List.mem_cons, List.not_mem_nil, or_false] at hg
        rcases hg with hg | hg | hg
        · exact hg
        · rw [hg] at hk
          cases hk
        · rw [hg] at hk
          cases hk
  · cases r with
    | ok _ => exact h y hy
    | error e => exact keptByMinor_on.proxyFail hQ hy

/-- One object that is looked for is gone afterwards, if nothing fails. -/
theorem wp_pruneProxyObject {t : String} {kind : ObjectKind} (howner : rp.metadata.uid = uid)
    (ht : t ∈ proxyTypes) (hx : On key uid rp S x) :
    wp (historyApi key uid) (proxyReconciling key uid)
      (pruneObject rp.metadata (typeKey key t kind)).run (fun r y => match r with
        | .ok _ => On key uid rp (S ∪ {typeKey key t kind}) y
        | .error _ => On key uid rp ∅ y) x := by
  refine wp_pruneObject (On key uid rp S)
    (fun y => On key uid rp S y ∧ y.1.Controls uid (typeKey key t kind)) hx
    (fun _ _ => On.stable) (fun _ _ h hr => ⟨h.1.stable hr, (hr.1.controls _).mpr h.2⟩)
    (fun r y z hy hr => ?_) (fun y r z hy hH => ?_) fun y r z hy hH => ?_
  · cases r <;> exact hy.stable hr
  · obtain ⟨hguar, hz⟩ := hy.step_minor rfl hH
    obtain ⟨hsame, hfound, hmissing⟩ := (flakyStep_of_historyApi hH).1.get
    refine ⟨hguar, ?_⟩
    have gone (h : ¬z.1.Controls uid (typeKey key t kind)) :
        On key uid rp (S ∪ {typeKey key t kind}) z :=
      { hz with gone := fun k hk => hk.elim (hz.gone k) fun hk => hk ▸ h }
    cases r with
    | error e =>
      by_cases he : e.notFound
      · simp only [ignoreNotFound, he, if_true]
        refine gone ?_
        rw [Cluster.Controls, hsame, hmissing e rfl he]
        simp
      · simp only [ignoreNotFound, he]
        exact hz.mono (Set.empty_subset S)
    | ok obj =>
      have hobj : z.1.controllerOf (typeKey key t kind) = some obj.controller :=
        hsame ▸ hfound obj rfl
      dsimp only
      split_ifs with hcontrolled
      · refine ⟨hz, hobj.trans ?_⟩
        simpa [Object.isControlledBy, howner] using hcontrolled
      · refine gone ?_
        rw [Cluster.Controls, hobj]
        simpa [Object.isControlledBy, howner] using hcontrolled
  · obtain ⟨hy, hown⟩ := hy
    obtain ⟨hstep, hlog⟩ := flakyStep_of_historyApi hH
    obtain ⟨hother, hgone⟩ := hstep.delete
    have hless (k : ObjectKey) (hk : z.1.Controls uid k) : y.1.Controls uid k := by
      by_cases he : k = typeKey key t kind
      · exact he ▸ hown
      · exact (hother k he).symm.trans hk
    have hguar : (proxyReconciling key uid).guar (.delete (typeKey key t kind)) y z := by
      refine ⟨fun hy => hy.step hstep hlog (fun k hk => .inl (hless k hk)) fun k hk => ?_,
        fun k hk hc => hstep.exists_of_delete hown hk hc⟩
      by_cases he : k = typeKey key t kind
      · exact .inr ⟨t, ht, by rw [he, typeKey_name]⟩
      · exact .inl ((hother k he).trans hk)
    have hz : On key uid rp S z := by
      refine ⟨hguar.1 hy.accounted, ?_, fun k hk hc => hy.gone k hk (hless k hc),
        fun k hk hc => ?_⟩
      · rw [hlog]
        exact hy.snapshot
      · rw [hlog]
        exact .inl (.inr ⟨hk, hless k hc⟩)
    refine ⟨hguar, ?_⟩
    cases hr : ignoreNotFound r with
    | error e => exact hz.mono (Set.empty_subset S)
    | ok u =>
      refine { hz with gone := fun k hk => hk.elim (hz.gone k) fun hk hc => ?_ }
      rw [show k = typeKey key t kind from hk, Cluster.Controls, hgone hr] at hc
      cases hc

/-- What the loop over the kinds removes. -/
theorem wp_pruneType {t : String} (howner : rp.metadata.uid = uid) (hkey : rp.metadata.key = key)
    (ht : t ∈ proxyTypes) (hx : On key uid rp S x) :
    wp (historyApi key uid) (proxyReconciling key uid)
      (proxyKinds.forM fun k =>
        pruneObject rp.metadata ⟨k, rp.metadata.ns, proxyName t rp.metadata.name⟩).run
      (fun r y => match r with
        | .ok _ => On key uid rp (S ∪ {k | ∃ kind ∈ proxyKinds, k = typeKey key t kind}) y
        | .error _ => On key uid rp ∅ y) x := by
  subst hkey
  refine wp_mono (wp_forM
    (fun done => On _ uid rp (S ∪ {k | ∃ kind ∈ done, k = typeKey rp.metadata.key t kind}))
    (On _ uid rp ∅) [] (hx.mono ?_) (fun _ _ _ => On.stable) (fun _ _ => On.stable)
    fun done y kind _ hy => wp_mono (wp_pruneProxyObject howner ht hy) fun r z hz => ?_)
    fun r y hy => ?_
  · rintro k (hk | ⟨kind, hkind, -⟩)
    · exact hk
    · cases hkind
  · cases r with
    | error e => exact hz
    | ok u =>
      refine hz.mono ?_
      rintro k (hk | ⟨kind', hkind, hk⟩)
      · exact .inl (.inl hk)
      · rcases List.mem_cons.mp hkind with rfl | hkind
        · exact .inr hk
        · exact .inl (.inr ⟨kind', hkind, hk⟩)
  · cases r with
    | error e => exact hy
    | ok u =>
      refine hy.mono ?_
      rintro k (hk | ⟨kind, hkind, hk⟩)
      · exact .inl hk
      · exact .inr ⟨kind, by simpa using hkind, hk⟩

/-- The keys under another name than the spec's, for some types. -/
def staleKeys (rp : ReverseProxyServer) (types : List String) : Set ObjectKey :=
  {k | ∃ t ∈ types, proxyName t rp.metadata.name ≠ proxyName rp.spec.type rp.metadata.name ∧
    ∃ kind ∈ proxyKinds, k = typeKey rp.metadata.key t kind}

theorem pruneStaleResources_eq (rp : ReverseProxyServer) : rp.pruneStaleResources =
    proxyTypes.forM fun t =>
      if proxyName t rp.metadata.name = proxyName rp.spec.type rp.metadata.name then pure ()
      else proxyKinds.forM fun k =>
        pruneObject rp.metadata ⟨k, rp.metadata.ns, proxyName t rp.metadata.name⟩ := by
  simp only [ReverseProxyServer.pruneStaleResources, proxyTypes, proxyKinds]

theorem wp_pruneStaleResources (howner : rp.metadata.uid = uid) (hkey : rp.metadata.key = key)
    (hx : On key uid rp ∅ x) :
    wp (historyApi key uid) (proxyReconciling key uid) rp.pruneStaleResources.run
      (fun r y => match r with
        | .ok _ => On key uid rp (staleKeys rp proxyTypes) y
        | .error _ => On key uid rp ∅ y) x := by
  rw [pruneStaleResources_eq]
  refine wp_mono (wp_forM (fun done => On key uid rp (staleKeys rp done))
    (On key uid rp ∅) [] (hx.mono ?_) (fun _ _ _ => On.stable) (fun _ _ => On.stable)
    fun done y t ht hy => ?_) fun r y hy => ?_
  · rintro k ⟨t, ht, -⟩
    cases ht
  · split_ifs with hname
    · have hy' : On key uid rp (staleKeys rp (t :: done)) y := by
        refine hy.mono ?_
        rintro k ⟨t', ht', hne, hk⟩
        rcases List.mem_cons.mp ht' with rfl | ht'
        · exact absurd hname hne
        · exact ⟨t', ht', hne, hk⟩
      exact fun z hz => hy'.stable hz
    · refine wp_mono (wp_pruneType howner hkey ht hy) fun r z hz => ?_
      cases r with
      | error e => exact hz
      | ok u =>
        refine hz.mono ?_
        rintro k ⟨t', ht', hne, hk⟩
        rcases List.mem_cons.mp ht' with rfl | ht'
        · exact .inr (hkey ▸ hk)
        · exact .inl ⟨t', ht', hne, hk⟩
  · cases r with
    | error e => exact hy
    | ok u =>
      refine hy.mono ?_
      rintro k ⟨t, ht, hk⟩
      exact ⟨t, List.mem_append_left _ (List.mem_reverse.mpr ht), hk⟩

/-! ## A whole run -/

/-- When the ConfigMaps the proxy has had are no obstacle to a tidy proxy. -/
def Findable (key : NamespacedName) (rp : ReverseProxyServer) (configMaps : Set ObjectKey) :
    Prop :=
  ∀ k ∈ configMaps, k = (proxyConfigMap rp).key ∨ ∃ t ∈ proxyTypes, k.name = proxyName t key.name

/-- What a run that returns no error has established. -/
def TidyWhenFindable (key : NamespacedName) (uid : String) (r : Except Error Unit)
    (x : Cluster × History) : Prop :=
  r = .ok () → ∃ rp, x.2.snapshot = some rp ∧
    (x.1.Tidy uid rp ↔ Findable key rp x.2.configMaps)

theorem TidyWhenFindable.of_error {e : Error} : TidyWhenFindable key uid (.error e) x := nofun

theorem On.findable (hkey : rp.metadata.key = key) (h : On key uid rp S x)
    (ht : x.1.Tidy uid rp) : Findable key rp x.2.configMaps := by
  intro k hk
  refine (h.accounted.kept k hk).imp_left fun hc => ?_
  obtain ⟨hkind, hns⟩ := h.accounted.recorded k hk
  have hmem := ht k (by rw [hkind]; decide) (by rw [hns, ← hkey]; rfl) hc
  simp only [generatedKeys, List.mem_cons, List.not_mem_nil, or_false] at hmem
  rcases hmem with rfl | rfl | rfl
  · rfl
  · cases hkind
  · cases hkind

/-- Nothing of the other type is left, where the ConfigMaps are no obstacle. -/
theorem On.tidy (hkey : rp.metadata.key = key) (htype : rp.spec.type ∈ proxyTypes)
    (h : On key uid rp (staleKeys rp proxyTypes) x) (hf : Findable key rp x.2.configMaps) :
    x.1.Tidy uid rp := by
  intro k _ _ hk
  rw [generatedKeys_eq hkey]
  -- an object under the name of a type is not stale, since it is still there
  have current : ∀ t ∈ proxyTypes, ∀ kind ∈ proxyKinds, k = typeKey key t kind →
      proxyName t key.name = proxyName rp.spec.type key.name := by
    intro t ht kind hkind he
    by_contra hne
    subst hkey
    exact h.gone k ⟨t, ht, hne, kind, hkind, he⟩ hk
  obtain ⟨t, ht, hc | hs | hd⟩ := h.accounted.owned k hk
  · have hkind : k.kind = .configMap := by rw [hc]; rfl
    have hmap : k = configMapKey key rp.spec.type := by
      rcases h.recorded k hkind hk with hrec | hrec
      · rcases hf k hrec with hrec | ⟨t', ht', hname⟩
        · rw [hrec, ← hkey]
          rfl
        · have he : k = typeKey key t' .configMap := by
            rw [typeKey, ← hname, hc]
            rfl
          have hcurrent := current t' ht' _ (by decide) he
          have hname' : configMapName (proxyName t key.name) = proxyName rp.spec.type key.name := by
            rw [← hcurrent, ← hname, hc]
            rfl
          rw [hc, type_eq_of_configMapName ht htype hname']
      · rw [hrec, ← hkey]
        rfl
    rw [hmap]
    exact List.mem_cons_self ..
  · have hname := current t ht _ (by decide) hs
    rw [hs]
    simp [typeKey, hname]
  · have hname := current t ht _ (by decide) hd
    rw [hd]
    simp [typeKey, hname]

theorem wp_reconcileProxy (hlib : lib.Documented) (howner : rp.metadata.uid = uid)
    (hkey : rp.metadata.key = key) (hdeleting : rp.metadata.deleting = false)
    (hx : On key uid rp ∅ x) :
    wp (historyApi key uid) (proxyReconciling key uid) (rp.reconcile lib).run
      (TidyWhenFindable key uid) x := by
  have failed : ∀ (e : Error) (t : Cluster × History), On key uid rp ∅ t →
      TidyWhenFindable key uid (.error e) t := fun _ _ _ => .of_error
  unfold ReverseProxyServer.reconcile
  rw [hdeleting]
  simp only [Bool.false_eq_true, if_false]
  split_ifs with htype
  · exact keptByMinor_on.proxyFail failed hx
  · exact keptByMinor_on.proxyFail failed hx
  · have htype : rp.spec.type ∈ proxyTypes := by
      simp only [proxyTypes, List.mem_cons, List.not_mem_nil, or_false]
      by_contra h
      simp_all
    refine wp_applyProxy hlib howner hkey htype (by simp [generatedKeys]) failed hx fun x hx => ?_
    refine wp_applyProxy hlib howner hkey htype (by simp [generatedKeys]) failed hx fun x hx => ?_
    refine wp_applyProxy hlib howner hkey htype (by simp [generatedKeys]) failed hx fun x hx => ?_
    refine wp_orFail (wp_mono (wp_pruneStaleResources howner hkey hx) fun r y hy => ?_)
    cases r with
    | error e => exact keptByMinor_on.proxyFail failed hy
    | ok u =>
      refine wp_async_bind (wp_mono (keptByMinor_on.proxyUpdateStatus hy) fun r z hz => ?_)
      obtain ⟨⟨⟨rp', r'⟩, rfl⟩, hz⟩ := hz
      cases r' with
      | error e =>
        exact keptByMinor_on.proxyFail (fun _ _ _ => .of_error) hz
      | ok u =>
        refine fun w hw _ => ⟨rp, (hz.stable hw).snapshot, ?_⟩
        exact ⟨(hz.stable hw).findable hkey, (hz.stable hw).tidy hkey htype⟩

theorem wp_reconcileReverseProxyServer (hlib : lib.Documented) (hx : Accounted key uid x) :
    wp (historyApi key uid) (proxyReconciling key uid) (reconcileReverseProxyServer lib key).run
      (TidyWhenFindable key uid) x := by
  simp only [reconcileReverseProxyServer, Async.run_bind, Async.run_attempt, await, Async.await,
    ExceptT.run_mk, Prog.lift_bind, Prog.call_bind, Prog.pure_bind]
  refine wp_call (Accounted key uid) hx (fun _ _ => Accounted.stable) fun y r z hy hH => ?_
  obtain ⟨hstep, hlog⟩ := flakyStep_of_historyApi hH
  have hguar := guar_of_calm rfl hH
  have hsame := controllerOf_of_objects_eq (hstep.objects rfl)
  refine ⟨hguar, ?_⟩
  obtain ⟨rp, hrp, hkey, howner, hdeleting⟩ := hy.served
  obtain ⟨hfound, hmissing⟩ := hstep.getProxy hrp
  cases r with
  | error e =>
    -- the resource is there, so it is not said to be missing
    simp only [Task.run_ofExcept, ignoreNotFound, hmissing e rfl]
    exact fun _ _ => .of_error
  | ok rp' =>
    obtain rfl := hfound rp' rfl
    refine wp_reconcileProxy hlib howner hkey hdeleting
      ⟨hguar.1 hy, ?_, fun _ h => h.elim, fun k hk hc => .inl ?_⟩
    · rw [hlog]
      simp [History.record, readProxy]
    · rw [hlog]
      exact .inr ⟨hk, by rwa [Cluster.Controls, ← hsame]⟩

/-! ## All runs -/

/-- Edits, with the history of the run left alone. -/
def editingProxy (key : NamespacedName) (uid : String) :
    Cluster × History → Cluster × History → Prop :=
  fun x y => ProxyEdited key uid x.1 y.1 ∧ y.2 = x.2

/-- The controller of a proxy at work: runs of `Reconcile` that may stop anywhere, and
edits at any time. -/
abbrev ProxySteps (lib : Library) (key : NamespacedName) (uid : String) :=
  WorkerSteps (historyApi key uid) (editingProxy key uid) (editingProxy key uid)
    (reconcileReverseProxyServer lib key).run

theorem proxySpec (hlib : lib.Documented) :
    WorkerSpec (historyApi key uid) (editingProxy key uid) (editingProxy key uid)
      (reconcileReverseProxyServer lib key).run (proxyReconciling key uid)
      (TidyWhenFindable key uid) (Accounted key uid) where
  env _ _ _ h := h
  rely _ _ hs h := hs.stable h
  guar _ _ _ hs h := h.1 hs
  idle _ _ hs h := hs.stable h
  wp _ hs := wp_reconcileReverseProxyServer hlib hs

theorem Accounted.start {s : Cluster} (hs : s.ServedProxy key uid)
    (hnone : ∀ k, ¬s.Controls uid k) : Accounted key uid (s, {}) where
  served := hs
  owned k hk := absurd hk (hnone k)
  recorded _ hk := hk.elim
  kept _ hk := hk.elim

/-- In every run of the controller from before the proxy has any object, with its requests
failing anywhere and the resource edited at any time: a `Reconcile` that returns no error
leaves nothing but the objects of the spec it read, exactly if every ConfigMap the proxy
has had is the one of that spec or has a name under which stale objects are looked for;
and no call takes away an object that the proxy does not control. -/
theorem proxy_tidy_iff {s : Cluster}
    {x : Option (Prog Call (Settled Error Answer) (Except Error Unit)) × (Cluster × History)}
    (hlib : lib.Documented) (hs : s.ServedProxy key uid) (hnone : ∀ k, ¬s.Controls uid k)
    (run : ProxySteps lib key uid (none, (s, {})) x) :
    (x.1 = some (.pure (.ok ())) → ∃ rp, x.2.2.snapshot = some rp ∧
      (x.2.1.Tidy uid rp ↔ ∀ k ∈ x.2.2.configMaps, k = (proxyConfigMap rp).key ∨
        ∃ t ∈ proxyTypes, k.name = proxyName t key.name)) ∧
    ∀ c k r y, x.1 = some (.call c k) → historyApi key uid c x.2 r y → ∀ l,
      x.2.1.controllerOf l ≠ none → ¬x.2.1.Controls uid l → y.1.controllerOf l ≠ none := by
  have good := WorkerSteps.good (proxySpec hlib) run (.idle (.start hs hnone))
  obtain ⟨q, x⟩ := x
  refine ⟨?_, ?_⟩
  · rintro rfl
    exact good.result rfl
  · rintro c k r y rfl hH
    exact (good.call (proxySpec hlib) hH).1.2

def edge : ReverseProxyServer where
  metadata := {
    name := "edge", ns := "minikura", uid := "uid-edge", generation := 1, deleting := false
    labels := [] }
  spec := { type := "VELOCITY", externalPort := 25565, listenPort := 25577 }

/-- The proxy before its first `Reconcile`. -/
def unserved : Cluster :=
  { Cluster.empty with proxies := AList.singleton edge.metadata.key edge }

/-- A `Reconcile` of the proxy on which nothing fails. -/
def reconcileEdge (x : Cluster × History) :
    Prog Call (Settled Error Answer) (Except Error Unit) × (Cluster × History) :=
  (reconcileReverseProxyServer plainLibrary edge.metadata.key).run.runTurns
    (answers (History.record edge.metadata.key "uid-edge")) (List.replicate 14 .go) x

theorem unserved_served : unserved.ServedProxy edge.metadata.key "uid-edge" :=
  ⟨edge, by decide, rfl, rfl, rfl⟩

theorem unserved_none (k : ObjectKey) : ¬unserved.Controls "uid-edge" k := nofun

theorem reconcileEdge_steps {x : Cluster × History}
    (h : (reconcileEdge x).1.result? = some (.ok ())) :
    ProxySteps plainLibrary edge.metadata.key "uid-edge" (none, x)
      (some (.pure (.ok ())), (reconcileEdge x).2) :=
  .head .start (WorkerSteps.of_steps (steps_result (flakyApi_of_answers _) h))

theorem proxy_tidy_iff_unserved : ∃ rp, (reconcileEdge (unserved, {})).2.2.snapshot = some rp ∧
    ((reconcileEdge (unserved, {})).2.1.Tidy "uid-edge" rp ↔
      ∀ k ∈ (reconcileEdge (unserved, {})).2.2.configMaps, k = (proxyConfigMap rp).key ∨
        ∃ t ∈ proxyTypes, k.name = proxyName t edge.metadata.key.name) :=
  (proxy_tidy_iff plainLibrary_documented unserved_served unserved_none
    (reconcileEdge_steps (by decide +kernel))).1 rfl

/-- The resource after an edit of its type. -/
def Cluster.setProxyType (s : Cluster) (key : NamespacedName) (type : String) : Cluster :=
  match s.proxies.lookup key with
  | none => s
  | some rp =>
    { s with proxies := s.proxies.insert key { rp with
        metadata := { rp.metadata with generation := rp.metadata.generation + 1 }
        spec := { rp.spec with type := type } } }

theorem proxyEdited_setProxyType (s : Cluster) (type : String) :
    ProxyEdited key uid s (s.setProxyType key type) := by
  unfold Cluster.setProxyType
  cases hrp : s.proxies.lookup key with
  | none => exact ⟨id, fun _ => Iff.rfl⟩
  | some rp =>
    refine ⟨?_, fun _ => Iff.rfl⟩
    rintro ⟨rp', hrp', hmeta⟩
    obtain rfl : rp = rp' := Option.some.inj (hrp.symm.trans hrp')
    exact ⟨_, AList.lookup_insert _, hmeta⟩

/-- The proxy as `BUNGEECORD`, after a first `Reconcile` as `VELOCITY`. -/
def switched : Cluster × History :=
  let x := (reconcileEdge (unserved, {})).2
  (x.1.setProxyType edge.metadata.key "BUNGEECORD", x.2)

/-- A change of the type leaves a ConfigMap behind. -/
theorem proxy_not_tidy : ¬∀ (s : Cluster) (x : Option _ × (Cluster × History))
    (rp : ReverseProxyServer), s.ServedProxy edge.metadata.key "uid-edge" →
    (∀ k, ¬s.Controls "uid-edge" k) →
    ProxySteps plainLibrary edge.metadata.key "uid-edge" (none, (s, {})) x →
    x.1 = some (.pure (.ok ())) → x.2.1.proxies.lookup edge.metadata.key = some rp →
    x.2.1.Tidy "uid-edge" rp := by
  intro h
  have first := reconcileEdge_steps (x := (unserved, {})) (by decide +kernel)
  have second := reconcileEdge_steps (x := switched) (by decide +kernel)
  have edit : ProxySteps plainLibrary edge.metadata.key "uid-edge"
      (some (.pure (.ok ())), (reconcileEdge (unserved, {})).2) (none, switched) :=
    .head .stop (.single (.idle ⟨proxyEdited_setProxyType _ _, rfl⟩))
  have left : (reconcileEdge switched).2.1.Controls "uid-edge"
      ⟨.configMap, "minikura", "velocity-edge-config"⟩ := by
    unfold Cluster.Controls
    decide +kernel
  have stored : ((reconcileEdge switched).2.1.proxies.lookup edge.metadata.key).map generatedKeys =
      some [⟨.configMap, "minikura", "bungeecord-edge-config"⟩,
        ⟨.service, "minikura", "bungeecord-edge"⟩,
        ⟨.deployment, "minikura", "bungeecord-edge"⟩] := by
    decide +kernel
  obtain ⟨rp, hrp, hkeys⟩ := Option.map_eq_some_iff.mp stored
  have hns : rp.metadata.ns = "minikura" := by
    have hhead := congrArg (fun keys => keys.head?.map ObjectKey.ns) hkeys
    exact Option.some.inj hhead
  have hmem := h unserved _ rp unserved_served unserved_none (first.trans (edit.trans second)) rfl
    hrp _ (by decide) hns.symm left
  rw [hkeys] at hmem
  revert hmem
  decide

end Minikura.Operator
