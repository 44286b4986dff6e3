import Minikura.Concurrency.Observation
import Minikura.Operator.Controller

/-!
# Failures in the status

A `Reconcile` that fails writes the failure into the status, by a patch of what the edit
changes of the status in memory. When what failed is the status patch of `updateStatus`
itself, memory already holds the edits of that patch and the stored status does not, so
that the second patch leaves out what both edits have in common.

## Main definitions

* `MinecraftServerStatus.Reports` — a status that reports a failure completely.
* `Report` — what is remembered of a run.

## Main results

* `failure_reported_iff` — when a failure that is written into the status is reported
  completely, for both kinds of resources.
* `failure_not_reported` — a refused status patch, then a report without a generation.
-/

namespace Minikura.Operator
open Concurrency

variable {lib : Library}

/-! ## The status of a failure -/

/-- The failure is reported completely. -/
structure MinecraftServerStatus.Reports (s : MinecraftServerStatus) (generation : Int)
    (cause : Error) : Prop where
  phase : s.phase = Types.phaseFailed
  message : s.message = cause.message
  observedGeneration : s.observedGeneration = generation
  ready : ∃ c, s.conditions.filter (·.type = Types.conditionReady) = [c] ∧ c.status = false ∧
    c.observedGeneration = generation

/-- No two conditions have the same type, as the API server makes sure. -/
def MinecraftServerStatus.Valid (s : MinecraftServerStatus) : Prop :=
  (s.conditions.map (·.type)).Nodup

/-- Where nothing is named twice, the entries of a name are the one entry. -/
theorem filter_eq_singleton {α β : Type} [DecidableEq β] {f : α → β} {l : List α} {a : α}
    (hl : (l.map f).Nodup) (ha : a ∈ l) : l.filter (fun x => f x = f a) = [a] := by
  induction l with
  | nil => cases ha
  | cons b l ih =>
    rw [List.map_cons, List.nodup_cons] at hl
    rcases List.mem_cons.mp ha with rfl | ha
    · have hnone : l.filter (fun x => f x = f a) = [] := by
        refine List.filter_eq_nil_iff.mpr fun x hx hfx => hl.1 ?_
        rw [← of_decide_eq_true hfx]
        exact List.mem_map_of_mem hx
      rw [List.filter_cons_of_pos (by simp), hnone]
    · have hb : f b ≠ f a := fun h => hl.1 (h ▸ List.mem_map_of_mem ha)
      rw [List.filter_cons_of_neg (by simpa using hb), ih hl.2 ha]

theorem nodup_setStatusCondition (hlib : lib.Documented) {conditions : List Condition}
    (h : (conditions.map (·.type)).Nodup) (c : Condition) :
    ((lib.setStatusCondition conditions c).map (·.type)).Nodup := by
  rw [hlib.types]
  split_ifs with hc
  · exact h
  · exact List.nodup_append'.mpr ⟨h, List.nodup_singleton _, by simpa using hc⟩

/-- The one condition of its type is the one that was set. -/
theorem filter_setCondition (hlib : lib.Documented) {conditions : List Condition}
    (h : (conditions.map (·.type)).Nodup) (c : Condition) :
    ∃ e : Condition, (setCondition lib conditions c).filter (·.type = c.type) = [e] ∧
      e.Says { c with reason := if c.reason = "" then "Unknown" else c.reason } := by
  unfold setCondition
  generalize hd : ({ c with reason := if c.reason = "" then "Unknown" else c.reason } :
    Condition) = d
  have htype : d.type = c.type := hd ▸ rfl
  have hmem : d.type ∈ (lib.setStatusCondition conditions d).map (·.type) := by
    rw [hlib.types]
    split_ifs with hc
    · exact hc
    · simp
  obtain ⟨e, he, het⟩ := List.mem_map.mp hmem
  refine ⟨e, ?_, hlib.set conditions d h e he het⟩
  rw [← htype, ← het]
  exact filter_eq_singleton (nodup_setStatusCondition hlib h d) he

namespace MinecraftServerStatus

variable {s : MinecraftServerStatus} {generation ready replicas : Int} {reason endpoint : String}
  {cause : Error}

theorem Valid.failed (hlib : lib.Documented) (h : s.Valid) :
    (s.failed lib generation reason cause).Valid := nodup_setStatusCondition hlib h _

theorem Valid.observed (hlib : lib.Documented) (h : s.Valid) :
    (s.observed lib generation ready replicas endpoint).Valid := nodup_setStatusCondition hlib h _

theorem reports_failed (hlib : lib.Documented) (h : s.Valid) :
    (s.failed lib generation reason cause).Reports generation cause where
  phase := rfl
  message := rfl
  observedGeneration := rfl
  ready := by
    obtain ⟨e, he, hsaid⟩ := filter_setCondition hlib h
      { type := Types.conditionReady, status := false, reason := reason
        message := cause.message, observedGeneration := generation }
    exact ⟨e, he, congrArg Condition.status hsaid, congrArg Condition.observedGeneration hsaid⟩

theorem phaseFromReady_mem (ready : Int) :
    phaseFromReady ready ∈ [Types.phaseRunning, Types.phasePending] := by
  unfold phaseFromReady
  split_ifs <;> decide

theorem phaseFromReady_ne {ready : Int} {phase : String}
    (h : phase ∉ [Types.phaseRunning, Types.phasePending]) : phaseFromReady ready ≠ phase :=
  fun he => h (he ▸ phaseFromReady_mem ready)

/-- The condition of a failure is not the one of an observation. -/
theorem conditions_failed_ne (hlib : lib.Documented) (h : s.Valid)
    (hreason : reason ∉ ["", Types.phaseRunning, Types.phasePending]) :
    (s.observed lib generation ready replicas endpoint).conditions ≠
      ((s.observed lib generation ready replicas endpoint).failed lib generation reason
        cause).conditions := by
  intro he
  have hfilter := congrArg (List.filter (·.type = Types.conditionReady)) he
  obtain ⟨d, hobserved, hd⟩ := filter_setCondition hlib h
    { type := Types.conditionReady, status := ready > 0, reason := phaseFromReady ready
      observedGeneration := generation }
  have hvalid : (s.observed lib generation ready replicas endpoint).Valid := h.observed hlib
  obtain ⟨d', hfailed, hd'⟩ := filter_setCondition hlib hvalid
    { type := Types.conditionReady, status := false, reason := reason
      message := cause.message, observedGeneration := generation }
  have heads := hobserved.symm.trans (hfilter.trans hfailed)
  have hempty : reason ≠ "" := fun h => hreason (h ▸ List.mem_cons_self ..)
  obtain rfl : d = d' := (List.cons.inj heads).1
  have hphase : d.reason = phaseFromReady ready :=
    (congrArg Condition.reason hd).trans (if_neg (phaseFromReady_ne (by decide)))
  have hr : d.reason = reason := (congrArg Condition.reason hd').trans (if_neg hempty)
  refine hreason (List.mem_cons_of_mem _ ?_)
  exact (hphase.symm.trans hr) ▸ phaseFromReady_mem ready

/-- What a patch makes of the stored status depends on nothing but the fields. -/
theorem ofDocument_congr {d d' : StatusDocument} (h : ∀ f, f ≠ .backends → d f = d' f) :
    ofDocument d = ofDocument d' := by
  simp only [ofDocument, h .phase (by simp), h .message (by simp), h .readyReplicas (by simp),
    h .replicas (by simp), h .endpoint (by simp), h .observedGeneration (by simp),
    h .conditions (by simp)]

/-- The report of a refused status patch is complete where the stored status happened to
agree with the edits that the patch has in common with the report. -/
theorem reports_afterRefused_iff (hlib : lib.Documented) (h : s.Valid)
    (hreason : reason ∉ ["", Types.phaseRunning, Types.phasePending]) :
    (ofDocument ((MergePatch.diff (s.observed lib generation ready replicas endpoint).document
      ((s.observed lib generation ready replicas endpoint).failed lib generation reason
        cause).document).apply s.document)).Reports generation cause ↔
    s.observedGeneration = generation ∧ (cause.message ≠ "" ∨ s.message = "") := by
  have hvalid : (s.observed lib generation ready replicas endpoint).Valid := h.observed hlib
  have hne := @conditions_failed_ne lib s generation ready replicas reason endpoint cause hlib h
    hreason
  have hophase : (s.observed lib generation ready replicas endpoint).phase ≠ Types.phaseFailed :=
    phaseFromReady_ne (by decide)
  have homessage : (s.observed lib generation ready replicas endpoint).message = "" := rfl
  have hogeneration :
      (s.observed lib generation ready replicas endpoint).observedGeneration = generation := rfl
  generalize s.observed lib generation ready replicas endpoint = o at *
  have hphase : (MergePatch.diff o.document (o.failed lib generation reason cause).document).apply
      s.document .phase = FieldValue.ofString Types.phaseFailed := by
    refine MergePatch.apply_diff_of_ne fun he => hophase ?_
    simpa [document, failed] using congrArg FieldValue.toString? he
  have hmessage : (MergePatch.diff o.document (o.failed lib generation reason cause).document).apply
      s.document .message =
      FieldValue.ofString (if cause.message = "" then s.message else cause.message) := by
    split_ifs with hc
    · exact MergePatch.apply_diff_of_eq (by simp [document, failed, homessage, hc])
    · refine MergePatch.apply_diff_of_ne fun he => hc ?_
      simpa [document, failed, homessage] using (congrArg FieldValue.toString? he).symm
  have hgeneration : (MergePatch.diff o.document
      (o.failed lib generation reason cause).document).apply s.document .observedGeneration =
      FieldValue.ofInt s.observedGeneration :=
    MergePatch.apply_diff_of_eq (by simp [document, failed, hogeneration])
  have hconditions : (MergePatch.diff o.document
      (o.failed lib generation reason cause).document).apply s.document .conditions =
      FieldValue.ofConditions (o.failed lib generation reason cause).conditions := by
    refine MergePatch.apply_diff_of_ne fun he => hne ?_
    simpa [document] using congrArg FieldValue.toConditions? he
  constructor
  · intro hreports
    have hg := hreports.observedGeneration
    have hm := hreports.message
    simp only [ofDocument, hgeneration, hmessage, FieldValue.toInt?_ofInt,
      FieldValue.toString?_ofString] at hg hm
    refine ⟨hg, or_iff_not_imp_left.mpr fun hc => ?_⟩
    rw [not_not] at hc
    rwa [if_pos hc, hc] at hm
  · rintro ⟨hg, hm⟩
    refine ⟨?_, ?_, ?_, ?_⟩
    · simp only [ofDocument, hphase, FieldValue.toString?_ofString]
    · simp only [ofDocument, hmessage, FieldValue.toString?_ofString]
      split_ifs with hc
      · rw [hm.resolve_left (not_not.mpr hc), hc]
      · rfl
    · simpa only [ofDocument, hgeneration, FieldValue.toInt?_ofInt] using hg
    · simp only [ofDocument, hconditions, FieldValue.toConditions?_ofConditions]
      exact (reports_failed hlib hvalid).ready

end MinecraftServerStatus

/-! ## What a run is judged by -/

inductive ResourceKind where
  | server
  | proxy
deriving Repr, DecidableEq

/-- `Reconcile` of both controllers. -/
def reconcile (lib : Library) : ResourceKind → NamespacedName → Task Unit
  | .server, key => reconcileMinecraftServer lib key
  | .proxy, key => reconcileReverseProxyServer lib key

def patchStatus (kind : ResourceKind) (key : NamespacedName) (patch : StatusPatch) : Task Unit :=
  match kind with
  | .server => await (.patchServerStatus key patch)
  | .proxy => await (.patchProxyStatus key patch)

/-- The resource is stored with this status, of which a proxy also has its backends. -/
def Cluster.Stores (s : Cluster) (key : NamespacedName) (status : MinecraftServerStatus) :
    ResourceKind → Prop
  | .server => ∃ mc, s.servers.lookup key = some mc ∧ mc.metadata.key = key ∧ mc.status = status
  | .proxy => ∃ rp, s.proxies.lookup key = some rp ∧ rp.metadata.key = key ∧
    rp.status.toMinecraftServerStatus = status

theorem Cluster.Stores.unique {s : Cluster} {key : NamespacedName} {kind : ResourceKind}
    {status status' : MinecraftServerStatus} (h : s.Stores key status kind)
    (h' : s.Stores key status' kind) : status = status' := by
  cases kind with
  | server =>
    obtain ⟨mc, hmc, -, rfl⟩ := h
    obtain ⟨mc', hmc', -, rfl⟩ := h'
    rw [Option.some.inj (hmc.symm.trans hmc')]
  | proxy =>
    obtain ⟨rp, hrp, -, rfl⟩ := h
    obtain ⟨rp', hrp', -, rfl⟩ := h'
    rw [Option.some.inj (hrp.symm.trans hrp')]

/-- What a run works on. -/
structure Snapshot where
  generation : Int
  status : MinecraftServerStatus

/-- What is remembered of a run: what was read, and the answers to the status patches, the
last one first. -/
structure Report where
  snapshot : Option Snapshot := none
  patches : List (Except Error Unit) := []

def Report.record (kind : ResourceKind) (key : NamespacedName) :
    (c : Call) → Cluster → Settled Error Answer c → Report → Report
  | .getServer k, _, .ok mc, h =>
    if kind = .server ∧ k = key then
      { h with snapshot := some ⟨mc.metadata.generation, mc.status⟩ } else h
  | .getProxy k, _, .ok rp, h =>
    if kind = .proxy ∧ k = key then
      { h with snapshot := some ⟨rp.metadata.generation, rp.status.toMinecraftServerStatus⟩ }
    else h
  | .patchServerStatus k _, _, r, h =>
    if kind = .server ∧ k = key then { h with patches := r :: h.patches } else h
  | .patchProxyStatus k _, _, r, h =>
    if kind = .proxy ∧ k = key then { h with patches := r :: h.patches } else h
  | _, _, _, h => h

/-- Any request may fail, but a status patch that fails has no effect. -/
abbrev reportApi (kind : ResourceKind) (key : NamespacedName) :
    Handler Call (Settled Error Answer) (Cluster × Report) :=
  (flakyApi.restrict fun c s r s' => c.patchesStatus → (∃ e, r = .error e) → s' = s).observe
    (Report.record kind key)

/-- Anything but a change of the status or the end of the resource. -/
def reporting (kind : ResourceKind) (key : NamespacedName) : Contract Call (Cluster × Report) where
  rely x y := (∀ status, x.1.Stores key status kind → y.1.Stores key status kind) ∧ y.2 = x.2
  guar _ _ _ := True
  refl _ := ⟨fun _ h => h, rfl⟩
  trans _ _ _ h h' := ⟨fun status hs => h'.1 status (h.1 status hs), h'.2.trans h.2⟩

/-- What a run ends with: where it returns a cause and its last status patch was accepted,
the report of the cause is complete exactly if that patch was the only one, or the status
read happened to agree with what the refused patch was to write. -/
def Reported (kind : ResourceKind) (key : NamespacedName) (status : MinecraftServerStatus)
    (r : Except Error Unit) (x : Cluster × Report) : Prop :=
  ∀ cause, r = .error cause → x.2.patches.head? = some (.ok ()) →
    ∃ generation, x.2.snapshot = some ⟨generation, status⟩ ∧
      ((∃ status', x.1.Stores key status' kind ∧ status'.Reports generation cause) ↔
        x.2.patches = [.ok ()] ∨ status.observedGeneration = generation ∧
          (cause.message ≠ "" ∨ status.message = ""))

/-! ## Steps of a run -/

variable {kind : ResourceKind} {key : NamespacedName} {snapshot : Snapshot}
  {log : List (Except Error Unit)} {x y : Cluster × Report}

/-- The run has read the resource, and nothing has been written into its status. -/
structure Unwritten (kind : ResourceKind) (key : NamespacedName) (snapshot : Snapshot)
    (log : List (Except Error Unit)) (x : Cluster × Report) : Prop where
  stored : x.1.Stores key snapshot.status kind
  report : x.2 = ⟨some snapshot, log⟩

theorem Unwritten.stable (h : Unwritten kind key snapshot log x)
    (hr : (reporting kind key).rely x y) : Unwritten kind key snapshot log y :=
  ⟨hr.1 _ h.stored, hr.2.trans h.report⟩

/-- The calls about objects. -/
def Call.onObjects : Call → Bool
  | .get _ | .apply .. | .delete _ | .listServers .. => true
  | _ => false

theorem Cluster.Stores.of_eq {s s' : Cluster} {status : MinecraftServerStatus}
    (h : s.Stores key status kind) (hs : s'.servers = s.servers ∧ s'.proxies = s.proxies) :
    s'.Stores key status kind := by
  cases kind with
  | server => simpa only [Cluster.Stores, hs.1] using h
  | proxy => simpa only [Cluster.Stores, hs.2] using h

theorem Unwritten.of_only {α : Type} {p : Prog Call (Settled Error Answer) α}
    (hp : p.Only fun c => c.onObjects) (hx : Unwritten kind key snapshot log x) :
    wp (reportApi kind key) (reporting kind key) p
      (fun _ => Unwritten kind key snapshot log) x := by
  refine wp_of_only hp hx (fun _ _ => Unwritten.stable) fun c s r t hc hs ht => ⟨trivial, ?_, ?_⟩
  · refine hs.stored.of_eq ((flakyStep_of_flakyApi ht.1.1).resources ?_)
    cases c <;> first | rfl | cases hc
  · rw [ht.2, hs.report]
    cases c <;> first | rfl | cases hc

/-- The common part of a proxy's status is patched as that of a server's. -/
theorem ofDocument_apply_proxy (patch : StatusPatch) (status : ReverseProxyServerStatus) :
    (ReverseProxyServerStatus.ofDocument (patch.apply status.document)).toMinecraftServerStatus =
      .ofDocument (patch.apply status.toMinecraftServerStatus.document) :=
  MinecraftServerStatus.ofDocument_congr fun f hf => by
    cases f <;> first | rfl | exact absurd rfl hf

theorem stores_handle_patch {s : Cluster} {status : MinecraftServerStatus} (patch : StatusPatch)
    (h : s.Stores key status kind) :
    ∃ s', s'.Stores key (.ofDocument (patch.apply status.document)) kind ∧ match kind with
      | .server => handle (.patchServerStatus key patch) s = (.ok (), s')
      | .proxy => handle (.patchProxyStatus key patch) s = (.ok (), s') := by
  cases kind with
  | server =>
    obtain ⟨mc, hmc, hkey, rfl⟩ := h
    let status := MinecraftServerStatus.ofDocument (patch.apply mc.status.document)
    refine ⟨{ s with servers := s.servers.insert key { mc with status := status } },
      ⟨_, AList.lookup_insert _, hkey, rfl⟩, ?_⟩
    simp [handle, hmc, status]
  | proxy =>
    obtain ⟨rp, hrp, hkey, rfl⟩ := h
    let status := ReverseProxyServerStatus.ofDocument (patch.apply rp.status.document)
    refine ⟨{ s with proxies := s.proxies.insert key { rp with status := status } },
      ⟨_, AList.lookup_insert _, hkey, ofDocument_apply_proxy patch rp.status⟩, ?_⟩
    simp [handle, hrp, status]

/-- A status patch is carried out, or has no effect. -/
theorem wp_patchStatus {patch : StatusPatch} (hx : Unwritten kind key snapshot log x) :
    wp (reportApi kind key) (reporting kind key) (patchStatus kind key patch).run
      (fun r y => match r with
        | .ok _ => y.1.Stores key (.ofDocument (patch.apply snapshot.status.document)) kind ∧
          y.2 = ⟨some snapshot, .ok () :: log⟩
        | .error e => Unwritten kind key snapshot (.error e :: log) y) x := by
  have done : ∀ {r : Except Error Unit} {s : Cluster} {u : Cluster × Report},
      s.Stores key (.ofDocument (patch.apply snapshot.status.document)) kind →
      (∀ a, r = .ok a → u.1 = s) → (∀ e, r = .error e → u.1.Stores key snapshot.status kind) →
      u.2 = ⟨some snapshot, r :: log⟩ → wp (reportApi kind key) (reporting kind key) (.pure r)
        (fun r y => match r with
          | .ok _ => y.1.Stores key (.ofDocument (patch.apply snapshot.status.document)) kind ∧
            y.2 = ⟨some snapshot, .ok () :: log⟩
          | .error e => Unwritten kind key snapshot (.error e :: log) y) u := by
    intro r s u hs hok herror hlog v hv
    cases r with
    | ok a => exact ⟨hv.1 _ (hok a rfl ▸ hs), hv.2.trans hlog⟩
    | error e => exact ⟨hv.1 _ (herror e rfl), hv.2.trans hlog⟩
  -- the two kinds differ in the call only
  cases kind
  all_goals
    refine wp_call (Unwritten _ key snapshot log) hx (fun _ _ => Unwritten.stable)
      fun t r u ht hu => ⟨trivial, ?_⟩
    obtain ⟨s', hs', hhandle⟩ := stores_handle_patch patch ht.stored
    refine done hs' (fun a ha => ?_) (fun e he => ?_) ?_
    · have hok := (flakyStep_of_flakyApi hu.1.1).ok a ha
      exact congrArg Prod.snd (hok.symm.trans hhandle)
    · exact (hu.1.2 rfl ⟨e, he⟩).symm ▸ ht.stored
    · rw [hu.2, ht.report]
      simp [Report.record]

/-! ## Reporting -/

/-- The status in memory when a failure is reported: as it was read, or with the edits of
the refused patch. -/
def InMemory (lib : Library) (snapshot : Snapshot) (cause : Error) (log : List (Except Error Unit))
    (status : MinecraftServerStatus) : Prop :=
  status = snapshot.status ∧ log = [] ∨ ∃ ready replicas endpoint,
    status = snapshot.status.observed lib snapshot.generation ready replicas endpoint ∧
      log = [.error cause]

/-- The two documents agree in all that servers and proxies have in common. -/
def SameStatus (d d' : StatusDocument) : Prop := ∀ f, f ≠ .backends → d f = d' f

theorem wp_report {status : MinecraftServerStatus} {reason : String} {cause : Error}
    {before after : StatusDocument} (hlib : lib.Documented) (hvalid : snapshot.status.Valid)
    (hreason : reason ∉ ["", Types.phaseRunning, Types.phasePending])
    (hmemory : InMemory lib snapshot cause log status)
    (hbefore : SameStatus before status.document)
    (hafter : SameStatus after (status.failed lib snapshot.generation reason cause).document)
    (hx : Unwritten kind key snapshot log x) :
    wp (reportApi kind key) (reporting kind key)
      (failWithStatus (patchStatus kind key) before after cause).run
      (Reported kind key snapshot.status) x := by
  refine wp_failWithStatus (wp_mono (wp_patchStatus hx) fun r y hy => ?_)
  cases r with
  | error e =>
    intro z hz cause' _ hlast
    rw [hz.2, hy.report] at hlast
    cases hlast
  | ok u =>
    intro z hz cause' hcause _
    cases hcause
    refine ⟨snapshot.generation, by rw [hz.2, hy.2], ?_⟩
    have hsame : MinecraftServerStatus.ofDocument
        ((MergePatch.diff before after).apply snapshot.status.document) = .ofDocument
        ((MergePatch.diff status.document (status.failed lib snapshot.generation reason
          cause).document).apply snapshot.status.document) :=
      MinecraftServerStatus.ofDocument_congr fun f hf => by
        simp only [MergePatch.apply, MergePatch.diff, hbefore f hf, hafter f hf]
    have hstored := hz.1 _ (hsame ▸ hy.1)
    have hreports : (∃ status', z.1.Stores key status' kind ∧
        status'.Reports snapshot.generation cause) ↔ (MinecraftServerStatus.ofDocument
          ((MergePatch.diff status.document (status.failed lib snapshot.generation reason
            cause).document).apply snapshot.status.document)).Reports snapshot.generation cause :=
      ⟨fun h => h.elim fun _ h => h.1.unique hstored ▸ h.2, fun hr => ⟨_, hstored, hr⟩⟩
    rw [hreports, hz.2, hy.2]
    rcases hmemory with ⟨rfl, rfl⟩ | ⟨ready, replicas, endpoint, rfl, rfl⟩
    · rw [MergePatch.apply_diff_self, MinecraftServerStatus.ofDocument_document]
      exact iff_of_true (MinecraftServerStatus.reports_failed hlib hvalid) (.inl rfl)
    · rw [MinecraftServerStatus.reports_afterRefused_iff hlib hvalid hreason]
      simp

/-- A step about objects, which may fail. -/
theorem wp_orFail_reported {step rest : Task Unit} {fail : Error → Task Unit}
    (hstep : step.run.Only fun c => c.onObjects) (hx : Unwritten kind key snapshot [] x)
    (hfail : ∀ e y, Unwritten kind key snapshot [] y →
      wp (reportApi kind key) (reporting kind key) (fail e).run
        (Reported kind key snapshot.status) y)
    (hrest : ∀ y, Unwritten kind key snapshot [] y →
      wp (reportApi kind key) (reporting kind key) rest.run
        (Reported kind key snapshot.status) y) :
    wp (reportApi kind key) (reporting kind key) (orFail step fail rest).run
      (Reported kind key snapshot.status) x := by
  refine wp_orFail (wp_mono (hx.of_only hstep) fun r y hy => ?_)
  cases r with
  | ok u => exact hrest y hy
  | error e => exact hfail e y hy

theorem Reported.of_ok {status : MinecraftServerStatus} {a : Unit} :
    Reported kind key status (.ok a) x := nofun

/-! ## Minecraft servers -/

section Server

variable {mc : MinecraftServer} {reason : String} {cause : Error}

theorem wp_serverFail (hlib : lib.Documented) (hvalid : snapshot.status.Valid)
    (hkey : mc.metadata.key = key) (hgeneration : mc.metadata.generation = snapshot.generation)
    (hreason : reason ∉ ["", Types.phaseRunning, Types.phasePending])
    (hmemory : InMemory lib snapshot cause log mc.status)
    (hx : Unwritten .server key snapshot log x) :
    wp (reportApi .server key) (reporting .server key) (mc.fail lib reason cause).run
      (Reported .server key snapshot.status) x := by
  subst hkey
  unfold MinecraftServer.fail
  rw [hgeneration]
  exact wp_report hlib hvalid hreason hmemory (fun _ _ => rfl) (fun _ _ => rfl) hx

/-- Where the outcome is an error, memory holds what was read, or also the edits that were
refused with that error. -/
theorem wp_serverUpdateStatus {stateful : Bool} (hkey : mc.metadata.key = key)
    (hgeneration : mc.metadata.generation = snapshot.generation)
    (hstatus : mc.status = snapshot.status) (hx : Unwritten .server key snapshot [] x) :
    wp (reportApi .server key) (reporting .server key) (mc.updateStatus lib stateful).run
      (fun r y => ∃ mc' r', r = .ok (mc', r') ∧ mc'.metadata = mc.metadata ∧
        ∀ e, r' = .error e → ∃ log, InMemory lib snapshot e log mc'.status ∧
          Unwritten .server key snapshot log y) x := by
  subst hkey
  refine wp_async_bind (wp_map.mpr (wp_mono (hx.of_only ?_) fun r y hy => ?_))
  · exact Async.only_bind (only_readOr (fun _ => rfl) _ _ _) fun _ =>
      Async.only_bind (only_readOr (fun _ => rfl) _ _ _) fun _ => trivial
  · cases r with
    | error e =>
      refine fun z hz => ⟨mc, .error e, rfl, rfl, fun e' he => ⟨[], .inl ⟨hstatus, rfl⟩, ?_⟩⟩
      exact hy.stable hz
    | ok read =>
      obtain ⟨⟨ready, replicas⟩, endpoint⟩ := read
      refine wp_async_bind (wp_map.mpr (wp_mono (wp_patchStatus hy) fun r z hz => ?_))
      cases r with
      | ok u => exact fun w hw => ⟨_, .ok u, rfl, rfl, nofun⟩
      | error e =>
        refine fun w hw => ⟨_, .error e, rfl, rfl, fun e' he => ⟨[.error e], .inr ?_,
          hz.stable hw⟩⟩
        cases he
        exact ⟨ready, replicas, endpoint, by rw [hstatus, hgeneration], rfl⟩

theorem wp_serverReconcile (hlib : lib.Documented) (hvalid : snapshot.status.Valid)
    (hkey : mc.metadata.key = key) (hgeneration : mc.metadata.generation = snapshot.generation)
    (hstatus : mc.status = snapshot.status) (hx : Unwritten .server key snapshot [] x) :
    wp (reportApi .server key) (reporting .server key) (mc.reconcile lib).run
      (Reported .server key snapshot.status) x := by
  have fail : ∀ (reason : String), reason ∉ ["", Types.phaseRunning, Types.phasePending] →
      ∀ e y, Unwritten .server key snapshot [] y →
        wp (reportApi .server key) (reporting .server key) (mc.fail lib reason e).run
          (Reported .server key snapshot.status) y := fun reason hreason e y hy =>
    wp_serverFail hlib hvalid hkey hgeneration hreason (.inl ⟨hstatus, rfl⟩) hy
  have only : ∀ g, (apply lib mc.metadata g).run.Only fun c => c.onObjects :=
    fun _ => only_apply (fun _ => rfl) (fun _ => rfl) _
  unfold MinecraftServer.reconcile
  dsimp only
  split_ifs
  · exact fun _ _ => .of_ok
  · exact fail _ (by decide) _ _ hx
  · exact fail _ (by decide) _ _ hx
  · refine wp_orFail_reported (only _) hx (fail _ (by decide)) fun x hx => ?_
    refine wp_orFail_reported (only _) hx (fail _ (by decide)) fun x hx => ?_
    refine wp_orFail_reported (only_reconcileWorkload (fun _ => rfl) (fun _ _ _ => rfl) _ _) hx
      (fail _ (by decide)) fun x hx => ?_
    refine wp_orFail_reported (only_pruneOppositeWorkload (fun _ => rfl) (fun _ _ => rfl) _ _) hx
      (fail _ (by decide)) fun x hx => ?_
    refine wp_async_bind (wp_mono (wp_serverUpdateStatus hkey hgeneration hstatus hx)
      fun r y hy => ?_)
    obtain ⟨mc', r', rfl, hmeta, hmemory⟩ := hy
    cases r' with
    | ok u => exact fun _ _ => .of_ok
    | error e =>
      obtain ⟨log, hmemory, hy⟩ := hmemory e rfl
      exact wp_serverFail hlib hvalid (hmeta ▸ hkey) (hmeta ▸ hgeneration) (by decide) hmemory hy

end Server

/-! ## Reverse proxies -/

section Proxy

variable {rp : ReverseProxyServer} {reason : String} {cause : Error}

/-- The documents of a proxy's and a server's status. -/
theorem sameStatus_proxy (status : ReverseProxyServerStatus) :
    SameStatus status.document status.toMinecraftServerStatus.document := fun f hf => by
  cases f <;> first | rfl | exact absurd rfl hf

theorem wp_proxyFail (hlib : lib.Documented) (hvalid : snapshot.status.Valid)
    (hkey : rp.metadata.key = key) (hgeneration : rp.metadata.generation = snapshot.generation)
    (hreason : reason ∉ ["", Types.phaseRunning, Types.phasePending])
    (hmemory : InMemory lib snapshot cause log rp.status.toMinecraftServerStatus)
    (hx : Unwritten .proxy key snapshot log x) :
    wp (reportApi .proxy key) (reporting .proxy key) (rp.fail lib reason cause).run
      (Reported .proxy key snapshot.status) x := by
  subst hkey
  unfold ReverseProxyServer.fail
  rw [hgeneration]
  exact wp_report hlib hvalid hreason hmemory (sameStatus_proxy _) (sameStatus_proxy _) hx

theorem wp_proxyUpdateStatus (hkey : rp.metadata.key = key)
    (hgeneration : rp.metadata.generation = snapshot.generation)
    (hstatus : rp.status.toMinecraftServerStatus = snapshot.status)
    (hx : Unwritten .proxy key snapshot [] x) :
    wp (reportApi .proxy key) (reporting .proxy key) (rp.updateStatus lib).run
      (fun r y => ∃ rp' r', r = .ok (rp', r') ∧ rp'.metadata = rp.metadata ∧
        ∀ e, r' = .error e →
          ∃ log, InMemory lib snapshot e log rp'.status.toMinecraftServerStatus ∧
            Unwritten .proxy key snapshot log y) x := by
  subst hkey
  refine wp_async_bind (wp_map.mpr (wp_mono (hx.of_only ?_) fun r y hy => ?_))
  · exact Async.only_bind (only_readOr (fun _ => rfl) _ _ _) fun _ =>
      Async.only_bind (only_backends (fun _ _ => rfl) rp) fun _ =>
        Async.only_bind (only_readOr (fun _ => rfl) _ _ _) fun _ => trivial
  · cases r with
    | error e =>
      refine fun z hz => ⟨rp, .error e, rfl, rfl, fun e' he => ⟨[], .inl ⟨hstatus, rfl⟩, ?_⟩⟩
      exact hy.stable hz
    | ok read =>
      obtain ⟨⟨ready, replicas⟩, backends, endpoint⟩ := read
      refine wp_async_bind (wp_map.mpr (wp_mono (wp_patchStatus hy) fun r z hz => ?_))
      cases r with
      | ok u => exact fun w hw => ⟨_, .ok u, rfl, rfl, nofun⟩
      | error e =>
        refine fun w hw => ⟨_, .error e, rfl, rfl, fun e' he => ⟨[.error e], .inr ?_,
          hz.stable hw⟩⟩
        cases he
        refine ⟨ready, replicas, endpoint, ?_, rfl⟩
        rw [← hstatus, ← hgeneration]
        rfl

theorem wp_proxyReconcile (hlib : lib.Documented) (hvalid : snapshot.status.Valid)
    (hkey : rp.metadata.key = key) (hgeneration : rp.metadata.generation = snapshot.generation)
    (hstatus : rp.status.toMinecraftServerStatus = snapshot.status)
    (hx : Unwritten .proxy key snapshot [] x) :
    wp (reportApi .proxy key) (reporting .proxy key) (rp.reconcile lib).run
      (Reported .proxy key snapshot.status) x := by
  have fail : ∀ (reason : String), reason ∉ ["", Types.phaseRunning, Types.phasePending] →
      ∀ e y, Unwritten .proxy key snapshot [] y →
        wp (reportApi .proxy key) (reporting .proxy key) (rp.fail lib reason e).run
          (Reported .proxy key snapshot.status) y := fun reason hreason e y hy =>
    wp_proxyFail hlib hvalid hkey hgeneration hreason (.inl ⟨hstatus, rfl⟩) hy
  have only : ∀ g, (apply lib rp.metadata g).run.Only fun c => c.onObjects :=
    fun _ => only_apply (fun _ => rfl) (fun _ => rfl) _
  unfold ReverseProxyServer.reconcile
  split_ifs
  · exact fun _ _ => .of_ok
  · exact fail _ (by decide) _ _ hx
  · exact fail _ (by decide) _ _ hx
  · refine wp_orFail_reported (only _) hx (fail _ (by decide)) fun x hx => ?_
    refine wp_orFail_reported (only _) hx (fail _ (by decide)) fun x hx => ?_
    refine wp_orFail_reported (only _) hx (fail _ (by decide)) fun x hx => ?_
    refine wp_orFail_reported (only_pruneStaleResources (fun _ => rfl) (fun _ _ => rfl)) hx
      (fail _ (by decide)) fun x hx => ?_
    refine wp_async_bind (wp_mono (wp_proxyUpdateStatus hkey hgeneration hstatus hx)
      fun r y hy => ?_)
    obtain ⟨rp', r', rfl, hmeta, hmemory⟩ := hy
    cases r' with
    | ok u => exact fun _ _ => .of_ok
    | error e =>
      obtain ⟨log, hmemory, hy⟩ := hmemory e rfl
      exact wp_proxyFail hlib hvalid (hmeta ▸ hkey) (hmeta ▸ hgeneration) (by decide) hmemory hy

end Proxy

/-! ## A whole run -/

theorem wp_reconcile_reported {status : MinecraftServerStatus} (hlib : lib.Documented)
    (hvalid : status.Valid) (hs : x.1.Stores key status kind) (hlog : x.2 = {}) :
    wp (reportApi kind key) (reporting kind key) (reconcile lib kind key).run
      (Reported kind key status) x := by
  have stable : ∀ y z : Cluster × Report, (y.1.Stores key status kind ∧ y.2 = {}) →
      (reporting kind key).rely y z → z.1.Stores key status kind ∧ z.2 = {} :=
    fun y z hy hr => ⟨hr.1 _ hy.1, hr.2.trans hy.2⟩
  cases kind with
  | server =>
    simp only [reconcile, reconcileMinecraftServer, Async.run_bind, Async.run_attempt, await,
      Async.await, ExceptT.run_mk, Prog.lift_bind, Prog.call_bind, Prog.pure_bind]
    refine wp_call (fun y => y.1.Stores key status .server ∧ y.2 = {}) ⟨hs, hlog⟩ stable
      fun y r z hy hH => ⟨trivial, ?_⟩
    obtain ⟨⟨mc, hmc, hkey, hstatus⟩, hlog⟩ := hy
    have hstep := flakyStep_of_flakyApi hH.1.1
    obtain ⟨hfound, hmissing⟩ := hstep.getServer hmc
    cases r with
    | error e =>
      -- the resource is there, so it is not said to be missing
      simp only [Task.run_ofExcept, ignoreNotFound, hmissing e rfl]
      intro w hw cause _ hlast
      rw [hw.2, hH.2, hlog] at hlast
      cases hlast
    | ok mc' =>
      obtain rfl := hfound mc' rfl
      subst hstatus
      have hunwritten : Unwritten .server key ⟨mc'.metadata.generation, mc'.status⟩ [] z := by
        refine ⟨Cluster.Stores.of_eq ⟨mc', hmc, hkey, rfl⟩ (hstep.resources rfl), ?_⟩
        rw [hH.2, hlog]
        simp [Report.record]
      exact wp_serverReconcile hlib hvalid hkey rfl rfl hunwritten
  | proxy =>
    simp only [reconcile, reconcileReverseProxyServer, Async.run_bind, Async.run_attempt, await,
      Async.await, ExceptT.run_mk, Prog.lift_bind, Prog.call_bind, Prog.pure_bind]
    refine wp_call (fun y => y.1.Stores key status .proxy ∧ y.2 = {}) ⟨hs, hlog⟩ stable
      fun y r z hy hH => ⟨trivial, ?_⟩
    obtain ⟨⟨rp, hrp, hkey, hstatus⟩, hlog⟩ := hy
    have hstep := flakyStep_of_flakyApi hH.1.1
    obtain ⟨hfound, hmissing⟩ := hstep.getProxy hrp
    cases r with
    | error e =>
      simp only [Task.run_ofExcept, ignoreNotFound, hmissing e rfl]
      intro w hw cause _ hlast
      rw [hw.2, hH.2, hlog] at hlast
      cases hlast
    | ok rp' =>
      obtain rfl := hfound rp' rfl
      subst hstatus
      have hunwritten : Unwritten .proxy key
          ⟨rp'.metadata.generation, rp'.status.toMinecraftServerStatus⟩ [] z := by
        refine ⟨Cluster.Stores.of_eq ⟨rp', hrp, hkey, rfl⟩ (hstep.resources rfl), ?_⟩
        rw [hH.2, hlog]
        simp [Report.record]
      exact wp_proxyReconcile hlib hvalid hkey rfl rfl hunwritten

/-- For both kinds of resources, any stored status and any requests failing, while others
may do anything but write the status: where `Reconcile` returns a cause whose report was
accepted, the stored status reports the cause completely, exactly if no status patch was
refused before, or the status stored before already had the generation, and no message
where the cause has none. -/
theorem failure_reported_iff {status : MinecraftServerStatus} {s s' : Cluster} {report : Report}
    {cause : Error} (hlib : lib.Documented) (hvalid : status.Valid) (hs : s.Stores key status kind)
    (run : Steps (reportApi kind key) (reporting kind key).rely
      ((reconcile lib kind key).run, (s, {})) (.pure (.error cause), (s', report)))
    (haccepted : report.patches.head? = some (.ok ())) :
    ∃ generation, report.snapshot = some ⟨generation, status⟩ ∧
      ((∃ status', s'.Stores key status' kind ∧ status'.Reports generation cause) ↔
        report.patches = [.ok ()] ∨ status.observedGeneration = generation ∧
          (cause.message ≠ "" ∨ status.message = "")) :=
  wp_result (wp_reconcile_reported (x := (s, {})) hlib hvalid hs rfl) (fun _ _ h => h) run cause
    rfl haccepted

def conflict : Error := { message := "the object has been modified" }

/-- Nothing fails, but for the first patch of a status if that is to be refused. -/
def refusing (refused : Bool) (key : NamespacedName) (c : Call) (x : Cluster × Report) :
    Option (Settled Error Answer c × (Cluster × Report)) :=
  if refused && c.patchesStatus && x.2.patches.isEmpty then
    some (.error conflict, x.1, Report.record .server key c x.1 (.error conflict) x.2)
  else answers (Report.record .server key) c x

theorem state_of_handle_error {c : Call} {s : Cluster} {e : Error} (hc : c.patchesStatus)
    (h : (handle c s).1 = .error e) : (handle c s).2 = s := by
  cases c with
  | patchServerStatus k patch =>
    simp only [handle] at h ⊢
    cases hk : s.servers.lookup k with
    | none => rfl
    | some mc =>
      rw [hk] at h
      cases h
  | patchProxyStatus k patch =>
    simp only [handle] at h ⊢
    cases hk : s.proxies.lookup k with
    | none => rfl
    | some rp =>
      rw [hk] at h
      cases h
  | _ => cases hc

theorem reportApi_of_refusing {refused : Bool} (c : Call) (x : Cluster × Report)
    (r : Settled Error Answer c) (y : Cluster × Report)
    (h : refusing refused key c x = some (r, y)) : reportApi .server key c x r y := by
  unfold refusing at h
  split_ifs at h
  · cases Option.some.inj h
    refine ⟨⟨⟨.inr ⟨conflict, rfl, .inl rfl⟩, fun e he hnot => ?_⟩, fun _ _ => rfl⟩, rfl⟩
    cases he
    cases hnot
  · cases Option.some.inj h
    exact ⟨⟨⟨.inl rfl, fun _ _ _ => rfl⟩, fun hc ⟨e, he⟩ => state_of_handle_error hc he⟩, rfl⟩

def creative : MinecraftServer where
  metadata := {
    name := "creative", ns := "minikura", uid := "uid-creative", generation := 1, deleting := false
    labels := [] }
  spec := { type := "STATELESS", listenPort := 25565 }

def storing (mc : MinecraftServer) : Cluster :=
  { Cluster.empty with servers := AList.singleton mc.metadata.key mc }

/-- A `Reconcile` of a server that is stored as given. -/
def reconcileStored (refused : Bool) (mc : MinecraftServer) :
    Prog Call (Settled Error Answer) (Except Error Unit) × (Cluster × Report) :=
  (reconcile plainLibrary .server mc.metadata.key).run.runTurns (refusing refused mc.metadata.key)
    (List.replicate 10 .go) (storing mc, {})

theorem reconcileStored_steps (refused : Bool) {mc : MinecraftServer} {r : Except Error Unit}
    (h : (reconcileStored refused mc).1.result? = some r) :
    Steps (reportApi .server mc.metadata.key) (reporting .server mc.metadata.key).rely
      ((reconcile plainLibrary .server mc.metadata.key).run, (storing mc, {}))
      (.pure r, (reconcileStored refused mc).2) :=
  steps_result reportApi_of_refusing h

theorem stores_storing (mc : MinecraftServer) :
    (storing mc).Stores mc.metadata.key mc.status .server :=
  ⟨mc, @List.dlookup_cons_eq _ (fun _ => MinecraftServer) _ [] mc.metadata.key mc, rfl, rfl⟩

/-- A failure that is reported: the port of the server is missing. -/
def portless : MinecraftServer := { creative with spec := { type := "STATELESS" } }

theorem failure_reported_iff_portless : ∃ generation,
    (reconcileStored false portless).2.2.snapshot = some ⟨generation, portless.status⟩ ∧
      ((∃ status', (reconcileStored false portless).2.1.Stores portless.metadata.key status'
          .server ∧ status'.Reports generation { message := "listenPort must be set" }) ↔
        (reconcileStored false portless).2.2.patches = [.ok ()] ∨
          portless.status.observedGeneration = generation ∧
          ("listenPort must be set" ≠ "" ∨ portless.status.message = "")) :=
  failure_reported_iff plainLibrary_documented List.nodup_nil (stores_storing portless)
    (reconcileStored_steps false (by decide +kernel)) (by decide +kernel)

/-- The first status patch is refused, and the report of that has no generation. -/
theorem failure_not_reported : ¬∀ (kind : ResourceKind) (key : NamespacedName)
    (status : MinecraftServerStatus) (s s' : Cluster) (report : Report) (cause : Error),
    status.Valid → s.Stores key status kind →
    Steps (reportApi kind key) (reporting kind key).rely
      ((reconcile plainLibrary kind key).run, (s, {})) (.pure (.error cause), (s', report)) →
    report.patches.head? = some (.ok ()) →
    ∃ snapshot, report.snapshot = some snapshot ∧
      ∃ status', s'.Stores key status' kind ∧ status'.Reports snapshot.generation cause := by
  intro h
  obtain ⟨snapshot, hsnapshot, status, ⟨mc, hmc, -, rfl⟩, hreports⟩ :=
    h .server creative.metadata.key creative.status (storing creative) _ _ conflict List.nodup_nil
      (stores_storing creative) (reconcileStored_steps true (by decide +kernel))
      (by decide +kernel)
  have hread : (reconcileStored true creative).2.2.snapshot.map (·.generation) = some 1 := by
    decide +kernel
  have hstored : ((reconcileStored true creative).2.1.servers.lookup creative.metadata.key).map
      (·.status.observedGeneration) = some 0 := by
    decide +kernel
  rw [hsnapshot, Option.map_some, Option.some.injEq] at hread
  rw [hmc, Option.map_some, Option.some.injEq] at hstored
  have hgeneration := hreports.observedGeneration
  omega

end Minikura.Operator
