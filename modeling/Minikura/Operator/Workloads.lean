import Minikura.Concurrency.Worker
import Minikura.Operator.Controller

/-!
# The workload of a Minecraft server

A server runs as a StatefulSet or as a Deployment, and its type may change at any time.
The controller applies the workload of the type it has read before it removes the other
one, so that a server that has a workload never loses its last.

## Main definitions

* `Edited` — what others may do meanwhile.
* `HasWorkload` — a workload controlled by the server exists.

## Main result

* `workload_exclusive` — runs of the controller, its requests failing anywhere.
-/

namespace Minikura.Operator
open Concurrency

variable {lib : Library} {key : NamespacedName} {uid : String}

/-! ## What a run is judged by -/

def workloadKind (stateful : Bool) : ObjectKind :=
  if stateful then .statefulSet else .deployment

def workloadKey (key : NamespacedName) (stateful : Bool) : ObjectKey :=
  ⟨workloadKind stateful, key.ns, serverName key.name⟩

namespace Cluster

/-- The resource is there and is not being deleted. -/
def Served (s : Cluster) (key : NamespacedName) (uid : String) : Prop :=
  ∃ mc, s.servers.lookup key = some mc ∧ mc.metadata.key = key ∧ mc.metadata.uid = uid ∧
    mc.metadata.deleting = false

def HasWorkload (s : Cluster) (key : NamespacedName) (uid : String) : Prop :=
  ∃ stateful, s.Controls uid (workloadKey key stateful)

/-- The server has a workload of its type and none of the other. -/
def Exclusive (s : Cluster) (key : NamespacedName) (uid : String) (stateful : Bool) : Prop :=
  s.Controls uid (workloadKey key stateful) ∧ ¬s.Controls uid (workloadKey key !stateful)

end Cluster

/-- Edits of the resource, and anything else but creating, deleting or handing over the
workloads of this server. -/
structure Edited (key : NamespacedName) (uid : String) (s s' : Cluster) : Prop where
  served : s.Served key uid → s'.Served key uid
  workloads : ∀ stateful, s'.controllerOf (workloadKey key stateful) =
    s.controllerOf (workloadKey key stateful)

/-- The spec a run works on: what it has read last. -/
def snapshotLog (key : NamespacedName) : (c : Call) → Cluster → Settled Error Answer c →
    Option MinecraftServer → Option MinecraftServer
  | .getServer k, _, .ok mc, log => if k = key then some mc else log
  | _, _, _, log => log

/-- The API server, with the snapshot. -/
abbrev snapshotApi (key : NamespacedName) :
    Handler Call (Settled Error Answer) (Cluster × Option MinecraftServer) :=
  flakyApi.observe (snapshotLog key)

/-! ## The contract of a run -/

variable {mc : MinecraftServer} {f : Bool → Option (Option String)}
  {x : Cluster × Option MinecraftServer}

/-- A run only ever takes away objects of this server, and never its last workload. -/
def reconciling (key : NamespacedName) (uid : String) :
    Contract Call (Cluster × Option MinecraftServer) where
  rely x y := Edited key uid x.1 y.1 ∧ y.2 = x.2
  guar _ x y := (x.1.Served key uid → y.1.Served key uid) ∧
    (x.1.HasWorkload key uid → y.1.HasWorkload key uid) ∧
    ∀ k, x.1.controllerOf k ≠ none → ¬x.1.Controls uid k → y.1.controllerOf k ≠ none
  refl _ := ⟨⟨fun h => h, fun _ => rfl⟩, rfl⟩
  trans _ _ _ h h' := ⟨⟨fun hs => h'.1.served (h.1.served hs),
    fun b => (h'.1.workloads b).trans (h.1.workloads b)⟩, h'.2.trans h.2⟩

theorem key_of_minecraftStatefulSet {sts : Generated}
    (h : minecraftStatefulSet lib mc = .ok sts) :
    sts.key = workloadKey mc.metadata.key true := by
  obtain ⟨_, rfl⟩ := minecraftStatefulSet_ok h
  rfl

/-- The run works on `mc`, and the workloads have the controllers `f`. -/
structure At (key : NamespacedName) (uid : String) (mc : MinecraftServer)
    (f : Bool → Option (Option String)) (x : Cluster × Option MinecraftServer) : Prop where
  served : x.1.Served key uid
  snapshot : x.2 = some mc
  workloads : ∀ stateful, x.1.controllerOf (workloadKey key stateful) = f stateful

theorem At.stable {y : Cluster × Option MinecraftServer} (h : At key uid mc f x)
    (hr : (reconciling key uid).rely x y) : At key uid mc f y where
  served := hr.1.served h.served
  snapshot := hr.2.trans h.snapshot
  workloads b := (hr.1.workloads b).trans (h.workloads b)

theorem flakyStep_of_snapshotApi {c : Call} {r : Settled Error Answer c}
    {y : Cluster × Option MinecraftServer} (h : snapshotApi key c x r y) :
    FlakyStep c x.1 r y.1 ∧ y.2 = snapshotLog key c x.1 r x.2 :=
  ⟨flakyStep_of_flakyApi h.1, h.2⟩

theorem served_of_flakyStep {c : Call} {s s' : Cluster} {r : Settled Error Answer c}
    (h : FlakyStep c s r s') (hs : s.Served key uid) : s'.Served key uid := by
  obtain ⟨mc, hmc, hmeta⟩ := hs
  obtain ⟨status, hstatus⟩ := h.server hmc
  exact ⟨_, hstatus, hmeta⟩

theorem guar_of_objects_eq {c : Call} {y : Cluster × Option MinecraftServer}
    (hs : x.1.Served key uid → y.1.Served key uid) (ho : y.1.objects = x.1.objects) :
    (reconciling key uid).guar c x y := by
  refine ⟨hs, ?_, fun k hk _ => ?_⟩
  · rintro ⟨b, hb⟩
    exact ⟨b, (controllerOf_of_objects_eq ho _).trans hb⟩
  · rwa [controllerOf_of_objects_eq ho]

/-- A call that writes no object and is no read of the resource. -/
theorem At.step_minor {c : Call} {r : Settled Error Answer c}
    {y : Cluster × Option MinecraftServer} (hc : c.minor) (hx : At key uid mc f x)
    (h : snapshotApi key c x r y) : (reconciling key uid).guar c x y ∧ At key uid mc f y := by
  obtain ⟨hstep, hlog⟩ := flakyStep_of_snapshotApi h
  have hobjects := hstep.objects (Call.calm_of_minor hc)
  refine ⟨guar_of_objects_eq (served_of_flakyStep hstep) hobjects,
    served_of_flakyStep hstep hx.served, ?_, fun b => ?_⟩
  · rw [hlog, ← hx.snapshot]
    cases c <;> first | rfl | cases hc
  · rw [controllerOf_of_objects_eq hobjects, hx.workloads b]

theorem keptByMinor_at :
    KeptByMinor (snapshotApi key) (reconciling key uid) (At key uid mc f) where
  stable _ _ := At.stable
  call _ _ _ _ hc hx h := hx.step_minor hc h

theorem wp_at_pure {α : Type} {a : α} {Q : α → Cluster × Option MinecraftServer → Prop}
    (hx : At key uid mc f x) (hQ : ∀ y, At key uid mc f y → Q a y) :
    wp (snapshotApi key) (reconciling key uid) (.pure a) Q x :=
  fun _ hr => hQ _ (hx.stable hr)

/-- What an apply leaves of the workloads: they are as before, or the one applied is
under this server's control; and it is, when the apply succeeds. -/
structure Applied (key : NamespacedName) (uid : String) (k : ObjectKey)
    (f f' : Bool → Option (Option String)) (r : Except Error Unit) : Prop where
  change : ∀ b, f' b = f b ∨ workloadKey key b = k ∧ f' b = some (some uid)
  ok : r = .ok () → ∀ b, workloadKey key b = k → f' b = some (some uid)

theorem wp_apply {g : Generated} {owner : ObjectMeta} (hlib : lib.Documented)
    (howner : owner.uid = uid) (hx : At key uid mc f x) :
    wp (snapshotApi key) (reconciling key uid) (apply lib owner g).run
      (fun r y => ∃ f', At key uid mc f' y ∧ Applied key uid g.key f f' r) x := by
  refine keptByMinor_at.apply hlib hx ?_ ?_ fun new y r z hnew hy hH => ?_
  · rintro r y z ⟨f', hy, happlied⟩ hyz
    exact ⟨f', hy.stable hyz, happlied⟩
  · exact fun e y hy => ⟨f, hy, fun _ => .inl rfl, nofun⟩
  obtain ⟨hstep, hz⟩ := flakyStep_of_snapshotApi hH
  rw [howner] at hnew
  obtain ⟨hchange, hok⟩ := hstep.apply hnew
  refine ⟨⟨served_of_flakyStep hstep, ?_, fun k hk _ => hstep.exists_of_apply hnew hk⟩,
    fun b => z.1.controllerOf (workloadKey key b),
    ⟨served_of_flakyStep hstep hy.served, hz.trans hy.snapshot, fun _ => rfl⟩,
    fun b => ?_, fun hr b hb => ?_⟩
  · rintro ⟨b, hb⟩
    refine ⟨b, ?_⟩
    rcases hchange (workloadKey key b) with h | ⟨-, h⟩
    · exact h.trans hb
    · exact h
  · rcases hchange (workloadKey key b) with h | ⟨hk, h⟩
    · exact .inl (h.trans (hy.workloads b))
    · exact .inr ⟨hk, h⟩
  · rw [hb]
    exact hok hr

theorem workloadKey_injective {b b' : Bool} (h : workloadKey key b = workloadKey key b') :
    b = b' := by
  have hk := congrArg ObjectKey.kind h
  cases b <;> cases b' <;> first | rfl | cases hk

/-- Removing the other workload, once the server has the one of its type. -/
theorem wp_pruneWorkload {owner : ObjectMeta} {stateful : Bool} (howner : owner.uid = uid)
    (hf : f stateful = some (some uid)) (hx : At key uid mc f x) :
    wp (snapshotApi key) (reconciling key uid)
      (pruneObject owner (workloadKey key !stateful)).run
      (fun r y => ∃ f', At key uid mc f' y ∧ (r = .ok () →
        f' stateful = some (some uid) ∧ f' (!stateful) ≠ some (some uid))) x := by
  refine wp_pruneObject (At key uid mc f)
    (fun y => At key uid mc f y ∧ f (!stateful) = some (some uid)) hx (fun _ _ => At.stable)
    (fun _ _ h hr => ⟨h.1.stable hr, h.2⟩) ?_ (fun y r z hy hH => ?_) fun y r z hy hH => ?_
  · rintro r y z ⟨f', hy, hf'⟩ hyz
    exact ⟨f', hy.stable hyz, hf'⟩
  · obtain ⟨hguar, hz⟩ := hy.step_minor rfl hH
    obtain ⟨-, hfound, hmissing⟩ := (flakyStep_of_snapshotApi hH).1.get
    refine ⟨hguar, ?_⟩
    cases r with
    | error e =>
      refine ⟨f, hz, fun hr => ⟨hf, ?_⟩⟩
      have he : e.notFound := by
        by_contra he
        simp [ignoreNotFound, he] at hr
      rw [← hy.workloads, hmissing e rfl he]
      nofun
    | ok obj =>
      have hobj : f (!stateful) = some obj.controller :=
        (hy.workloads _).symm.trans (hfound obj rfl)
      dsimp only
      split_ifs with hcontrolled
      · refine ⟨hz, hobj.trans ?_⟩
        simpa [Object.isControlledBy, howner] using hcontrolled
      · refine ⟨f, hz, fun _ => ⟨hf, ?_⟩⟩
        simpa [hobj, Object.isControlledBy, howner] using hcontrolled
  · obtain ⟨hy, hown⟩ := hy
    obtain ⟨hstep, hz⟩ := flakyStep_of_snapshotApi hH
    obtain ⟨hother, hgone⟩ := hstep.delete
    have hkeep : z.1.controllerOf (workloadKey key stateful) = some (some uid) := by
      rw [hother _ fun h => absurd (workloadKey_injective h) (by simp), hy.workloads, hf]
    refine ⟨⟨served_of_flakyStep hstep, fun _ => ⟨stateful, hkeep⟩, fun k hk hc => ?_⟩,
      fun b => z.1.controllerOf (workloadKey key b),
      ⟨served_of_flakyStep hstep hy.served, hz.trans hy.snapshot, fun _ => rfl⟩,
      fun hr => ⟨hkeep, ?_⟩⟩
    · exact hstep.exists_of_delete ((hy.workloads _).trans hown) hk hc
    · dsimp only
      rw [hgone hr]
      nofun

/-! ## A whole run -/

/-- What a run that returns no error has established. -/
def Established (key : NamespacedName) (uid : String) (r : Except Error Unit)
    (x : Cluster × Option MinecraftServer) : Prop :=
  r = .ok () → ∃ mc, x.2 = some mc ∧
    x.1.Exclusive key uid (mc.spec.type = Types.serverStateful)

theorem Established.of_error {e : Error} : Established key uid (.error e) x := nofun

theorem At.established {r : Except Error Unit} (h : At key uid mc f x)
    (hf : f (mc.spec.type = Types.serverStateful) = some (some uid))
    (hf' : f (!(mc.spec.type = Types.serverStateful : Bool)) ≠ some (some uid)) :
    Established key uid r x := fun _ =>
  ⟨mc, h.snapshot, (h.workloads _).trans hf, fun hc => hf' ((h.workloads _).symm.trans hc)⟩

theorem Applied.eq {k : ObjectKey} {f' : Bool → Option (Option String)}
    {r : Except Error Unit} (h : Applied key uid k f f' r)
    (hk : ∀ b, workloadKey key b ≠ k) : f' = f :=
  funext fun b => (h.change b).resolve_right fun hb => hk b hb.1

theorem wp_failed {mc' : MinecraftServer} {reason : String} {e : Error}
    (hx : At key uid mc f x) :
    wp (snapshotApi key) (reconciling key uid) (mc'.fail lib reason e).run
      (Established key uid) x :=
  keptByMinor_at.serverFail (fun _ _ _ => .of_error) hx

/-- Applying an object that is no workload, as a step that may fail. -/
theorem wp_applyOther {g : Generated} {reason : String} {rest : Task Unit}
    (hlib : lib.Documented) (howner : mc.metadata.uid = uid)
    (hg : ∀ b, workloadKey key b ≠ g.key) (hx : At key uid mc f x)
    (h : ∀ y, At key uid mc f y →
      wp (snapshotApi key) (reconciling key uid) rest.run (Established key uid) y) :
    wp (snapshotApi key) (reconciling key uid)
      (orFail (apply lib mc.metadata g) (mc.fail lib reason) rest).run
      (Established key uid) x := by
  refine wp_orFail (wp_mono (wp_apply hlib howner hx) ?_)
  rintro r y ⟨f', hy, happlied⟩
  rw [happlied.eq hg] at hy
  cases r with
  | ok _ => exact h y hy
  | error e => exact wp_failed hy

theorem wp_reconcileWorkload {stateful : Bool} (hlib : lib.Documented)
    (howner : mc.metadata.uid = uid) (hkey : mc.metadata.key = key) (hx : At key uid mc f x) :
    wp (snapshotApi key) (reconciling key uid) (mc.reconcileWorkload lib stateful).run
      (fun r y => ∃ f', At key uid mc f' y ∧ (r = .ok () → f' stateful = some (some uid))) x := by
  subst hkey
  unfold MinecraftServer.reconcileWorkload
  cases stateful with
  | false =>
    refine wp_mono (wp_apply hlib howner hx) ?_
    rintro r y ⟨f', hy, happlied⟩
    exact ⟨f', hy, fun hr => happlied.ok hr false rfl⟩
  | true =>
    simp only [Bool.not_true, Bool.false_eq_true, if_false, Async.run_bind, Task.run_ofExcept,
      Prog.pure_bind]
    cases hsts : minecraftStatefulSet lib mc with
    | error e => exact wp_at_pure hx fun y hy => ⟨f, hy, nofun⟩
    | ok sts =>
      have hk : sts.key = workloadKey mc.metadata.key true := key_of_minecraftStatefulSet hsts
      refine wp_mono (wp_apply hlib howner hx) ?_
      rintro r y ⟨f', hy, happlied⟩
      exact ⟨f', hy, fun hr => happlied.ok hr true hk.symm⟩

theorem wp_reconcile (hlib : lib.Documented) (howner : mc.metadata.uid = uid)
    (hkey : mc.metadata.key = key) (hdeleting : mc.metadata.deleting = false)
    (hx : At key uid mc f x) :
    wp (snapshotApi key) (reconciling key uid) (mc.reconcile lib).run
      (Established key uid) x := by
  unfold MinecraftServer.reconcile
  rw [hdeleting]
  simp only [Bool.false_eq_true, if_false]
  split_ifs
  · exact wp_failed hx
  · exact wp_failed hx
  · refine wp_applyOther hlib howner (fun b h => ?_) hx fun x hx => ?_
    · cases b <;> cases congrArg ObjectKey.kind h
    refine wp_applyOther hlib howner (fun b h => ?_) hx fun x hx => ?_
    · cases b <;> cases congrArg ObjectKey.kind h
    refine wp_orFail (wp_mono (wp_reconcileWorkload hlib howner hkey hx) ?_)
    rintro r y ⟨f', hy, hf'⟩
    cases r with
    | error e => exact wp_failed hy
    | ok u =>
      have hprune : mc.pruneOppositeWorkload (mc.spec.type = Types.serverStateful) =
          pruneObject mc.metadata
            (workloadKey key !(mc.spec.type = Types.serverStateful : Bool)) := by
        subst hkey
        unfold MinecraftServer.pruneOppositeWorkload workloadKey workloadKind
        by_cases hs : mc.spec.type = Types.serverStateful <;> simp [hs, ObjectMeta.key]
      rw [hprune]
      refine wp_orFail (wp_mono (wp_pruneWorkload howner (hf' rfl) hy) ?_)
      rintro r z ⟨f'', hz, hf''⟩
      cases r with
      | error e => exact wp_failed hz
      | ok u =>
        refine wp_async_bind (wp_mono (keptByMinor_at.serverUpdateStatus hz) ?_)
        rintro r w ⟨⟨⟨mc', r'⟩, rfl⟩, hw⟩
        cases r' with
        | error e => exact wp_failed hw
        | ok u => exact wp_at_pure hw fun v hv => hv.established (hf'' rfl).1 (hf'' rfl).2

theorem wp_reconcileMinecraftServer (hlib : lib.Documented) (hx : x.1.Served key uid) :
    wp (snapshotApi key) (reconciling key uid) (reconcileMinecraftServer lib key).run
      (Established key uid) x := by
  simp only [reconcileMinecraftServer, Async.run_bind, Async.run_attempt, await, Async.await,
    ExceptT.run_mk, Prog.lift_bind, Prog.call_bind, Prog.pure_bind]
  refine wp_call (fun y => y.1.Served key uid) hx (fun _ _ h hr => hr.1.served h)
    fun y r z hy hH => ?_
  obtain ⟨hstep, hz⟩ := flakyStep_of_snapshotApi hH
  refine ⟨guar_of_objects_eq (served_of_flakyStep hstep) (hstep.objects rfl), ?_⟩
  obtain ⟨mc, hmc, hkey, howner, hdeleting⟩ := hy
  obtain ⟨hfound, hmissing⟩ := hstep.getServer hmc
  cases r with
  | error e =>
    -- the resource is there, so it is not said to be missing
    simp only [Task.run_ofExcept, ignoreNotFound, hmissing e rfl]
    exact fun _ _ => .of_error
  | ok mc' =>
    obtain rfl := hfound mc' rfl
    refine wp_reconcile (f := fun b => z.1.controllerOf (workloadKey key b)) hlib howner hkey
      hdeleting ⟨served_of_flakyStep hstep ⟨mc', hmc, hkey, howner, hdeleting⟩, ?_, fun _ => rfl⟩
    rw [hz]
    simp [snapshotLog]

/-! ## All runs -/

/-- Edits, with the snapshot of the run left alone. -/
def editing (key : NamespacedName) (uid : String) :
    Cluster × Option MinecraftServer → Cluster × Option MinecraftServer → Prop :=
  fun x y => Edited key uid x.1 y.1 ∧ y.2 = x.2

/-- The controller of a server at work: runs of `Reconcile` that may stop anywhere, and
edits at any time. -/
abbrev ServerSteps (lib : Library) (key : NamespacedName) (uid : String) :=
  WorkerSteps (snapshotApi key) (editing key uid) (editing key uid)
    (reconcileMinecraftServer lib key).run

theorem serverSpec (hlib : lib.Documented) :
    WorkerSpec (snapshotApi key) (editing key uid) (editing key uid)
      (reconcileMinecraftServer lib key).run (reconciling key uid) (Established key uid)
      (fun x => x.1.Served key uid) where
  env _ _ _ h := h
  rely _ _ hs h := h.1.served hs
  guar _ _ _ hs h := h.1 hs
  idle _ _ hs h := h.1.served hs
  wp _ hs := wp_reconcileMinecraftServer hlib hs

/-- In every run of the controller, with its requests failing anywhere and the resource
edited at any time: a `Reconcile` that returns no error has left the workload of the type
it read and none of the other; a server that has a workload keeps having one; and no call
takes away an object that the server does not control. -/
theorem workload_exclusive {s : Cluster} {log : Option MinecraftServer}
    {x : Option (Prog Call (Settled Error Answer) (Except Error Unit)) ×
      (Cluster × Option MinecraftServer)}
    (hlib : lib.Documented) (hs : s.Served key uid)
    (run : ServerSteps lib key uid (none, (s, log)) x) :
    (x.1 = some (.pure (.ok ())) → ∃ mc, x.2.2 = some mc ∧
      x.2.1.Exclusive key uid (mc.spec.type = Types.serverStateful)) ∧
    (∀ y, ServerSteps lib key uid x y → x.2.1.HasWorkload key uid →
      y.2.1.HasWorkload key uid) ∧
    ∀ c k r y, x.1 = some (.call c k) → snapshotApi key c x.2 r y → ∀ l,
      x.2.1.controllerOf l ≠ none → ¬x.2.1.Controls uid l → y.1.controllerOf l ≠ none := by
  have good := WorkerSteps.good (serverSpec hlib) run (.idle hs)
  obtain ⟨q, x⟩ := x
  refine ⟨?_, fun y hxy hw => ?_, ?_⟩
  · rintro rfl
    exact good.result rfl
  · refine WorkerSteps.keeps (J := fun x => x.1.HasWorkload key uid) (serverSpec hlib) ?_ ?_ ?_
      hxy good hw
    · exact fun _ _ _ ⟨b, hb⟩ h => ⟨b, (h.1.workloads b).trans hb⟩
    · exact fun _ _ _ _ hw h => h.2.1 hw
    · exact fun _ _ _ ⟨b, hb⟩ h => ⟨b, (h.1.workloads b).trans hb⟩
  · rintro c k r y rfl hH
    exact (good.call (serverSpec hlib) hH).1.2.2

def survival : MinecraftServer where
  metadata := {
    name := "smp", ns := "minikura", uid := "uid-smp", generation := 1, deleting := false
    labels := [] }
  spec := { type := "STATEFUL", listenPort := 25565 }

/-- The server before its first `Reconcile`. -/
def fresh : Cluster :=
  { Cluster.empty with servers := AList.singleton survival.metadata.key survival }

def firstReconcile : Prog Call (Settled Error Answer) (Except Error Unit) ×
    (Cluster × Option MinecraftServer) :=
  (reconcileMinecraftServer plainLibrary survival.metadata.key).run.runTurns
    (answers (snapshotLog survival.metadata.key)) (List.replicate 10 .go) (fresh, none)

theorem workload_exclusive_firstReconcile : ∃ mc, firstReconcile.2.2 = some mc ∧
    firstReconcile.2.1.Exclusive survival.metadata.key "uid-smp"
      (mc.spec.type = Types.serverStateful) := by
  have run : ServerSteps plainLibrary survival.metadata.key "uid-smp" (none, (fresh, none))
      (some (.pure (.ok ())), firstReconcile.2) :=
    .head .start (WorkerSteps.of_steps (steps_result (flakyApi_of_answers _) (by decide +kernel)))
  exact (workload_exclusive plainLibrary_documented ⟨survival, by decide, rfl, rfl, rfl⟩ run).1 rfl

end Minikura.Operator
