import Minikura.Backend.Requests
import Minikura.Backend.SyncAll
import Minikura.Concurrency.Observation

/-!
# Stale deletions and concurrent creates

`syncAll` takes its snapshot of the rows long before it deletes what the snapshot
does not account for. A record of the snapshot and of the names about to be deleted
is kept beside the state, to say at which moments a create must not fall between.

## Main definitions

* `Watch`, `watch` — what `syncAll` expects and what it is about to delete.
* `InTime` — the condition on the listing and on the inserts.
-/

namespace Minikura.Backend
open Concurrency OperatorResourceSync

/-- A create request, with the API key generated for it. -/
inductive CreateRequest where
  | server (input : CreateServerInput) (token : String)
  | proxy (input : CreateReverseProxyInput) (token : String)

def CreateRequest.run (o : OperatorResourceSync) : CreateRequest →
    Prog Call (Settled Error Answer) Unit
  | .server input token => (o.createServer input token).run.bind fun _ => .pure ()
  | .proxy input token => (o.createReverseProxy input token).run.bind fun _ => .pure ()

/-- One `syncAll` run and create requests, interleaved in every way. -/
def syncAmidCreates (o : OperatorResourceSync) (requests : List CreateRequest) :
    Prog Call (Settled Error Answer) (Except Error (List Error) × List Unit) :=
  o.syncAll.run.par (Prog.allSettled (requests.map (·.run o)))

/-- A run has come to the point of asking for a deletion. -/
def AsksToDelete {σ α : Type} (H : Handler Call (Settled Error Answer) σ)
    (p : Prog Call (Settled Error Answer) α) (x : σ) (key : Key) (y : σ) : Prop :=
  ∃ k, Steps H Quiet (p, x) (.call (.delete key) k, y)

/-- The names a synchronization expects, and the resources it found stale and has
not asked to be deleted yet. -/
structure Watch where
  expected : Kind → List String
  doomed : List Key

def Watch.start : Watch := ⟨fun _ => [], []⟩

def Watch.expect (w : Watch) (kind : Kind) (names : List String) : Watch :=
  { w with expected := Function.update w.expected kind names }

@[simp] theorem Watch.expected_expect (w : Watch) (kind : Kind) (names : List String) :
    (w.expect kind names).expected kind = names := Function.update_self ..

theorem Watch.expected_expect_ne (w : Watch) {kind k : Kind} (names : List String)
    (h : k ≠ kind) : (w.expect kind names).expected k = w.expected k :=
  Function.update_of_ne h ..

def watch : (c : Call) → State → Settled Error Answer c → Watch → Watch
  | .findServers, _, .ok rows, w => w.expect .minecraftservers (rows.map (·.id))
  | .findProxies, _, .ok rows, w => w.expect .reverseproxyservers (rows.map (·.id))
  | .list kind, _, .ok names, w =>
    let stale := names.filter fun name => !(w.expected kind).contains name
    { w with doomed := w.doomed ++ stale.map (Key.mk kind) }
  | .delete key, _, _, w => { w with doomed := w.doomed.erase key }
  | _, _, _, w => w

/-- The API server and the database, which may lose any request or answer. -/
abbrev lossyApi : Handler Call (Settled Error Answer) State := api.lossy

/-- Creates fall at harmless moments: what a listing finds of the rows in the
database is in the snapshot, and no row is inserted while its name is doomed. -/
def InTime : (c : Call) → State × Watch → Settled Error Answer c → State × Watch → Prop
  | .list kind, (s, w), .ok names, _ =>
    ∀ name ∈ names, name ∈ s.db.names kind → name ∈ w.expected kind
  | .createServer row, (_, w), _, (s', _) =>
    row.id ∈ s'.db.names .minecraftservers → ⟨.minecraftservers, row.id⟩ ∉ w.doomed
  | .createProxy row, (_, w), _, (s', _) =>
    row.id ∈ s'.db.names .reverseproxyservers → ⟨.reverseproxyservers, row.id⟩ ∉ w.doomed
  | _, _, _, _ => True

/-- The runs that meet the condition at every step. -/
abbrev timely : Handler Call (Settled Error Answer) (State × Watch) :=
  (lossyApi.observe watch).restrict InTime

/-! ## Doomed resources have no row -/

/-- No row is in the database for a resource about to be deleted. -/
def DoomedAbsent (x : State × Watch) : Prop :=
  ∀ key ∈ x.2.doomed, key.name ∉ x.1.db.names key.kind

theorem names_setServer (db : Database) (row : Server) (kind : Kind) :
    (db.setServer row).names kind = db.names kind := by
  cases kind with
  | minecraftservers =>
    simp only [Database.names, Database.setServer, List.map_map]
    refine List.map_congr_left fun s _ => ?_
    by_cases hs : s.id = row.id <;> simp [hs]
  | _ => rfl

theorem names_editServer (s : State) (id : String) (f : Server → Server) (kind : Kind) :
    (s.editServer id f).db.names kind = s.db.names kind := by
  unfold State.editServer
  split
  · rfl
  · exact names_setServer _ _ _

theorem names_updateServer (s : State) (id : String) (f : Server → Server) (kind : Kind) :
    (s.updateServer id f).2.db.names kind = s.db.names kind := by
  unfold State.updateServer
  split
  · rfl
  · split_ifs
    · exact names_setServer _ _ _
    · rfl

theorem db_request (s : State) (r : Except Refusal Cluster) : (s.request r).2.db = s.db := by
  cases r <;> rfl

/-- The names in the database change by an insert, and by nothing else. -/
theorem names_handle (c : Call) (s : State) (kind : Kind) :
    (handle c s).2.db.names kind = s.db.names kind ∨
      (∃ row, c = .createServer row ∧ kind = .minecraftservers ∧
        (handle c s).2.db.names kind = s.db.names kind ++ [row.id]) ∨
      ∃ row, c = .createProxy row ∧ kind = .reverseproxyservers ∧
        (handle c s).2.db.names kind = s.db.names kind ++ [row.id] := by
  cases c with
  | createServer row =>
    simp only [handle]
    split_ifs
    · cases kind with
      | minecraftservers =>
        exact .inr (.inl ⟨row, rfl, rfl, by simp [Database.names, Database.insertServer]⟩)
      | _ => exact .inl rfl
    · exact .inl rfl
    · exact .inl rfl
  | createProxy row =>
    simp only [handle]
    split_ifs
    · cases kind with
      | reverseproxyservers =>
        exact .inr (.inr ⟨row, rfl, rfl, by simp [Database.names, Database.insertProxy]⟩)
      | _ => exact .inl rfl
    · exact .inl rfl
    · exact .inl rfl
  | updateServer => exact .inl (names_updateServer _ _ _ _)
  | createEnvVariables => exact .inl (names_updateServer _ _ _ _)
  | upsertEnvVariable => exact .inl (names_updateServer _ _ _ _)
  | deleteEnvVariables => exact .inl (names_editServer _ _ _ _)
  | deleteEnvVariable => exact .inl (names_editServer _ _ _ _)
  | replace key version body =>
    refine .inl ?_
    simp only [handle]
    split_ifs
    · rfl
    · rw [db_request]
  | create => exact .inl (congrArg (Database.names · kind) (db_request _ _))
  | delete => exact .inl (congrArg (Database.names · kind) (db_request _ _))
  | read key =>
    refine .inl ?_
    simp only [handle]
    cases s.cluster.lookup key <;> rfl
  | _ => exact .inl rfl

/-- The call asks for the object to be put under the key. -/
def Call.Writes (key : Key) (body : Resource) : Call → Prop
  | .replace k _ b | .create k _ b => key = k ∧ body = b
  | _ => False

theorem cluster_request (s : State) (r : Except Refusal Cluster) :
    (s.request r).2.cluster = s.cluster ∨ r = .ok (s.request r).2.cluster := by
  cases r with
  | ok c => exact .inr rfl
  | error e => exact .inl rfl

theorem cluster_updateServer (s : State) (id : String) (f : Server → Server) :
    (s.updateServer id f).2.cluster = s.cluster := by
  unfold State.updateServer
  split
  · rfl
  · split_ifs <;> rfl

theorem cluster_editServer (s : State) (id : String) (f : Server → Server) :
    (s.editServer id f).cluster = s.cluster := by
  unfold State.editServer
  split <;> rfl

/-- The cluster changes by a put, by a removal, or not at all. -/
theorem cluster_handle (c : Call) (s : State) :
    (handle c s).2.cluster = s.cluster ∨
      (∃ key body, c.Writes key body ∧ (handle c s).2.cluster = s.cluster.put key body) ∨
      ∃ key, c = .delete key ∧ (handle c s).2.cluster = s.cluster.remove key := by
  cases c with
  | replace key version body =>
    simp only [handle]
    split_ifs
    · exact .inl rfl
    · refine (cluster_request s _).imp_right fun h => .inl ⟨key, body, ⟨rfl, rfl⟩, ?_⟩
      exact (VersionedStore.replace_ok h).1
  | create key version body =>
    refine (cluster_request s _).imp_right fun h => .inl ⟨key, body, ⟨rfl, rfl⟩, ?_⟩
    exact (VersionedStore.create_ok h).1
  | delete key =>
    exact (cluster_request s _).imp_right fun h => .inr ⟨key, rfl, VersionedStore.delete_ok h⟩
  | read key =>
    refine .inl ?_
    simp only [handle]
    cases s.cluster.lookup key <;> rfl
  | createServer => exact .inl (by simp only [handle]; split_ifs <;> rfl)
  | createProxy => exact .inl (by simp only [handle]; split_ifs <;> rfl)
  | updateServer => exact .inl (cluster_updateServer _ _ _)
  | createEnvVariables => exact .inl (cluster_updateServer _ _ _)
  | upsertEnvVariable => exact .inl (cluster_updateServer _ _ _)
  | deleteEnvVariables => exact .inl (cluster_editServer _ _ _)
  | deleteEnvVariable => exact .inl (cluster_editServer _ _ _)
  | _ => exact .inl rfl

theorem timely_cases {c : Call} {x y : State × Watch} {r : Settled Error Answer c}
    (h : timely c x r y) : (y.1 = x.1 ∨ y.1 = (handle c x.1).2) ∧
      y.2 = watch c x.1 r x.2 ∧ InTime c x r y ∧ ∀ a, r = .ok a → (handle c x.1).1 = .ok a := by
  obtain ⟨⟨hH, hw⟩, ht⟩ := h
  rcases hH with hc | ⟨e, rfl, hs | ⟨r', hc⟩⟩
  · exact ⟨.inr (Prod.mk.inj hc).2.symm, hw, ht, fun a ha => (Prod.mk.inj hc).1.trans ha⟩
  · exact ⟨.inl hs, hw, ht, nofun⟩
  · exact ⟨.inr (Prod.mk.inj hc).2.symm, hw, ht, nofun⟩

/-- A call that meets the condition leaves no doomed resource with a row. -/
theorem doomedAbsent_step {c : Call} {x y : State × Watch} {r : Settled Error Answer c}
    (hI : DoomedAbsent x) (h : timely c x r y) : DoomedAbsent y := by
  obtain ⟨s, w⟩ := x
  obtain ⟨s', w'⟩ := y
  obtain ⟨hs, hw, ht, -⟩ := timely_cases h
  dsimp only at hs hw
  -- what is doomed afterwards was doomed before, or has just been listed
  have hdoomed : ∀ key ∈ w'.doomed, key ∈ w.doomed ∨ key.name ∉ s'.db.names key.kind := by
    intro key hk
    subst hw
    cases c with
    | list kind =>
      cases r with
      | error e => exact .inl hk
      | ok names =>
        refine (List.mem_append.mp hk).imp_right fun hm => ?_
        obtain ⟨name, hn, rfl⟩ := List.mem_map.mp hm
        obtain ⟨hn, he⟩ := List.mem_filter.mp hn
        have hs' : s' = s := hs.elim id id
        rw [hs']
        exact fun hdb => by simp [ht name hn hdb] at he
    | delete => exact .inl (List.mem_of_mem_erase hk)
    | findServers => cases r <;> exact .inl hk
    | findProxies => cases r <;> exact .inl hk
    | _ => exact .inl hk
  intro key hk
  refine (hdoomed key hk).elim (fun hmem hn => ?_) id
  have hold := hI key hmem
  rcases hs with rfl | rfl
  · exact hold hn
  · rcases names_handle c s key.kind with h | ⟨row, rfl, hkind, h⟩ | ⟨row, rfl, hkind, h⟩
    · exact hold (h ▸ hn)
    all_goals
      rw [h, List.mem_append, List.mem_singleton] at hn
      have hkey : key.name ≠ row.id := by
        intro e
        have := ht (by rw [← hkind, h]; simp)
        rw [← hkind, ← e] at this
        exact this hmem
      exact hn.elim hold hkey

/-! ## The calls of each program -/

/-- The calls of everything but the stale pass and the snapshot. -/
def Harmless : Call → Prop
  | .findServers | .findProxies | .list _ => False
  | .delete key => key.kind = .secret
  | _ => True

/-- Nothing else about the record changes but that Secrets may be struck off it. -/
structure Watch.Keeps (w w' : Watch) : Prop where
  expected : w'.expected = w.expected
  doomed : ∀ key, key.kind ≠ .secret → key ∈ w.doomed → key ∈ w'.doomed

theorem keeps_of_harmless {c : Call} (hc : Harmless c) (s : State)
    (r : Settled Error Answer c) (w : Watch) : w.Keeps (watch c s r w) := by
  cases c with
  | findServers => exact hc.elim
  | findProxies => exact hc.elim
  | list => exact hc.elim
  | delete key =>
    refine ⟨rfl, fun k hk hmem => (List.mem_erase_of_ne ?_).mpr hmem⟩
    rintro rfl
    exact hk hc
  | _ => exact ⟨rfl, fun _ _ => id⟩

variable {o : OperatorResourceSync}

theorem only_upsert {P : Call → Prop} {key : Key} {body : Resource} (hread : P (.read key))
    (hreplace : ∀ v, P (.replace key v body)) (hcreate : ∀ v, P (.create key v body)) :
    (upsert key body).run.Only P := by
  refine Async.only_bind (Async.only_attempt (Async.only_await hread)) fun r => ?_
  cases r with
  | error e =>
    dsimp only
    split_ifs
    · exact Async.only_await (hcreate _)
    · trivial
  | ok existing =>
    refine Async.only_bind (Async.only_attempt (Async.only_await (hreplace _))) fun r => ?_
    cases r with
    | ok _ => trivial
    | error e =>
      dsimp only
      split_ifs
      · exact Async.only_await (hcreate _)
      · trivial

theorem only_deleteObject {P : Call → Prop} {key : Key} (h : P (.delete key)) :
    (deleteObject key).run.Only P := by
  refine Async.only_bind (Async.only_attempt (Async.only_await h)) fun r => ?_
  cases r with
  | ok _ => trivial
  | error e =>
    dsimp only
    split_ifs <;> trivial

theorem only_deleteSecret (name : String) : (o.deleteSecret name).run.Only Harmless := by
  unfold deleteSecret
  split_ifs
  · exact only_deleteObject rfl
  · trivial

theorem only_syncRow (r : Row) : (o.syncRow r).run.Only Harmless := by
  refine Async.only_bind trivial fun name => Async.only_bind trivial fun labels => ?_
  refine Async.only_bind ?_ fun _ => Async.only_bind ?_ fun _ => only_deleteSecret _
  · unfold upsertSecret
    split_ifs
    · exact only_upsert trivial (fun _ => trivial) fun _ => trivial
    · trivial
  · unfold upsertResource
    split_ifs
    · exact only_upsert trivial (fun _ => trivial) fun _ => trivial
    · trivial

theorem only_syncServerById (id : String) : (o.syncServerById id).run.Only Harmless := by
  unfold syncServerById
  split_ifs
  · refine Async.only_bind (Async.only_await trivial) fun r => ?_
    cases r with
    | some server => exact only_syncRow _
    | none => trivial
  · trivial

theorem only_syncReverseProxyById (id : String) :
    (o.syncReverseProxyById id).run.Only Harmless := by
  refine Async.only_bind ?_ fun _ => Async.only_bind (Async.only_await trivial) fun r => ?_
  · unfold requireClients
    split_ifs <;> trivial
  · cases r with
    | some proxy => exact only_syncRow _
    | none => trivial

theorem only_publish {handler : Task Unit} (h : handler.run.Only Harmless) :
    (publish handler).run.Only Harmless :=
  Async.only_bind (Async.only_attempt h) fun _ => trivial

theorem only_createRequest (request : CreateRequest) : (request.run o).Only Harmless := by
  have guarded : ∀ {α : Type} {b : Bool} {e : Error} {p : Task α}, p.run.Only Harmless →
      (if b then throw e else p : Task α).run.Only Harmless := by
    intro α b e p hp
    cases b
    · exact hp
    · trivial
  have query : ∀ {α : Type} {p : Task α} {f : α → Bool}, p.run.Only Harmless →
      (do return f (← p) : Task Bool).run.Only Harmless :=
    fun hp => Async.only_bind hp fun _ => trivial
  cases request with
  | server input token =>
    refine Prog.Only.bind (Async.only_bind (query (Async.only_await trivial)) fun b =>
      guarded (Async.only_bind (Async.only_bind (query (Async.only_await trivial)) fun b =>
        guarded (Async.only_await trivial)) fun entity => ?_)) fun _ => trivial
    exact Async.only_bind (only_publish (only_syncServerById _)) fun _ => trivial
  | proxy input token =>
    refine Prog.Only.bind (Async.only_bind (query (Async.only_await trivial)) fun b =>
      guarded (Async.only_bind (Async.only_bind (query (Async.only_await trivial)) fun b =>
        guarded (Async.only_await trivial)) fun entity => ?_)) fun _ => trivial
    exact Async.only_bind (only_publish (only_syncReverseProxyById _)) fun _ => trivial

/-! ## Deletes are of doomed resources -/

/-- A custom resource is deleted only if it is doomed. -/
def DeletesDoomed (c : Call) (w : Watch) : Prop :=
  ∀ key, c = .delete key → key.kind ≠ .secret → key ∈ w.doomed

/-- `own` stays doomed while the others run, and all but `touch` while the program does. -/
def sweeping (own touch : Key → Prop) : Contract Call (State × Watch) where
  rely x y := y.2.expected = x.2.expected ∧ ∀ k, own k → k ∈ x.2.doomed → k ∈ y.2.doomed
  guar c x y := y.2.expected = x.2.expected ∧
    (∀ k, k.kind ≠ .secret → ¬touch k → k ∈ x.2.doomed → k ∈ y.2.doomed) ∧
    DeletesDoomed c x.2
  refl _ := ⟨rfl, fun _ _ => id⟩
  trans _ _ _ h h' := ⟨h'.1.trans h.1, fun k hk hm => h'.2 k hk (h.2 k hk hm)⟩

/-- The contract of `syncAll` beside programs that never list or sweep. -/
def sweeper : Contract Call (State × Watch) where
  rely x y := x.2.Keeps y.2
  guar c x _ := DeletesDoomed c x.2
  refl _ := ⟨rfl, fun _ _ => id⟩
  trans _ _ _ h h' := ⟨h'.expected.trans h.expected,
    fun k hk hm => h'.doomed k hk (h.doomed k hk hm)⟩

/-- The contract of those programs. -/
def bystander : Contract Call (State × Watch) where
  rely _ _ := True
  guar c x y := x.2.Keeps y.2 ∧ ∀ key, c = .delete key → key.kind = .secret
  refl _ := trivial
  trans _ _ _ _ _ := trivial

theorem sweeping_compatible {own touch own' touch' : Key → Prop}
    (h : ∀ k, own k → k.kind ≠ .secret ∧ ¬touch' k)
    (h' : ∀ k, own' k → k.kind ≠ .secret ∧ ¬touch k) :
    (sweeping own touch).Compatible (sweeping own' touch') :=
  ⟨fun _ _ _ g => ⟨g.1, fun k hk => g.2.1 k (h' k hk).1 (h' k hk).2⟩,
    fun _ _ _ g => ⟨g.1, fun k hk => g.2.1 k (h k hk).1 (h k hk).2⟩⟩

theorem harmless_step {c : Call} {x y : State × Watch} {r : Settled Error Answer c}
    (hc : Harmless c) (h : timely c x r y) :
    x.2.Keeps y.2 ∧ ∀ key, c = .delete key → key.kind = .secret := by
  refine ⟨(timely_cases h).2.1 ▸ keeps_of_harmless hc _ _ _, ?_⟩
  rintro key rfl
  exact hc

theorem wp_bystander {α : Type} {p : Prog Call (Settled Error Answer) α} {x : State × Watch}
    (h : p.Only Harmless) : wp timely bystander p (fun _ _ => True) x :=
  wp_of_only h trivial (fun _ _ _ _ => trivial) fun _ _ _ _ hc _ hH =>
    ⟨harmless_step hc hH, trivial⟩

/-- Harmless programs under the contract of the sweep keep the snapshot. -/
theorem wp_harmless_sweeper {α : Type} {p : Prog Call (Settled Error Answer) α}
    {x : State × Watch} (h : p.Only Harmless) :
    wp timely sweeper p (fun _ y => y.2.expected = x.2.expected) x := by
  refine wp_of_only h rfl (fun _ _ hI hr => hr.expected.trans hI) fun c y r z hc hI hH => ?_
  have hstep := harmless_step hc hH
  exact ⟨fun key hk hs => absurd (hstep.2 key hk) hs, hstep.1.expected.trans hI⟩

theorem wp_harmless_sweeping {α : Type} {p : Prog Call (Settled Error Answer) α}
    {own touch : Key → Prop} {x : State × Watch} (h : p.Only Harmless) :
    wp timely (sweeping own touch) p (fun _ _ => True) x := by
  refine wp_of_only h trivial (fun _ _ _ _ => trivial) fun c y r z hc _ hH => ?_
  have hstep := harmless_step hc hH
  exact ⟨⟨hstep.1.expected, fun k hk _ => hstep.1.doomed k hk,
    fun key hk hs => absurd (hstep.2 key hk) hs⟩, trivial⟩

/-! ## The stale pass -/

theorem wp_deleteResource_doomed {kind : Kind} {name : String} {x : State × Watch}
    (hx : ⟨kind, name⟩ ∈ x.2.doomed) :
    wp timely (sweeping (· = ⟨kind, name⟩) (· = ⟨kind, name⟩))
      (o.deleteResource kind name).run (fun _ _ => True) x := by
  unfold deleteResource
  split_ifs
  · simp only [deleteObject, Async.run_bind, Async.run_attempt, await, Async.await,
      ExceptT.run_mk, Prog.lift_bind, Prog.call_bind]
    refine wp_call (fun y => ⟨kind, name⟩ ∈ y.2.doomed) hx
      (fun y z hy hz => hz.2 _ rfl hy) fun y r z hy hH => ?_
    have hw := (timely_cases hH).2.1
    refine ⟨⟨by rw [hw]; rfl, fun k _ hk hm => ?_, ?_⟩, wp_harmless_sweeping ?_⟩
    · rw [hw]
      exact (List.mem_erase_of_ne hk).mpr hm
    · rintro _ ⟨⟩ -
      exact hy
    · refine Prog.Only.bind ?_ fun r => ?_
      · cases r with
        | ok _ => trivial
        | error e =>
          change (if e.isNotFound then pure () else throw e : Task Unit).run.Only Harmless
          split_ifs <;> trivial
      · cases r with
        | ok _ => exact only_deleteSecret _
        | error e => trivial
  · exact fun _ _ => trivial

theorem all_sweeping_refines {ι : Type} (own touch : ι → Key → Prop) (l : List ι)
    {own' touch' : Key → Prop} (hown : ∀ i ∈ l, ∀ k, own i k → own' k)
    (htouch : ∀ i ∈ l, ∀ k, touch i k → touch' k) :
    (Contract.all (fun i => sweeping (own i) (touch i)) l).Refines (sweeping own' touch') := by
  refine ⟨fun x y h i hi => ⟨h.1, fun k hk => h.2 k (hown i hi k hk)⟩, ?_⟩
  rintro c x y ⟨i, hi, h⟩
  exact ⟨h.1, fun k hs hk => h.2.1 k hs fun ht => hk (htouch i hi k ht), h.2.2⟩

/-- The computation keeps its contract, whether it succeeds or fails and goes on. -/
abbrev Abides {α : Type} (K : Contract Call (State × Watch)) (p : LooseTask α)
    (Q : α → State × Watch → Prop) (x : State × Watch) : Prop :=
  Loose.Settles timely K p Q (fun _ => True) x

theorem abides_ofAsync {α : Type} {K : Contract Call (State × Watch)} {p : Task α}
    {Q : α → State × Watch → Prop} {x : State × Watch}
    (h : wp timely K p.run (fun r y => ∀ a, r = .ok a → Q a y) x) : Abides K (.ofAsync p) Q x := by
  refine Loose.settles_ofAsync (wp_mono h fun r y hr => ?_)
  cases r with
  | ok a => exact hr a rfl
  | error e => trivial

theorem wp_deleteStaleResources_doomed {kind : Kind} {x : State × Watch}
    {expected : List String} (hkind : kind ≠ .secret) (hx : x.2.expected kind = expected) :
    Abides (sweeping (·.kind = kind) (·.kind = kind)) (o.deleteStaleResources kind expected)
      (fun _ _ => True) x := by
  unfold deleteStaleResources
  split_ifs
  · refine Loose.settles_bind (abides_ofAsync ?_)
    refine wp_call (fun y => y.2.expected kind = expected) hx
      (fun y z hy hz => hz.1 ▸ hy) fun y r z hy hH => ?_
    obtain ⟨-, hw, -, hlist⟩ := timely_cases hH
    have hguar : (sweeping (·.kind = kind) (·.kind = kind)).guar (.list kind) y z := by
      refine ⟨?_, fun k _ _ hm => ?_, fun _ h => by cases h⟩ <;> rw [hw] <;> cases r
      · rfl
      · rfl
      · exact hm
      · exact List.mem_append_left _ hm
    refine ⟨hguar, ?_⟩
    rintro v hv names rfl
    refine wp_rely ?_ hv
    have hnames : names.Nodup := by
      rw [← Except.ok.inj (hlist names rfl)]
      exact nodup_list _ _
    -- each of the names found stale is doomed when its deletion starts
    have hdoomed : ∀ n ∈ names.filter (fun n => n ≠ "" && !expected.contains n),
        ⟨kind, n⟩ ∈ z.2.doomed := by
      intro n hn
      rw [List.mem_filter, Bool.and_eq_true] at hn
      rw [hw]
      refine List.mem_append_right _ (List.mem_map.mpr ⟨n, List.mem_filter.mpr ⟨hn.1, ?_⟩, rfl⟩)
      rw [hy]
      exact hn.2.2
    have deletions : Abides (sweeping (·.kind = kind) (·.kind = kind))
        (Loose.all ((names.filter fun n => n ≠ "" && !expected.contains n).map fun name =>
          .ofAsync (o.deleteResource kind name))) (fun _ _ => True) z := by
      refine Loose.settles_mono (Loose.settles_refines (Loose.settles_all (Q := fun _ _ => True)
        (K := fun n => sweeping (· = ⟨kind, n⟩) (· = ⟨kind, n⟩)) ?_ fun n hn => ?_)
        (all_sweeping_refines _ _ _ ?_ ?_)) (fun _ _ _ => trivial) fun _ => id
      · refine (hnames.filter _).imp fun hne => sweeping_compatible ?_ ?_ <;> rintro _ rfl
        · exact ⟨hkind, fun e => hne (congrArg Key.name e)⟩
        · exact ⟨hkind, fun e => hne (congrArg Key.name e).symm⟩
      · exact abides_ofAsync (wp_mono (wp_deleteResource_doomed (hdoomed n hn))
          fun _ _ _ _ _ => trivial)
      · rintro n - _ rfl
        rfl
      · rintro n - _ rfl
        rfl
    exact Loose.settles_map deletions
  · exact fun _ _ => trivial

/-! ## The whole of `syncAll` -/

/-- The contract of one of the two snapshot queries. -/
def finding (kind : Kind) : Contract Call (State × Watch) where
  rely x y := y.2.expected kind = x.2.expected kind
  guar c x y := (∀ k, k ≠ kind → y.2.expected k = x.2.expected k) ∧ ∀ key, c ≠ .delete key
  refl _ := rfl
  trans _ _ _ h h' := h'.trans h

/-- A query that answers with the rows of a kind sets its snapshot. -/
theorem wp_find_expected {c : Call} {kind : Kind} {names : Answer c → List String}
    (hok : ∀ s rows w, watch c s (.ok rows) w = w.expect kind (names rows))
    (herror : ∀ s e w, watch c s (.error e) w = w) (hdelete : ∀ key, c ≠ .delete key)
    (x : State × Watch) :
    wp timely (finding kind) (await c).run
      (fun r y => ∀ rows, r = .ok rows → y.2.expected kind = names rows) x := by
  intro y _ r z hH
  have hw := (timely_cases hH).2.1
  cases r with
  | error e =>
    rw [herror] at hw
    exact ⟨⟨fun _ _ => by rw [hw], hdelete⟩, fun _ _ _ h => by cases h⟩
  | ok rows =>
    rw [hok] at hw
    have hself : z.2.expected kind = names rows := by
      rw [hw]
      exact y.2.expected_expect _ _
    have hother : ∀ k, k ≠ kind → z.2.expected k = y.2.expected k := by
      rw [hw]
      exact fun k => y.2.expected_expect_ne _
    refine ⟨⟨hother, hdelete⟩, fun u hu rows' hr => ?_⟩
    rw [hu, hself, Except.ok.inj hr]

theorem wp_findAll_expected (x : State × Watch) :
    Abides sweeper (.both (.ofAsync (await .findServers)) (.ofAsync (await .findProxies)))
      (fun rows y => y.2.expected .minecraftservers = rows.1.map (·.id) ∧
        y.2.expected .reverseproxyservers = rows.2.map (·.id)) x := by
  have servers := wp_find_expected (c := .findServers) (fun _ _ _ => rfl) (fun _ _ _ => rfl)
    (fun _ h => by cases h) x
  have proxies := wp_find_expected (c := .findProxies) (fun _ _ _ => rfl) (fun _ _ _ => rfl)
    (fun _ h => by cases h) x
  have compat : (finding .minecraftservers).Compatible (finding .reverseproxyservers) :=
    ⟨fun _ _ _ h => h.1 _ (by decide), fun _ _ _ h => h.1 _ (by decide)⟩
  have refines : ((finding .minecraftservers).par (finding .reverseproxyservers)).Refines
      sweeper :=
    ⟨fun _ _ h => ⟨congrFun h.expected _, congrFun h.expected _⟩,
      fun c _ _ h key hc => absurd hc (h.elim (fun h => h.2 key) fun h => h.2 key)⟩
  exact Loose.settles_refines (Loose.settles_both compat (abides_ofAsync servers)
    (abides_ofAsync proxies)) refines

theorem eq_map_of_mapM {ι : Type} {l : List ι} {f : ι → String} {names : List String}
    (h : l.mapM (fun i => operatorResourceName (f i)) = .ok names) : names = l.map f := by
  induction l generalizing names with
  | nil => exact (Except.ok.inj h).symm
  | cons i l ih =>
    rw [List.mapM_cons] at h
    cases hi : operatorResourceName (f i) with
    | error e =>
      rw [hi] at h
      cases h
    | ok name =>
      cases hl : l.mapM (fun i => operatorResourceName (f i)) with
      | error e =>
        rw [hi, hl] at h
        cases h
      | ok names' =>
        rw [hi, hl] at h
        rw [← Except.ok.inj h, ih hl, eq_of_operatorResourceName hi, List.map_cons]

theorem wp_syncPass_doomed (x : State × Watch) :
    Abides sweeper o.syncPass (fun _ _ => True) x := by
  refine Loose.settles_bind (Loose.settles_mono (wp_findAll_expected x) ?_ fun _ => id)
  rintro ⟨servers, proxies⟩ y ⟨hs, hp⟩
  refine Loose.settles_bind (abides_ofAsync (wp_mono (wp_harmless_sweeper
    (Async.only_allSettled fun task htask => ?_)) fun rs z hz failures _ => ?_))
  · simp only [List.mem_append, List.mem_map] at htask
    rcases htask with ⟨s, -, rfl⟩ | ⟨p, -, rfl⟩
    · exact only_syncRow _
    · exact only_syncRow _
  dsimp only
  split_ifs
  · exact fun _ _ => trivial
  have names : ∀ {ι : Type} (rows : List ι) (f : ι → String) (u : State × Watch),
      Abides sweeper (.ofAsync (Task.ofExcept (rows.mapM fun i => operatorResourceName (f i))))
        (fun names v => names = rows.map f ∧ v.2.expected = u.2.expected) u :=
    fun rows f u => abides_ofAsync fun v hv names hok => ⟨eq_map_of_mapM hok, hv.expected⟩
  refine Loose.settles_bind (Loose.settles_mono (names servers (·.id) z) ?_ fun _ => id)
  rintro _ u ⟨rfl, hu⟩
  refine Loose.settles_bind (Loose.settles_mono (names proxies (·.id) u) ?_ fun _ => id)
  rintro _ v ⟨rfl, hv⟩
  have compat : (sweeping (·.kind = .minecraftservers)
      (·.kind = .minecraftservers)).Compatible
      (sweeping (·.kind = .reverseproxyservers) (·.kind = .reverseproxyservers)) :=
    sweeping_compatible (fun k hk => ⟨by simp [hk], by simp [hk]⟩)
      fun k hk => ⟨by simp [hk], by simp [hk]⟩
  have refines : ((sweeping (·.kind = .minecraftservers)
      (·.kind = .minecraftservers)).par (sweeping (·.kind = .reverseproxyservers)
        (·.kind = .reverseproxyservers))).Refines sweeper :=
    ⟨fun _ _ h => ⟨⟨h.expected, fun k hk => h.doomed k (by simp [hk])⟩,
      ⟨h.expected, fun k hk => h.doomed k (by simp [hk])⟩⟩,
      fun _ _ _ h => h.elim (fun h => h.2.2) fun h => h.2.2⟩
  have hexpected : v.2.expected = y.2.expected := hv.trans (hu.trans hz)
  exact Loose.settles_map (Loose.settles_mono (Loose.settles_refines (Loose.settles_both compat
    (wp_deleteStaleResources_doomed (by decide) (hexpected ▸ hs))
    (wp_deleteStaleResources_doomed (by decide) (hexpected ▸ hp))) refines)
    (fun _ _ _ => trivial) fun _ => id)

theorem sweeper_compatible_bystander : sweeper.Compatible bystander :=
  ⟨fun _ _ _ _ => trivial, fun _ _ _ h => h.1⟩

theorem wp_syncAll_doomed (x : State × Watch) :
    wp timely sweeper o.syncAll.run (fun _ _ => True) x := by
  have harmless : ∀ {α : Type} {p : Prog Call (Settled Error Answer) α} {y : State × Watch},
      p.Only Harmless → wp timely sweeper p (fun _ _ => True) y := fun h =>
    wp_mono (wp_harmless_sweeper h) fun _ _ _ => trivial
  have refines : (sweeper.par bystander).Refines sweeper :=
    ⟨fun _ _ h => ⟨h, trivial⟩, fun _ _ _ h => h.elim id fun h key hc hs =>
      absurd (h.2 key hc) hs⟩
  have release : ∀ failures : List Error,
      (await .releaseSync >>= fun _ => pure failures).run.Only Harmless := fun _ =>
    Async.only_bind (Async.only_await trivial) fun _ => trivial
  unfold syncAll
  split_ifs
  · exact fun _ _ => trivial
  · refine wp_async_bind (wp_mono (harmless ⟨trivial, fun _ => trivial⟩) fun r y _ => ?_)
    cases r with
    | error e => exact fun _ _ => trivial
    | ok claimed =>
      dsimp only
      split_ifs
      · exact fun _ _ => trivial
      · refine wp_refines (Loose.wp_settle sweeper_compatible_bystander (Loose.settles_mono
          (wp_syncPass_doomed y) (fun a z _ => ?_) fun _ => id) fun e z => ?_) refines
        · exact wp_refines (harmless (release a)) Loose.par_left_refines
        · exact wp_mono (wp_bystander (release [e])) fun _ _ _ _ => trivial

theorem all_bystander_refines {ι : Type} (l : List ι) :
    (Contract.all (fun _ => bystander) l).Refines bystander :=
  ⟨fun _ _ _ _ _ => trivial, fun _ _ _ ⟨_, _, h⟩ => h⟩

theorem wp_syncAmidCreates (requests : List CreateRequest) (x : State × Watch) :
    wp timely (sweeper.par bystander) (syncAmidCreates o requests) (fun _ _ => True) x := by
  have creates := wp_refines (wp_allSettled_forall (P := fun _ => True) (Q := fun _ _ => True)
    (s := x) (l := requests) (K := fun _ => bystander)
    (List.Pairwise.imp (fun _ => ⟨fun _ _ _ _ => trivial, fun _ _ _ _ => trivial⟩)
      (List.pairwise_of_forall fun _ _ => trivial))
    fun request _ => wp_mono (wp_bystander (only_createRequest (o := o) request))
      fun _ _ _ => ⟨trivial, trivial⟩) (all_bystander_refines requests)
  exact wp_mono (wp_par sweeper_compatible_bystander (wp_syncAll_doomed x) creates)
    fun _ _ _ => trivial

/-- In every run whose listings and inserts are timely, `syncAll` asks to delete a
custom resource only while no row of its name is in the database. -/
theorem syncAll_spares_present_rows {requests : List CreateRequest} {s : State} {key : Key}
    {x : State × Watch} (hkey : key.kind ≠ .secret)
    (asks : AsksToDelete timely (syncAmidCreates o requests) (s, .start) key x) :
    key.name ∉ x.1.db.names key.kind := by
  obtain ⟨k, run⟩ := asks
  have hdelete : timely (.delete key) x (handle (.delete key) x.1).1
      ((handle (.delete key) x.1).2, watch (.delete key) x.1 (handle (.delete key) x.1).1 x.2) :=
    ⟨⟨.inl rfl, rfl⟩, trivial⟩
  have hguar := wp_guar (wp_syncAmidCreates requests (s, .start)) (fun _ _ h => h.elim) run
    hdelete
  have hdoomed : key ∈ x.2.doomed := by
    rcases hguar with h | h
    · exact h key rfl hkey
    · exact absurd (h.2 key rfl) hkey
  exact Steps.invariant (I := DoomedAbsent) (y := (Prog.call (Call.delete key) k, x))
    (fun _ _ _ _ => doomedAbsent_step) (fun _ _ _ h => h.elim) run
    (fun _ h => absurd h List.not_mem_nil) key hdoomed

/-! ## Runs -/

/-- The deletion a program is about to ask for. -/
def pendingDelete {α : Type} : Prog Call (Settled Error Answer) α → Option Key
  | .call (.delete key) _ => some key
  | _ => none

theorem exists_of_pendingDelete {α : Type} {p : Prog Call (Settled Error Answer) α} {key : Key}
    (h : pendingDelete p = some key) : ∃ k, p = .call (.delete key) k := by
  unfold pendingDelete at h
  split at h
  · cases h
    exact ⟨_, rfl⟩
  · cases h

theorem asksToDelete_runTurns {σ α : Type} {H : Handler Call (Settled Error Answer) σ}
    {h : (c : Call) → σ → Option (Settled Error Answer c × σ)}
    (hH : ∀ c s r s', h c s = some (r, s') → H c s r s') {p : Prog Call (Settled Error Answer) α}
    {x : σ} (ts : List Turn) {key : Key} (hd : pendingDelete (p.runTurns h ts x).1 = some key) :
    AsksToDelete H p x key (p.runTurns h ts x).2 := by
  obtain ⟨k, hk⟩ := exists_of_pendingDelete hd
  refine ⟨k, ?_⟩
  rw [← hk]
  exact steps_runTurns hH ts p x

/-- The answers of `handle`, as long as a listing finds every row in the snapshot and nothing
is doomed when a row is inserted. -/
def answerInTime (c : Call) (x : State × Watch) :
    Option (Settled Error Answer c × (State × Watch)) :=
  let inTime : Bool := match c with
    | .createServer _ | .createProxy _ => x.2.doomed.isEmpty
    | .list kind => (x.1.db.names kind).all fun name => (x.2.expected kind).contains name
    | _ => true
  if inTime then some ((handle c x.1).1, (handle c x.1).2, watch c x.1 (handle c x.1).1 x.2)
  else none

theorem timely_of_answerInTime (c : Call) (x : State × Watch) (r : Settled Error Answer c)
    (y : State × Watch) (h : answerInTime c x = some (r, y)) : timely c x r y := by
  simp only [answerInTime] at h
  split_ifs at h with hInTime
  cases h
  refine ⟨⟨.inl rfl, rfl⟩, ?_⟩
  cases c with
  | createServer row =>
    intro _ hdoomed
    rw [List.isEmpty_iff.mp hInTime] at hdoomed
    cases hdoomed
  | createProxy row =>
    intro _ hdoomed
    rw [List.isEmpty_iff.mp hInTime] at hdoomed
    cases hdoomed
  | list kind => exact fun name _ hrow => by simpa using List.all_eq_true.mp hInTime name hrow
  | _ => trivial

/-- A managed resource without a row. -/
def leftover : Cluster :=
  VersionedStore.empty.put ⟨.minecraftservers, "old"⟩
    ⟨[managedBy], .custom apiVersion "MinecraftServer" .null⟩

def createX : CreateRequest :=
  .server { id := "x", listenPort := 25565, type := .stateful } "key"

/-- The whole create, then `syncAll` to its first deletion. -/
def createBeforeSnapshot : List Turn :=
  (List.replicate 9 [.right, .go]).flatten ++ [.go, .left] ++ List.replicate 7 .go ++
    [.left, .go, .left]

def sweepAfterCreate : Prog Call (Settled Error Answer) (Except Error (List Error) × List Unit) ×
    (State × Watch) :=
  (syncAmidCreates {} [createX]).runTurns answerInTime createBeforeSnapshot
    (.idle .empty leftover, .start)

/-- With the server created before the snapshot, only the leftover is deleted. -/
theorem syncAll_spares_present_rows_leftover :
    AsksToDelete timely (syncAmidCreates {} [createX]) (.idle .empty leftover, .start)
      ⟨.minecraftservers, "old"⟩ sweepAfterCreate.2 ∧
    "x" ∈ sweepAfterCreate.2.1.db.names .minecraftservers ∧
    "old" ∉ sweepAfterCreate.2.1.db.names .minecraftservers := by
  have pending : pendingDelete sweepAfterCreate.1 = some ⟨.minecraftservers, "old"⟩ := by
    decide +kernel
  have asks : AsksToDelete timely (syncAmidCreates {} [createX]) (.idle .empty leftover, .start)
      ⟨.minecraftservers, "old"⟩ sweepAfterCreate.2 := by
    unfold sweepAfterCreate
    exact asksToDelete_runTurns timely_of_answerInTime createBeforeSnapshot pending
  have created : "x" ∈ sweepAfterCreate.2.1.db.names .minecraftservers := by decide +kernel
  have absent := syncAll_spares_present_rows (by decide) asks
  exact ⟨asks, created, absent⟩

/-- The snapshot, then the whole create, then the listing. -/
def createAfterSnapshot : List Turn :=
  [.left, .go, .left, .left, .left, .go, .left, .go, .left, .left] ++
    (List.replicate 8 [.right, .go]).flatten ++ [.left, .go, .left, .left, .left]

/-- Nothing keeps `syncAll` from deleting the resource of a server just created. -/
theorem syncAll_deletes_created_server :
    ¬∀ (requests : List CreateRequest) (s s' : State) (key : Key), key.kind ≠ .secret →
      AsksToDelete api (syncAmidCreates {} requests) s key s' →
      key.name ∉ s'.db.names key.kind := by
  intro h
  have asks : AsksToDelete api (syncAmidCreates {} [createX]) (.idle .empty .empty)
      ⟨.minecraftservers, "x"⟩ _ :=
    asksToDelete_runTurns (h := fun c s => some (handle c s)) (fun c s r s' h => Option.some.inj h)
      createAfterSnapshot (by decide)
  exact h _ _ _ _ (by decide) asks (by decide)

end Minikura.Backend
