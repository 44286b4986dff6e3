import Mathlib.Data.Set.Insert
import Minikura.Backend.StaleDeletion

/-!
# Concurrent updates of one server

Every update request commits its change to the row and then synchronizes the row it
reads back. The custom resource is replaced at the version fetched just before, but
the row was read earlier: the version protects the replacement, not what is written.
A request that fails in the database, perhaps after it has changed the row, does not
synchronize at all.

## Main definitions

* `updates` — any number of update requests on one row, interleaved in every way.
* `Fetches`, `fetchLog` — which rows the requests hold, what the last of them to
  fetch the version was going to write, and what the row has become since.
* `Ghost`, `ghostLog` — which fetched versions are still the current one.
-/

namespace Minikura.Backend
open Concurrency OperatorResourceSync

variable {o : OperatorResourceSync} {id : String} {n : Nat}

/-! ## Requests -/

inductive UpdateRequest where
  | update (input : UpdateServerInput)
  | setEnv (key value : String)
  | deleteEnv (key : String)

def UpdateRequest.run (o : OperatorResourceSync) (id : String) : UpdateRequest →
    Prog Call (Settled Error Answer) Unit
  | .update input => (o.updateServer id input).run.bind fun _ => .pure ()
  | .setEnv key value => (o.setEnvVariable id key value).run.bind fun _ => .pure ()
  | .deleteEnv key => (o.deleteEnvVariable id key).run.bind fun _ => .pure ()

/-- All requests run concurrently, each making its calls under its own number. -/
def updates (o : OperatorResourceSync) (id : String) (req : Fin n → UpdateRequest) :
    Prog (Fin n × Call) (fun x => Settled Error Answer x.2) (List Unit) :=
  Prog.allSettled ((List.finRange n).map fun i => ((req i).run o id).tag i)

/-- No call fails, except that a read or a delete may find nothing. -/
def succeeds : (c : Call) → Settled Error Answer c → Bool
  | .read _, .error e => e.isNotFound
  | .delete _, .error e => e.isNotFound
  | _, .error _ => false
  | _, .ok _ => true

/-- The API server and the database in runs where all requests to the cluster succeed. A query
may fail, before or after it has taken effect. -/
abbrev willingApi : Handler Call (Settled Error Answer) State :=
  lossyApi.restrict fun c s r s' => c.requestsCluster → handle c s = (r, s') ∧ succeeds c r

/-! ## What a run is judged by -/

/-- The custom resource of the server. -/
def serverKey (id : String) : Key := ⟨.minecraftservers, id⟩

theorem serverKey_kind : (serverKey id).kind ≠ .secret := nofun

/-- What `syncServer` writes for a row. -/
def projection (o : OperatorResourceSync) (row : Server) : Json :=
  o.serverSpec row (secretName .minecraftservers row.id)

/-- The projection of the row in the database. -/
def rowSpec (o : OperatorResourceSync) (id : String) (s : State) : Option Json :=
  (s.db.findServer id).map (projection o)

/-- The spec of the custom resource. -/
def storedSpec (id : String) (s : State) : Option Json :=
  (s.cluster.value (serverKey id)).bind Resource.spec?

def Call.fetches (key : Key) : Call → Bool
  | .read k => k = key
  | _ => false

/-- The calls that may change a row that is already there. -/
def Call.writesRow : Call → Bool
  | .updateServer .. | .deleteEnvVariables .. | .createEnvVariables .. => true
  | .upsertEnvVariable .. | .deleteEnvVariable .. => true
  | _ => false

/-- The rows read by the requests; the projection of the row held by the request that
fetched the resource version last; the projection of the row in the database then, and
after the last write of the row since; whether a query has failed. -/
structure Fetches (n : Nat) where
  held : Fin n → Option Server
  fetched : Option Json
  current : Option Json
  latest : Option Json
  failed : Bool

def fetchLog (o : OperatorResourceSync) (id : String) (x : Fin n × Call) (s : State)
    (r : Settled Error Answer x.2) (s' : State) (f : Fetches n) : Fetches n where
  held :=
    match x, r with
    | (i, .findServer id'), .ok row => if id' = id then Function.update f.held i row else f.held
    | _, _ => f.held
  fetched :=
    if x.2.fetches (serverKey id) then (f.held x.1).map (projection o) else f.fetched
  current := if x.2.fetches (serverKey id) then rowSpec o id s else f.current
  latest :=
    if x.2.fetches (serverKey id) || x.2.writesRow then rowSpec o id s' else f.latest
  failed := f.failed || (!x.2.requestsCluster && !r.isOk)

/-- Before any request has fetched, the resource counts as what was fetched last. -/
def Fetches.start (o : OperatorResourceSync) (id : String) (s : State) : Fetches n :=
  ⟨fun _ => none, storedSpec id s, rowSpec o id s, rowSpec o id s, false⟩

abbrev watchedApi (o : OperatorResourceSync) (id : String) (n : Nat) :
    Handler (Fin n × Call) (fun x => Settled Error Answer x.2) (State × Fetches n) :=
  (Handler.tagged (Fin n) willingApi).record (fetchLog o id)

/-! ## Versions -/

/-- `seen`: the version each request fetched, `none` if there was no resource;
`valid`: the requests since whose fetch nobody has written the resource;
`unsynced`: the requests that changed the row after the last fetch. -/
structure Ghost (n : Nat) where
  seen : Fin n → Option (Option Nat)
  valid : Set (Fin n)
  unsynced : Set (Fin n)
  last : Option (Fin n)

def Ghost.start : Ghost n := ⟨fun _ => none, ∅, ∅, none⟩

/-- The calls that write an object under the key. -/
def Call.puts (key : Key) : Call → Bool
  | .replace k _ _ | .create k _ _ => k = key
  | _ => false

theorem Call.Writes.puts {c : Call} {key : Key} {body : Resource} (h : c.Writes key body) :
    c.puts key = true := by
  cases c with
  | replace => exact decide_eq_true h.1.symm
  | create => exact decide_eq_true h.1.symm
  | _ => exact h.elim

def versionOf (id : String) (s : State) : Option Nat :=
  (s.cluster.lookup (serverKey id)).map (·.version)

open Classical in
noncomputable def ghostLog (id : String) (x : Fin n × Call) (s : State × Fetches n)
    (_ : Settled Error Answer x.2) (g : Ghost n) : Ghost n :=
  if x.2.fetches (serverKey id) then
    ⟨Function.update g.seen x.1 (some (versionOf id s.1)), insert x.1 g.valid, ∅, some x.1⟩
  else if x.2.puts (serverKey id) then { g with valid := ∅ }
  else if x.2.writesRow then { g with unsynced := insert x.1 g.unsynced }
  else g

abbrev Ghostly (n : Nat) := (State × Fetches n) × Ghost n

/-- What the fetched versions say about the present one. -/
structure Versions (o : OperatorResourceSync) (id : String) (x : Ghostly n) : Prop where
  bound : ∀ i v, x.2.seen i = some (some v) → v ≤ x.1.1.cluster.clock
  valid : ∀ i v, x.2.seen i = some v → versionOf id x.1.1 = v → i ∈ x.2.valid
  row : rowSpec o id x.1.1 = x.1.2.latest
  synced : x.2.unsynced = ∅ → x.1.2.latest = x.1.2.current
  found : (x.1.1.db.findServer id).isSome

/-! ## What a call does to the row and to the resource -/

theorem clock_handle (c : Call) (s : State) :
    s.cluster.clock ≤ (handle c s).2.cluster.clock := by
  rcases cluster_handle c s with h | ⟨key, body, -, h⟩ | ⟨key, -, h⟩ <;> rw [h]
  · exact Nat.le_succ _
  · exact le_rfl

theorem lookup_handle {c : Call} {key : Key} (s : State) (hc : Harmless c)
    (hkey : key.kind ≠ .secret) (hp : c.puts key = false) :
    (handle c s).2.cluster.lookup key = s.cluster.lookup key := by
  rcases cluster_handle c s with h | ⟨k, body, hk, h⟩ | ⟨k, rfl, h⟩ <;> rw [h]
  · refine VersionedStore.lookup_put_ne _ _ ?_
    rintro rfl
    rw [hk.puts] at hp
    cases hp
  · refine VersionedStore.lookup_remove_ne _ ?_
    rintro rfl
    exact hkey hc

theorem findServer_isSome_iff {db : Database} :
    (db.findServer id).isSome ↔ id ∈ db.names .minecraftservers := by
  simp [Database.findServer, Database.names]

/-- No call removes a row. -/
theorem findServer_handle_isSome (c : Call) {s : State} (h : (s.db.findServer id).isSome) :
    ((handle c s).2.db.findServer id).isSome := by
  rw [findServer_isSome_iff] at h ⊢
  rcases names_handle c s .minecraftservers with hn | ⟨row, -, -, hn⟩ | ⟨row, -, hk, -⟩
  · rwa [hn]
  · rw [hn]
    exact List.mem_append_left _ h
  · cases hk

theorem findServer_handle {c : Call} {s : State} (h : (s.db.findServer id).isSome)
    (hc : c.writesRow = false) : (handle c s).2.db.findServer id = s.db.findServer id := by
  cases c with
  | createServer row =>
    simp only [handle]
    split_ifs with hrow
    · obtain ⟨found, hfound⟩ := Option.isSome_iff_exists.mp h
      simp only [Database.findServer, Database.insertServer, List.find?_append] at hfound ⊢
      rw [hfound, Option.some_or]
    · rfl
    · rfl
  | createProxy row =>
    simp only [handle]
    split_ifs <;> rfl
  | replace =>
    simp only [handle]
    split_ifs
    · rfl
    · rw [db_request]
  | create => exact congrArg (Database.findServer · id) (db_request _ _)
  | delete => exact congrArg (Database.findServer · id) (db_request _ _)
  | read key =>
    simp only [handle]
    cases s.cluster.lookup key <;> rfl
  | updateServer => cases hc
  | createEnvVariables => cases hc
  | upsertEnvVariable => cases hc
  | deleteEnvVariables => cases hc
  | deleteEnvVariable => cases hc
  | _ => rfl

theorem handle_findServer_of_isSome {s : State} (h : (s.db.findServer id).isSome) :
    ∃ row, s.db.findServer id = some row ∧ row.id = id := by
  obtain ⟨row, hrow⟩ := Option.isSome_iff_exists.mp h
  exact ⟨row, hrow, by simpa using List.find?_some hrow⟩

theorem replace_succeeds {key : Key} {v : Nat} {body : Resource} {s : State}
    (h : succeeds (.replace key (some v) body) (handle (.replace key (some v) body) s).1) :
    (s.cluster.lookup key).map (·.version) = some v ∧
      (handle (.replace key (some v) body) s).2.cluster = s.cluster.put key body := by
  simp only [handle, Option.isNone_some, Bool.false_and, Bool.false_eq_true, if_false] at h ⊢
  cases hr : s.cluster.replace key (some v) body with
  | error e =>
    rw [hr] at h
    exact absurd h Bool.false_ne_true
  | ok c =>
    obtain ⟨rfl, old, hold, hv⟩ := VersionedStore.replace_ok hr
    exact ⟨by rw [hold, Option.map_some, hv v rfl], rfl⟩

theorem create_succeeds {key : Key} {body : Resource} {s : State}
    (h : succeeds (.create key none body) (handle (.create key none body) s).1) :
    (s.cluster.lookup key).map (·.version) = none ∧
      (handle (.create key none body) s).2.cluster = s.cluster.put key body := by
  simp only [handle] at h ⊢
  cases hr : s.cluster.create key none body with
  | error e =>
    rw [hr] at h
    exact absurd h Bool.false_ne_true
  | ok c =>
    obtain ⟨rfl, -, hold⟩ := VersionedStore.create_ok hr
    exact ⟨by rw [hold, Option.map_none], rfl⟩

theorem puts_succeeds {c : Call} {key : Key} {s : State} (hp : c.puts key)
    (h : succeeds c (handle c s).1) :
    ∃ body, (handle c s).2.cluster = s.cluster.put key body := by
  cases c with
  | replace k version body =>
    obtain rfl : k = key := by simpa [Call.puts] using hp
    simp only [handle] at h ⊢
    split_ifs at h ⊢
    · exact absurd h Bool.false_ne_true
    · cases hr : s.cluster.replace k version body with
      | error e =>
        rw [hr] at h
        exact absurd h Bool.false_ne_true
      | ok c => exact ⟨body, (VersionedStore.replace_ok hr).1⟩
  | create k version body =>
    obtain rfl : k = key := by simpa [Call.puts] using hp
    simp only [handle] at h ⊢
    cases hr : s.cluster.create k version body with
    | error e =>
      rw [hr] at h
      exact absurd h Bool.false_ne_true
    | ok c => exact ⟨body, (VersionedStore.create_ok hr).1⟩
  | _ => cases hp

/-! ## The records -/

/-- The handler of the proof: the watched one with the ghost record, restricted to what
the requests do and to states where the record is right about the versions. -/
abbrev ghostApi (o : OperatorResourceSync) (id : String) (n : Nat) :
    Handler (Fin n × Call) (fun x => Settled Error Answer x.2) (Ghostly n) :=
  (((watchedApi o id n).observe (ghostLog id)).restrict fun x _ _ _ => Harmless x.2).restrict
    fun _ x _ y => Versions o id x ∧ Versions o id y

theorem fetchLog_of_not_fetches {i : Fin n} {c : Call} {s s' : State}
    {r : Settled Error Answer c} {f : Fetches n} (h : c.fetches (serverKey id) = false) :
    (fetchLog o id (i, c) s r s' f).fetched = f.fetched ∧
      (fetchLog o id (i, c) s r s' f).current = f.current := by
  simp [fetchLog, h]

theorem fetchLog_held_self {i : Fin n} {c : Call} {s s' : State} {r : Settled Error Answer c}
    {f : Fetches n} (h : ∀ id', c ≠ .findServer id') :
    (fetchLog o id (i, c) s r s' f).held = f.held := by
  cases c with
  | findServer id' => exact absurd rfl (h id')
  | _ => rfl

theorem fetchLog_held_ne {i j : Fin n} {c : Call} {s s' : State} {r : Settled Error Answer c}
    {f : Fetches n} (h : j ≠ i) : (fetchLog o id (i, c) s r s' f).held j = f.held j := by
  cases c with
  | findServer id' =>
    cases r with
    | error e => rfl
    | ok row =>
      simp only [fetchLog]
      split_ifs
      · exact Function.update_of_ne h _ _
      · rfl
  | _ => rfl

theorem eq_read_of_fetches {c : Call} {key : Key} (h : c.fetches key) : c = .read key := by
  cases c with
  | read k => rw [show k = key by simpa [Call.fetches] using h]
  | _ => cases h

theorem versionOf_le_clock {s : State} {v : Nat} (h : versionOf id s = some v) :
    v ≤ s.cluster.clock := by
  obtain ⟨old, hold, rfl⟩ := Option.map_eq_some_iff.mp h
  exact VersionedStore.version_le_clock hold

/-- A step of a request, spelt out. -/
structure GhostStep (o : OperatorResourceSync) (id : String) (i : Fin n) (c : Call)
    (x : Ghostly n) (r : Settled Error Answer c) (y : Ghostly n) : Prop where
  effect : y.1.1 = x.1.1 ∨ y.1.1 = (handle c x.1.1).2
  answer : ∀ a, r = .ok a → handle c x.1.1 = (.ok a, y.1.1)
  cluster : c.requestsCluster → handle c x.1.1 = (r, y.1.1) ∧ succeeds c r
  fetches : y.1.2 = fetchLog o id (i, c) x.1.1 r y.1.1 x.1.2
  ghost : y.2 = ghostLog id (i, c) x.1 r x.2
  harmless : Harmless c

theorem ghostStep_of_observed {i : Fin n} {c : Call} {x y : Ghostly n}
    {r : Settled Error Answer c}
    (h : (((watchedApi o id n).observe (ghostLog id)).restrict
      fun x _ _ _ => Harmless x.2) (i, c) x r y) : GhostStep o id i c x r y := by
  obtain ⟨⟨⟨⟨hlossy, hc⟩, hf⟩, hg⟩, hh⟩ := h
  obtain ⟨heffect, hanswer⟩ := Handler.of_lossy hlossy
  exact ⟨heffect, hanswer, hc, hf, hg, hh⟩

theorem requestsCluster_of_puts {c : Call} {key : Key} (h : c.puts key) : c.requestsCluster := by
  cases c <;> first | rfl | cases h

section GhostSteps

variable {i : Fin n} {c : Call} {x y : Ghostly n} {r : Settled Error Answer c}

theorem GhostStep.lookup (h : GhostStep o id i c x r y) (hp : c.puts (serverKey id) = false) :
    y.1.1.cluster.lookup (serverKey id) = x.1.1.cluster.lookup (serverKey id) := by
  rcases h.effect with he | he <;> rw [he]
  exact lookup_handle _ h.harmless serverKey_kind hp

theorem GhostStep.clock (h : GhostStep o id i c x r y) :
    x.1.1.cluster.clock ≤ y.1.1.cluster.clock := by
  rcases h.effect with he | he <;> rw [he]
  exact clock_handle c _

theorem GhostStep.found (h : GhostStep o id i c x r y) (hx : (x.1.1.db.findServer id).isSome) :
    (y.1.1.db.findServer id).isSome := by
  rcases h.effect with he | he <;> rw [he]
  · exact hx
  · exact findServer_handle_isSome c hx

theorem GhostStep.row (h : GhostStep o id i c x r y) (hx : (x.1.1.db.findServer id).isSome)
    (hc : c.writesRow = false) : rowSpec o id y.1.1 = rowSpec o id x.1.1 := by
  rw [rowSpec, rowSpec]
  rcases h.effect with he | he <;> rw [he]
  rw [findServer_handle hx hc]

theorem GhostStep.latest (h : GhostStep o id i c x r y) :
    y.1.2.latest =
      if c.fetches (serverKey id) || c.writesRow then rowSpec o id y.1.1 else x.1.2.latest := by
  rw [h.fetches]
  rfl

theorem GhostStep.current (h : GhostStep o id i c x r y) :
    y.1.2.current =
      if c.fetches (serverKey id) then rowSpec o id x.1.1 else x.1.2.current := by
  rw [h.fetches]
  rfl

/-- Who has seen a version has seen it before, or fetches it in this step. -/
theorem GhostStep.seen (h : GhostStep o id i c x r y) {j : Fin n} {v : Option Nat}
    (hj : y.2.seen j = some v) :
    x.2.seen j = some v ∨ c.fetches (serverKey id) ∧ j = i ∧ v = versionOf id x.1.1 := by
  rw [h.ghost, ghostLog] at hj
  split_ifs at hj with hfetch
  · dsimp only at hj
    by_cases hji : j = i
    · subst hji
      rw [Function.update_self, Option.some_inj] at hj
      exact .inr ⟨hfetch, rfl, hj.symm⟩
    · rw [Function.update_of_ne hji] at hj
      exact .inl hj
  all_goals exact .inl hj

theorem GhostStep.bound (h : GhostStep o id i c x r y) (hI : Versions o id x) {j : Fin n}
    {v : Nat} (hj : y.2.seen j = some (some v)) : v ≤ y.1.1.cluster.clock := by
  refine Nat.le_trans ?_ h.clock
  obtain hold | ⟨-, -, hv⟩ := h.seen hj
  · exact hI.bound j v hold
  · exact versionOf_le_clock hv.symm

/-- A put gives the resource a version nobody has seen yet. -/
theorem GhostStep.versionOf_puts (h : GhostStep o id i c x r y) (hI : Versions o id x)
    (hput : c.puts (serverKey id)) (j : Fin n) :
    x.2.seen j ≠ some (versionOf id y.1.1) := by
  intro hj
  obtain ⟨hc, hs⟩ := h.cluster (requestsCluster_of_puts hput)
  obtain ⟨body, hbody⟩ := puts_succeeds hput (show succeeds c (handle c x.1.1).1 by rwa [hc])
  rw [hc] at hbody
  rw [versionOf, show y.1.1.cluster = _ from hbody, VersionedStore.lookup_put] at hj
  exact absurd (hI.bound j _ hj) (Nat.not_succ_le_self _)

theorem GhostStep.versionOf_eq (h : GhostStep o id i c x r y)
    (hput : c.puts (serverKey id) = false) : versionOf id y.1.1 = versionOf id x.1.1 := by
  rw [versionOf, versionOf, h.lookup hput]

theorem GhostStep.valid (h : GhostStep o id i c x r y) (hI : Versions o id x) {j : Fin n}
    {v : Option Nat} (hj : y.2.seen j = some v) (hv : versionOf id y.1.1 = v) :
    j ∈ y.2.valid := by
  have hold : x.2.seen j = some v → versionOf id x.1.1 = v → j ∈ x.2.valid := hI.valid j v
  have hseen := h.seen hj
  rw [h.ghost, ghostLog]
  split_ifs with hfetch hput hwrite
  · obtain rfl := eq_read_of_fetches hfetch
    rw [h.versionOf_eq rfl] at hv
    obtain hj | ⟨-, rfl, -⟩ := hseen
    · exact .inr (hold hj hv)
    · exact Set.mem_insert _ _
  -- a version that was put just now has not been seen
  · obtain hj | ⟨hf, -, -⟩ := hseen
    · subst hv
      exact absurd hj (h.versionOf_puts hI hput j)
    · exact absurd hf hfetch
  all_goals
    obtain hj | ⟨hf, -, -⟩ := hseen
    · exact hold hj (h.versionOf_eq (by simpa using hput) ▸ hv)
    · exact absurd hf hfetch

theorem GhostStep.rowSpec_eq (h : GhostStep o id i c x r y) (hI : Versions o id x) :
    rowSpec o id y.1.1 = y.1.2.latest := by
  rw [h.latest]
  split_ifs with hc
  · rfl
  · rw [Bool.not_eq_true, Bool.or_eq_false_iff] at hc
    rw [h.row hI.found hc.2, hI.row]

/-- The row differs from the one of the last fetch only where someone has written it since. -/
theorem GhostStep.synced (h : GhostStep o id i c x r y) (hI : Versions o id x)
    (hu : y.2.unsynced = ∅) : y.1.2.latest = y.1.2.current := by
  rw [h.ghost, ghostLog] at hu
  split_ifs at hu with hfetch hput hwrite
  · obtain rfl := eq_read_of_fetches hfetch
    rw [← h.rowSpec_eq hI, h.current, if_pos hfetch, h.row hI.found rfl]
  · have hwrite : c.writesRow = false := by
      cases c <;> first | rfl | cases hput
    rw [h.latest, h.current, if_neg hfetch, if_neg (by simp [hfetch, hwrite]), hI.synced hu]
  · exact absurd hu (Set.insert_nonempty _ _).ne_empty
  · rw [h.latest, h.current, if_neg hfetch, if_neg (by simp [hfetch, hwrite]), hI.synced hu]

end GhostSteps

/-- Every call leaves the record right about the versions. -/
theorem versions_step {x : Fin n × Call} {s t : Ghostly n} {r : Settled Error Answer x.2}
    (hI : Versions o id s) (h : (((watchedApi o id n).observe (ghostLog id)).restrict
      fun x _ _ _ => Harmless x.2) x s r t) : Versions o id t where
  bound _ _ := (ghostStep_of_observed h).bound hI
  valid _ _ := (ghostStep_of_observed h).valid hI
  row := (ghostStep_of_observed h).rowSpec_eq hI
  synced := (ghostStep_of_observed h).synced hI
  found := (ghostStep_of_observed h).found hI.found

/-! ## The contract of a request -/

/-- The custom resource is as the last request to fetch its version was going to write it,
and nobody can replace it before fetching again. -/
def Landed (id : String) (x : Ghostly n) : Prop :=
  x.2.valid = ∅ ∧ storedSpec id x.1.1 = x.1.2.fetched

/-- The step does not make `l` the last to have fetched; if it is, what has landed stays. -/
def Keeps (id : String) (l : Option (Fin n)) (x y : Ghostly n) : Prop :=
  y.2.last = l → x.2.last = l ∧ y.1.2.fetched = x.1.2.fetched ∧ (Landed id x → Landed id y)

/-- A step of another request, as `i` sees it. -/
structure Unseen (id : String) (i : Fin n) (x y : Ghostly n) : Prop where
  held : y.1.2.held i = x.1.2.held i
  seen : y.2.seen i = x.2.seen i
  valid : i ∈ y.2.valid → i ∈ x.2.valid
  unsynced : i ∈ y.2.unsynced → i ∈ x.2.unsynced
  failed : x.1.2.failed = true → y.1.2.failed = true
  last : Keeps id (some i) x y

theorem Keeps.refl (l : Option (Fin n)) (x : Ghostly n) : Keeps id l x x :=
  fun h => ⟨h, rfl, fun h => h⟩

theorem Keeps.trans {l : Option (Fin n)} {x y z : Ghostly n} (h : Keeps id l x y)
    (h' : Keeps id l y z) : Keeps id l x z := by
  intro hz
  obtain ⟨hy, hf', hL'⟩ := h' hz
  obtain ⟨hx, hf, hL⟩ := h hy
  exact ⟨hx, hf'.trans hf, fun hl => hL' (hL hl)⟩

/-- The contract of request `i`. -/
def requesting (id : String) (i : Fin n) : Contract (Fin n × Call) (Ghostly n) where
  rely := Unseen id i
  guar _ x y := (∀ j, j ≠ i → Unseen id j x y) ∧ Keeps id none x y
  refl x := ⟨rfl, rfl, fun h => h, fun h => h, fun h => h, .refl _ x⟩
  trans _ _ _ h h' := ⟨h'.held.trans h.held, h'.seen.trans h.seen,
    fun hi => h.valid (h'.valid hi), fun hi => h.unsynced (h'.unsynced hi),
    fun hf => h'.failed (h.failed hf), h.last.trans h'.last⟩

theorem requesting_compatible {i j : Fin n} (h : i ≠ j) :
    (requesting id i).Compatible (requesting id j) :=
  ⟨fun _ _ _ g => g.1 j h.symm, fun _ _ _ g => g.1 i h⟩

section Steps

variable {i : Fin n} {c : Call} {x y : Ghostly n} {r : Settled Error Answer c}

theorem storedSpec_eq {s t : State}
    (h : t.cluster.lookup (serverKey id) = s.cluster.lookup (serverKey id)) :
    storedSpec id t = storedSpec id s := by
  rw [storedSpec, storedSpec, value_eq_of_lookup_eq h]

/-- A call that writes no custom resource of the server leaves it as it is. -/
theorem GhostStep.stored (h : GhostStep o id i c x r y) (hp : c.puts (serverKey id) = false) :
    storedSpec id y.1.1 = storedSpec id x.1.1 :=
  storedSpec_eq (h.lookup hp)

theorem GhostStep.fetched (h : GhostStep o id i c x r y)
    (hf : c.fetches (serverKey id) = false) : y.1.2.fetched = x.1.2.fetched := by
  rw [h.fetches]
  exact (fetchLog_of_not_fetches hf).1

theorem GhostStep.failed (h : GhostStep o id i c x r y) (hx : x.1.2.failed = true) :
    y.1.2.failed = true := by
  rw [h.fetches]
  simp [fetchLog, hx]

theorem GhostStep.failed_of_error {e : Error} (h : GhostStep o id i c x r y) (hr : r = .error e)
    (hc : c.requestsCluster = false) : y.1.2.failed = true := by
  subst hr
  rw [h.fetches]
  simp [fetchLog, hc, Except.isOk, Except.toBool]

/-- A request lets those who were not the last to fetch keep what they have. -/
theorem GhostStep.keeps {l : Option (Fin n)} (h : GhostStep o id i c x r y) (hl : l ≠ some i)
    (hput : c.puts (serverKey id) → i ∈ x.2.valid) : Keeps id l x y := by
  intro hlast
  have hg := h.ghost
  unfold ghostLog at hg
  split_ifs at hg with hfetch hp hwrite
  · rw [hg] at hlast
    exact absurd hlast.symm hl
  · rw [hg] at hlast
    refine ⟨hlast, h.fetched (by simpa using hfetch), fun hL => ?_⟩
    -- the resource is not written by a request whose fetch is out of date
    have hmem := hput hp
    rw [hL.1] at hmem
    exact hmem.elim
  all_goals
    rw [hg] at hlast
    refine ⟨hlast, h.fetched (by simpa using hfetch), fun hL => ⟨?_, ?_⟩⟩
    · rw [hg]
      exact hL.1
    · rw [h.stored (by simpa using hp), h.fetched (by simpa using hfetch)]
      exact hL.2

theorem GhostStep.unseen {j : Fin n} (h : GhostStep o id i c x r y) (hj : j ≠ i)
    (hput : c.puts (serverKey id) → i ∈ x.2.valid) : Unseen id j x y := by
  refine ⟨?_, ?_, ?_, ?_, h.failed, h.keeps (fun e => hj (Option.some.inj e)) hput⟩
  · rw [h.fetches]
    exact fetchLog_held_ne hj
  · rw [h.ghost]
    unfold ghostLog
    split_ifs
    · exact Function.update_of_ne hj _ _
    · rfl
    · rfl
    · rfl
  · rw [h.ghost]
    unfold ghostLog
    split_ifs
    · exact fun h => h.resolve_left hj
    · exact fun h => h.elim
    · exact fun h => h
    · exact fun h => h
  · rw [h.ghost]
    unfold ghostLog
    split_ifs
    · exact fun h => h.elim
    · exact fun h => h
    · exact fun h => h.resolve_left hj
    · exact fun h => h

theorem GhostStep.guar (h : GhostStep o id i c x r y)
    (hput : c.puts (serverKey id) → i ∈ x.2.valid) : (requesting id i).guar (i, c) x y :=
  ⟨fun _ hj => h.unseen hj hput, h.keeps nofun hput⟩

end Steps

/-! ## A request -/

/-- The calls of request `i`, as its program makes them. -/
abbrev myApi (o : OperatorResourceSync) (id : String) (i : Fin n) :
    Handler Call (Settled Error Answer) (Ghostly n) :=
  (ghostApi o id n).caller i

abbrev mine (id : String) (i : Fin n) : Contract Call (Ghostly n) := (requesting id i).caller i

section Request

variable {i : Fin n} {c : Call} {x : Ghostly n}

/-- A call of request `i`, from a condition the others keep. -/
theorem wp_own {α : Type} {k : Settled Error Answer c → Prog Call (Settled Error Answer) α}
    {Q : α → Ghostly n → Prop} (P : Ghostly n → Prop) (hP : P x)
    (stable : ∀ x y, P x → (mine id i).rely x y → P y)
    (hput : ∀ x r y, P x → Versions o id x → GhostStep o id i c x r y →
      c.puts (serverKey id) → i ∈ x.2.valid)
    (h : ∀ x r y, P x → Versions o id x → GhostStep o id i c x r y →
      wp (myApi o id i) (mine id i) (k r) Q y) :
    wp (myApi o id i) (mine id i) (.call c k) Q x := by
  refine wp_call P hP stable fun x r y hx hH => ?_
  have hstep := ghostStep_of_observed hH.1
  exact ⟨hstep.guar (hput x r y hx hH.2.1 hstep), h x r y hx hH.2.1 hstep⟩

/-- A request that has not fetched yet, after a query: if the query failed, the record
says so. -/
structure Queried {β : Type} (i : Fin n) (r : Except Error β) (x : Ghostly n) : Prop where
  before : x.2.last ≠ some i
  failed : ∀ e, r = .error e → x.1.2.failed = true

theorem Queried.stable {β : Type} {r : Except Error β} {x y : Ghostly n} (h : Queried i r x)
    (hr : (mine id i).rely x y) : Queried i r y where
  before hl := h.before (hr.last hl).1
  failed e he := hr.failed (h.failed e he)

theorem before_stable (x y : Ghostly n) (hx : x.2.last ≠ some i) (hr : (mine id i).rely x y) :
    y.2.last ≠ some i :=
  fun hl => hx (hr.last hl).1

theorem GhostStep.queried {y : Ghostly n} {r : Settled Error Answer c}
    (h : GhostStep o id i c x r y) (hc : c.requestsCluster = false)
    (hx : x.2.last ≠ some i) : Queried i r y where
  before := by
    have hfetch : c.fetches (serverKey id) = false := by
      cases c <;> first | rfl | cases hc
    rw [h.ghost]
    unfold ghostLog
    rw [if_neg (by simp [hfetch])]
    split_ifs <;> exact hx
  failed e he := h.failed_of_error he hc

/-- A query before the fetch, which may fail. -/
theorem wp_query (hc : c.requestsCluster = false) (hx : x.2.last ≠ some i) :
    wp (myApi o id i) (mine id i) (await c).run (Queried i) x := by
  have hp : c.puts (serverKey id) = false := by
    cases c <;> first | rfl | cases hc
  simp only [await, Async.await, ExceptT.run_mk]
  refine wp_own (fun x => x.2.last ≠ some i) hx before_stable
    (fun _ _ _ _ _ _ h => by simp [hp] at h) fun x r y hx _ hstep => ?_
  exact fun z hz => (hstep.queried hc hx).stable hz

/-- The request holds the row. -/
def Holds (i : Fin n) (row : Server) (x : Ghostly n) : Prop := x.1.2.held i = some row

theorem Holds.stable {row : Server} {x y : Ghostly n} (h : Holds i row x)
    (hr : (mine id i).rely x y) : Holds i row y := hr.held.trans h

theorem wp_findServer (hx : x.2.last ≠ some i) :
    wp (myApi o id i) (mine id i) (await (.findServer id)).run
      (fun r y => Queried i r y ∧
        ∀ a, r = .ok a → ∃ row, a = some row ∧ row.id = id ∧ Holds i row y) x := by
  simp only [await, Async.await, ExceptT.run_mk]
  refine wp_own (fun x => x.2.last ≠ some i) hx before_stable
    (fun _ _ _ _ _ _ h => by cases h) fun x r y hx hv hstep => ?_
  refine fun z hz => ⟨(hstep.queried rfl hx).stable hz, ?_⟩
  rintro a rfl
  obtain ⟨row, hrow, hid⟩ := handle_findServer_of_isSome hv.found
  have ha : x.1.1.db.findServer id = a := Except.ok.inj (congrArg Prod.fst (hstep.answer a rfl))
  refine ⟨row, ha.symm.trans hrow, hid, Holds.stable ?_ hz⟩
  rw [Holds, hstep.fetches]
  simp [fetchLog, ← ha, hrow]

/-- A request to the cluster that is neither of the two the records are about. -/
theorem wp_aside {α : Type} {k : Settled Error Answer c → Prog Call (Settled Error Answer) α}
    {Q : α → Ghostly n → Prop} (P : Ghostly n → Prop) (hP : P x)
    (stable : ∀ x y, P x → (mine id i).rely x y → P y) (hc : c.requestsCluster)
    (hp : c.puts (serverKey id) = false)
    (keep : ∀ x r y, P x → GhostStep o id i c x r y → P y)
    (h : ∀ r y, P y → succeeds c r → wp (myApi o id i) (mine id i) (k r) Q y) :
    wp (myApi o id i) (mine id i) (.call c k) Q x :=
  wp_own P hP stable (fun _ _ _ _ _ _ h => by simp [hp] at h)
    fun x r y hx _ hstep => h r y (keep x r y hx hstep) (hstep.cluster hc).2

theorem puts_of_kind {c : Call} {key : Key} (hk : key.kind = .secret)
    (hc : ∀ k, c.puts k → k = key) : c.puts (serverKey id) = false := by
  refine Bool.eq_false_iff.mpr fun h => ?_
  exact @serverKey_kind id (hc _ h ▸ hk)

/-- Writing a Secret succeeds, and the request goes on holding the row. -/
theorem wp_upsertSecret {key : Key} {body : Resource} {row : Server}
    (hk : key.kind = .secret) (hx : Holds i row x) :
    wp (myApi o id i) (mine id i) (upsert key body).run
      (fun r y => r = .ok () ∧ Holds i row y) x := by
  have stable : ∀ x y, Holds i row x → (mine id i).rely x y → Holds i row y :=
    fun _ _ => Holds.stable
  have done : ∀ y, Holds i row y → wp (myApi o id i) (mine id i) (.pure (.ok ()))
      (fun (r : Except Error Unit) y => r = .ok () ∧ Holds i row y) y :=
    fun y hy z hz => ⟨rfl, hy.stable hz⟩
  have keep : ∀ (c : Call), (∀ id', c ≠ .findServer id') → ∀ x r y, Holds i row x →
      GhostStep o id i c x r y → Holds i row y := by
    intro c hc x r y hx hstep
    rw [Holds, hstep.fetches]
    exact (congrFun (fetchLog_held_self hc) i).trans hx
  simp only [upsert, Async.run_bind, Async.run_attempt, await, Async.await, ExceptT.run_mk,
    Prog.lift_bind]
  refine wp_aside (Holds i row) hx stable rfl rfl (keep _ (by simp)) fun r y hy hr => ?_
  cases r with
  | error e =>
    have he : e.isNotFound = true := hr
    simp only [Prog.pure_bind, he, if_true, ExceptT.run_mk]
    refine wp_aside (Holds i row) hy stable rfl (puts_of_kind hk (by simp [Call.puts]))
      (keep _ (by simp)) fun r z hz hr => ?_
    cases r with
    | error e => exact absurd hr Bool.false_ne_true
    | ok _ => exact done z hz
  | ok existing =>
    simp only [Prog.pure_bind, Async.run_bind, Async.run_attempt, ExceptT.run_mk, Prog.lift_bind]
    refine wp_aside (Holds i row) hy stable rfl (puts_of_kind hk (by simp [Call.puts]))
      (keep _ (by simp)) fun r z hz hr => ?_
    cases r with
    | error e => exact absurd hr Bool.false_ne_true
    | ok _ => exact done z hz

/-- The request has fetched the version and not changed the row since. -/
structure Fetched (o : OperatorResourceSync) (i : Fin n) (row : Server) (v : Option Nat)
    (x : Ghostly n) : Prop where
  seen : x.2.seen i = some v
  unsynced : i ∉ x.2.unsynced
  fetched : x.2.last = some i → x.1.2.fetched = some (projection o row)

theorem Fetched.stable {row : Server} {v : Option Nat} {x y : Ghostly n}
    (h : Fetched o i row v x) (hr : (mine id i).rely x y) : Fetched o i row v y where
  seen := hr.seen.trans h.seen
  unsynced hi := h.unsynced (hr.unsynced hi)
  fetched hl := by
    obtain ⟨hx, hf, -⟩ := hr.last hl
    exact hf.trans (h.fetched hx)

/-- The request is done: what it fetched last has been written, or it failed in the
database before it fetched anything. -/
structure WroteLast (id : String) (i : Fin n) (x : Ghostly n) : Prop where
  unsynced : x.1.2.failed = false → i ∉ x.2.unsynced
  landed : x.2.last = some i → Landed id x

theorem WroteLast.stable {x y : Ghostly n} (h : WroteLast id i x) (hr : (mine id i).rely x y) :
    WroteLast id i y where
  unsynced hf hi := by
    have hx : x.1.2.failed = false := by
      rw [← Bool.not_eq_true] at hf ⊢
      exact fun hx => hf (hr.failed hx)
    exact h.unsynced hx (hr.unsynced hi)
  landed hl := by
    obtain ⟨hx, -, hL⟩ := hr.last hl
    exact hL (h.landed hx)

theorem Queried.wroteLast {β : Type} {e : Error} {x : Ghostly n}
    (h : Queried i (.error e : Except Error β) x) : WroteLast id i x where
  unsynced hf := absurd (h.failed e rfl) (by simp [hf])
  landed hl := absurd hl h.before

theorem wp_queryFailed {β γ : Type} {e : Error} {x : Ghostly n}
    (h : Queried i (.error e : Except Error β) x) :
    wp (myApi o id i) (mine id i) (.pure (.error e : Except Error γ))
      (fun _ => WroteLast id i) x :=
  fun _ hu => (h.stable hu).wroteLast

theorem GhostStep.fetched_read {row : Server} {y : Ghostly n}
    {r : Settled Error Answer (.read (serverKey id))}
    (h : GhostStep o id i (.read (serverKey id)) x r y) (hx : Holds i row x) :
    Fetched o i row (versionOf id x.1.1) y := by
  have hg := h.ghost
  simp only [ghostLog, Call.fetches, decide_true, if_true] at hg
  refine ⟨?_, ?_, fun _ => ?_⟩
  · rw [hg]
    exact Function.update_self _ _ _
  · rw [hg]
    exact fun h => h
  · rw [h.fetches]
    simp only [fetchLog, Call.fetches, decide_true, if_true]
    exact congrArg (Option.map (projection o)) hx

/-- A write at the version that was fetched. -/
theorem wp_put_current {α : Type} {row : Server} {v : Option Nat} {body : Resource}
    {k : Settled Error Answer c → Prog Call (Settled Error Answer) α}
    {Q : α → Ghostly n → Prop} (hspec : body.spec? = some (projection o row))
    (hx : Fetched o i row v x) (hc : c.puts (serverKey id))
    (hput : ∀ s : State, succeeds c (handle c s).1 → versionOf id s = v ∧
      (handle c s).2.cluster = s.cluster.put (serverKey id) body)
    (h : ∀ r y, succeeds c r → WroteLast id i y →
      wp (myApi o id i) (mine id i) (k r) Q y) :
    wp (myApi o id i) (mine id i) (.call c k) Q x := by
  have hf : c.fetches (serverKey id) = false := by
    cases c <;> first | rfl | cases hc
  have written : ∀ {x : Ghostly n} {r y}, GhostStep o id i c x r y →
      versionOf id x.1.1 = v ∧ y.1.1.cluster = x.1.1.cluster.put (serverKey id) body := by
    intro x r y hstep
    obtain ⟨hc, hs⟩ := hstep.cluster (requestsCluster_of_puts hc)
    obtain ⟨hv, hbody⟩ := hput x.1.1 (by rwa [hc])
    rw [hc] at hbody
    exact ⟨hv, hbody⟩
  refine wp_own (Fetched o i row v) hx (fun _ _ => Fetched.stable) ?_ ?_
  · intro x r y hx hv hstep _
    exact hv.valid i v hx.seen (written hstep).1
  · intro x r y hx hv hstep
    refine h r y (hstep.cluster (requestsCluster_of_puts hc)).2 ?_
    have hg := hstep.ghost
    simp only [ghostLog, hf, hc, if_true, Bool.false_eq_true, if_false] at hg
    refine ⟨?_, fun hl => ⟨?_, ?_⟩⟩
    · rw [hg]
      exact fun _ => hx.unsynced
    · rw [hg]
    · rw [hg] at hl
      rw [hstep.fetched hf, hx.fetched hl, storedSpec, VersionedStore.value,
        (written hstep).2, VersionedStore.lookup_put]
      exact hspec

theorem wp_upsertResource {body : Resource} {row : Server}
    (hspec : body.spec? = some (projection o row)) (hx : Holds i row x) :
    wp (myApi o id i) (mine id i) (upsert (serverKey id) body).run
      (fun r y => r = .ok () ∧ WroteLast id i y) x := by
  have done : ∀ y, WroteLast id i y → wp (myApi o id i) (mine id i) (.pure (.ok ()))
      (fun (r : Except Error Unit) y => r = .ok () ∧ WroteLast id i y) y :=
    fun y hy z hz => ⟨rfl, hy.stable hz⟩
  simp only [upsert, Async.run_bind, Async.run_attempt, await, Async.await, ExceptT.run_mk,
    Prog.lift_bind]
  refine wp_own (Holds i row) hx (fun _ _ => Holds.stable)
    (fun _ _ _ _ _ _ h => by cases h) fun x r y hx _ hstep => ?_
  have hy := hstep.fetched_read hx
  have hanswer : r = (handle (.read (serverKey id)) x.1.1).1 :=
    (congrArg Prod.fst (hstep.cluster rfl).1).symm
  clear hstep
  cases ho : x.1.1.cluster.lookup (serverKey id) with
  | none =>
    rw [handle_read_none ho] at hanswer
    subst hanswer
    simp only [versionOf, ho, Option.map_none] at hy
    simp only [Prog.pure_bind]
    refine wp_put_current hspec hy (by simp [Call.puts]) (fun s => create_succeeds)
      fun r z hr hz => ?_
    cases r with
    | error e => exact absurd hr Bool.false_ne_true
    | ok _ => exact done z hz
  | some existing =>
    rw [handle_read_some ho] at hanswer
    subst hanswer
    simp only [versionOf, ho, Option.map_some] at hy
    simp only [Prog.pure_bind, Async.run_bind, Async.run_attempt, ExceptT.run_mk, Prog.lift_bind]
    refine wp_put_current hspec hy (by simp [Call.puts]) (fun s => replace_succeeds)
      fun r z hr hz => ?_
    cases r with
    | error e => exact absurd hr Bool.false_ne_true
    | ok _ => exact done z hz

theorem wp_deleteLegacy {key : Key} (hx : WroteLast id i x) :
    wp (myApi o id i) (mine id i) (deleteObject key).run (fun _ => WroteLast id i) x := by
  have done : ∀ (r : Except Error Unit) y, WroteLast id i y →
      wp (myApi o id i) (mine id i) (.pure r) (fun _ => WroteLast id i) y :=
    fun r y hy z hz => hy.stable hz
  simp only [deleteObject, Async.run_bind, Async.run_attempt, await, Async.await,
    ExceptT.run_mk, Prog.lift_bind, Prog.call_bind]
  refine wp_aside (WroteLast id i) hx (fun _ _ => WroteLast.stable) rfl rfl ?_
    fun r y hy _ => ?_
  · intro x r y hx hstep
    have hg : y.2 = x.2 := hstep.ghost
    have hf : y.1.2.failed = x.1.2.failed := by
      rw [hstep.fetches]
      exact Bool.or_false _
    refine ⟨by rw [hg, hf]; exact hx.unsynced, fun hl => ⟨?_, ?_⟩⟩
    · rw [hg] at hl ⊢
      exact (hx.landed hl).1
    · rw [hg] at hl
      rw [hstep.stored rfl, hstep.fetched rfl]
      exact (hx.landed hl).2
  · cases r with
    | ok _ => exact done _ y hy
    | error e =>
      simp only [Prog.pure_bind]
      split_ifs <;> exact done _ y hy

theorem wp_syncServer {row : Server} (hc : o.clients = true) (hid : resourceIdAccepted id)
    (hrow : row.id = id) (hx : Holds i row x) :
    wp (myApi o id i) (mine id i) (o.syncServer row).run (fun _ => WroteLast id i) x := by
  subst hrow
  rw [syncServer, run_syncRow (r := o.serverRow row) hc hid]
  refine wp_async_bind (wp_mono (wp_upsertSecret rfl hx) ?_)
  rintro r y ⟨rfl, hy⟩
  have hspec : ((o.serverRow row).resource (o.serverRow row).labels).spec? =
      some (projection o row) := rfl
  refine wp_async_bind (wp_mono (wp_upsertResource hspec hy) ?_)
  rintro r z ⟨rfl, hz⟩
  exact wp_deleteLegacy hz

theorem wp_syncServerById (hc : o.clients = true) (hid : resourceIdAccepted id)
    (hx : x.2.last ≠ some i) :
    wp (myApi o id i) (mine id i) (o.syncServerById id).run (fun _ => WroteLast id i) x := by
  unfold syncServerById
  rw [if_pos hc]
  refine wp_async_bind (wp_mono (wp_findServer hx) ?_)
  rintro (e | a) y ⟨hq, hrow⟩
  · exact wp_queryFailed hq
  · obtain ⟨row, rfl, hid', hy⟩ := hrow a rfl
    exact wp_syncServer hc hid hid' hy

theorem wp_publish (hc : o.clients = true) (hid : resourceIdAccepted id)
    (hx : x.2.last ≠ some i) :
    wp (myApi o id i) (mine id i) (publish (o.syncServerById id)).run
      (fun _ => WroteLast id i) x := by
  refine wp_async_bind (wp_map.mpr (wp_mono (wp_syncServerById hc hid hx) ?_))
  exact fun _ y hy z hz => hy.stable hz

/-- The two writes are not one transaction: the second may fail when the first has been
committed. -/
theorem wp_replaceEnvVariables {vars : List EnvVariable} (hx : x.2.last ≠ some i) :
    wp (myApi o id i) (mine id i) (PrismaServerRepository.replaceEnvVariables id vars).run
      (Queried i) x := by
  refine wp_async_bind (wp_mono (wp_query rfl hx) ?_)
  rintro (e | _) y hy
  · exact fun _ hu => ⟨(hy.stable hu).before, (hy.stable hu).failed⟩
  dsimp only
  split_ifs
  · exact wp_query rfl hy.before
  · exact fun _ hu => ⟨(hy.stable hu).before, nofun⟩

theorem wp_update {input : UpdateServerInput} (hx : x.2.last ≠ some i) :
    wp (myApi o id i) (mine id i) (PrismaServerRepository.update id input).run (Queried i) x := by
  refine wp_async_bind (wp_mono (wp_findServer hx) ?_)
  rintro (e | a) y ⟨hy, hrow⟩
  · exact fun _ hu => ⟨(hy.stable hu).before, fun _ _ => (hy.stable hu).failed e rfl⟩
  obtain ⟨row, rfl, -, -⟩ := hrow a rfl
  dsimp only
  cases input.envVariables with
  | none => exact wp_query rfl hy.before
  | some vars =>
    refine wp_async_bind (wp_mono (wp_replaceEnvVariables hy.before) ?_)
    rintro (e | _) z hz
    · exact fun _ hu => ⟨(hz.stable hu).before, fun _ _ => (hz.stable hu).failed e rfl⟩
    · exact wp_query rfl hz.before

/-- Every request ends having written what it fetched, unless another fetched after it. -/
theorem wp_updateRequest (hc : o.clients = true) (hid : resourceIdAccepted id)
    (req : UpdateRequest) (hx : x.2.last ≠ some i) :
    wp (myApi o id i) (mine id i) (req.run o id) (fun _ => WroteLast id i) x := by
  cases req with
  | update input =>
    refine wp_map.mpr (wp_async_bind (wp_mono (wp_update hx) ?_))
    rintro (e | row) y hy
    · exact wp_queryFailed hy
    refine wp_async_bind (wp_mono (wp_publish hc hid hy.before) fun r z hz => ?_)
    cases r <;> exact fun _ hu => hz.stable hu
  | setEnv key value =>
    refine wp_map.mpr (wp_async_bind (wp_mono (wp_query rfl hx) ?_))
    rintro (e | _) y hy
    · exact wp_queryFailed hy
    · exact wp_publish hc hid hy.before
  | deleteEnv key =>
    refine wp_map.mpr (wp_async_bind (wp_mono (wp_query rfl hx) ?_))
    rintro (e | _) y hy
    · exact wp_queryFailed hy
    · exact wp_publish hc hid hy.before

end Request

/-! ## All requests -/

theorem only_replaceEnvVariables {vars : List EnvVariable} :
    (PrismaServerRepository.replaceEnvVariables id vars).run.Only Harmless := by
  refine Async.only_bind (Async.only_await trivial) fun _ => ?_
  split_ifs
  · exact Async.only_await trivial
  · trivial

theorem only_update {input : UpdateServerInput} :
    (PrismaServerRepository.update id input).run.Only Harmless := by
  refine Async.only_bind (Async.only_await trivial) fun row => ?_
  cases row with
  | none => trivial
  | some _ =>
    cases input.envVariables with
    | none => exact Async.only_await trivial
    | some vars =>
      exact Async.only_bind only_replaceEnvVariables fun _ => Async.only_await trivial

theorem only_updateRequest (req : UpdateRequest) : (req.run o id).Only Harmless := by
  have sync : (publish (o.syncServerById id)).run.Only Harmless :=
    only_publish (only_syncServerById id)
  cases req with
  | update input =>
    refine Prog.Only.bind (Async.only_bind only_update fun _ => ?_) fun _ => trivial
    exact Async.only_bind sync fun _ => trivial
  | setEnv key value =>
    exact .bind (Async.only_bind (Async.only_await trivial) fun _ => sync) fun _ => trivial
  | deleteEnv key =>
    exact .bind (Async.only_bind (Async.only_await trivial) fun _ => sync) fun _ => trivial

theorem only_updates (req : Fin n → UpdateRequest) :
    (updates o id req).Only fun x => Harmless x.2 := by
  refine .allSettled fun p hp => ?_
  obtain ⟨i, -, rfl⟩ := List.mem_map.mp hp
  exact (only_updateRequest _).tag i

/-- What the requests leave when all have finished. -/
theorem wp_updates {req : Fin n → UpdateRequest} {x : Ghostly n} (hc : o.clients = true)
    (hid : resourceIdAccepted id) (hlast : x.2.last = none) (hx : Landed id x) :
    wp (ghostApi o id n) (.alone fun _ x y => Keeps id none x y) (updates o id req)
      (fun _ y => (∀ i, WroteLast id i y) ∧ (y.2.last = none → Landed id y)) x := by
  have before : ∀ i : Fin n, x.2.last ≠ some i := fun i hl => by simp [hlast] at hl
  have each := wp_allSettled_forall (H := ghostApi o id n) (K := requesting id)
    (p := fun i => ((req i).run o id).tag i) (P := fun _ => True) (Q := WroteLast id)
    (l := List.finRange n) (s := x)
    ((List.nodup_finRange n).imp requesting_compatible) fun i _ => wp_tag.mpr
      (wp_mono (wp_updateRequest hc hid (req i) (before i)) fun _ _ h => ⟨trivial, h⟩)
  have alone : (Contract.all (requesting id) (List.finRange n)).Refines
      (.alone fun _ x y => Keeps id none x y) :=
    ⟨fun s t h => h ▸ (Contract.all (requesting id) (List.finRange n)).refl s,
      fun _ _ _ ⟨_, _, h⟩ => h.2⟩
  refine wp_mono (wp_stable (I := fun y => y.2.last = none → Landed id y) ?_ ?_
    (wp_refines each alone) fun _ => hx) fun _ y h => ⟨fun i => h.1.2 i (List.mem_finRange i), h.2⟩
  · exact fun _ _ hI h => h ▸ hI
  · intro _ y z hI h hz
    obtain ⟨hy, -, hL⟩ := h hz
    exact hL (hI hy)

theorem versions_start {s : State} (h : (s.db.findServer id).isSome) :
    Versions o id (((s, .start o id s), .start) : Ghostly n) :=
  ⟨nofun, nofun, rfl, fun _ => rfl, h⟩

/-- When all requests have finished, the custom resource agrees with the row exactly
when the row held by the last request to fetch the resource version agrees with the row
in the database at that moment or, if it has been written since, after the last write.
Only a request that then fails in the database can have written it. -/
theorem updates_in_sync_iff {req : Fin n → UpdateRequest} {s s' : State} {f : Fetches n}
    {us : List Unit} (hc : o.clients = true) (hid : resourceIdAccepted id)
    (hrow : (s.db.findServer id).isSome)
    (run : Steps (watchedApi o id n) Quiet (updates o id req, (s, .start o id s))
      (.pure us, (s', f))) :
    (storedSpec id s' = rowSpec o id s' ↔ f.fetched = f.latest) ∧
      (f.failed = false → f.latest = f.current) := by
  obtain ⟨g, run⟩ := Steps.observe (ghostLog id) run .start
  have run := (Steps.only (only_updates req) run).2
  have hEnv : ∀ x y : Ghostly n, Versions o id x → envObserved Quiet x y → Versions o id y :=
    fun _ _ _ h => h.1.elim
  have hstep := fun c x r y => @versions_step o id n c x y r
  have hv : Versions o id ((s', f), g) := Steps.invariant hstep hEnv run (versions_start hrow)
  have run := Steps.strengthen hstep hEnv run (versions_start hrow)
  obtain ⟨hdone, hnone⟩ := wp_result (wp_updates hc hid rfl ⟨rfl, rfl⟩)
    (fun _ _ h => h.1.elim) run
  have hlanded : Landed id ((s', f), g) := by
    cases hl : g.last with
    | none => exact hnone hl
    | some i => exact (hdone i).landed hl
  refine ⟨?_, fun hf => ?_⟩
  · rw [show storedSpec id s' = f.fetched from hlanded.2,
      show rowSpec o id s' = f.latest from hv.row]
  · have hunsynced : g.unsynced = ∅ :=
      Set.eq_empty_of_forall_notMem fun i => (hdone i).unsynced hf
    exact hv.synced hunsynced

/-! ## Runs -/

/-- The answers of `handle`, with the record; requests to the cluster have to succeed. -/
def watchingly (o : OperatorResourceSync) (id : String) (x : Fin n × Call)
    (y : State × Fetches n) : Option (Settled Error Answer x.2 × (State × Fetches n)) :=
  let answer := handle x.2 y.1
  if !x.2.requestsCluster || succeeds x.2 answer.1 then
    some (answer.1, answer.2, fetchLog o id x y.1 answer.1 answer.2 y.2)
  else none

theorem watchedApi_of_watchingly (x : Fin n × Call) (y : State × Fetches n)
    (r : Settled Error Answer x.2) (y' : State × Fetches n)
    (h : watchingly o id x y = some (r, y')) : watchedApi o id n x y r y' := by
  simp only [watchingly] at h
  split_ifs at h with hs
  cases h
  refine ⟨⟨.inl rfl, fun hc => ⟨rfl, ?_⟩⟩, rfl⟩
  simpa [hc] using hs

def loneServer : State :=
  .idle
    { servers := [.ofInput { id := "x", listenPort := 25565, type := .stateful } "key"]
      proxies := []
      serverKeys := by decide
      proxyKeys := List.nodup_nil }
    .empty

def setMotd (motd : String) : UpdateRequest := .update { motd := some motd }

def twoUpdates : Fin 2 → UpdateRequest :=
  fun i => setMotd (if i = 0 then "first" else "second")

/-- The first request reads its row back, the second one runs, the first one goes on. -/
def staleRead : List Turn :=
  (List.replicate 3 [.left, .go]).flatten ++ (List.replicate 8 [.right, .go]).flatten ++
    List.replicate 5 .go

def afterStaleRead : Prog (Fin 2 × Call) (fun x => Settled Error Answer x.2) (List Unit) ×
    (State × Fetches 2) :=
  (updates {} "x" twoUpdates).runTurns (watchingly {} "x") staleRead
    (loneServer, .start {} "x" loneServer)

theorem steps_afterStaleRead {Env : State × Fetches 2 → State × Fetches 2 → Prop} :
    Steps (watchedApi {} "x" 2) Env (updates {} "x" twoUpdates,
      (loneServer, .start {} "x" loneServer)) (.pure [(), ()], afterStaleRead.2) :=
  steps_result watchedApi_of_watchingly (by decide)

/-- The first request sets a variable and synchronizes; the second one deletes the
variables and fails to create the same one twice. -/
def sameKeyTwice : Fin 2 → UpdateRequest :=
  fun i => if i = 0 then .setEnv "A" "1" else
    .update { envVariables := some [⟨"A", "1"⟩, ⟨"A", "2"⟩] }

def afterSameKeyTwice : Prog (Fin 2 × Call) (fun x => Settled Error Answer x.2) (List Unit) ×
    (State × Fetches 2) :=
  (updates {} "x" sameKeyTwice).runTurns (watchingly {} "x")
    ((List.replicate 7 [.left, .go]).flatten ++ List.replicate 9 .go)
    (loneServer, .start {} "x" loneServer)

theorem steps_afterSameKeyTwice {Env : State × Fetches 2 → State × Fetches 2 → Prop} :
    Steps (watchedApi {} "x" 2) Env (updates {} "x" sameKeyTwice,
      (loneServer, .start {} "x" loneServer)) (.pure [(), ()], afterSameKeyTwice.2) :=
  steps_result watchedApi_of_watchingly (by decide)

/-- A stale read with no failure, and a failure with no stale read. -/
theorem updates_in_sync_iff_twoRuns :
    ((storedSpec "x" afterStaleRead.2.1 = rowSpec {} "x" afterStaleRead.2.1 ↔
        afterStaleRead.2.2.fetched = afterStaleRead.2.2.latest) ∧
      (afterStaleRead.2.2.failed = false →
        afterStaleRead.2.2.latest = afterStaleRead.2.2.current)) ∧
    ((storedSpec "x" afterSameKeyTwice.2.1 = rowSpec {} "x" afterSameKeyTwice.2.1 ↔
        afterSameKeyTwice.2.2.fetched = afterSameKeyTwice.2.2.latest) ∧
      (afterSameKeyTwice.2.2.failed = false →
        afterSameKeyTwice.2.2.latest = afterSameKeyTwice.2.2.current)) :=
  ⟨updates_in_sync_iff rfl (by decide) (by decide) steps_afterStaleRead,
    updates_in_sync_iff rfl (by decide) (by decide) steps_afterSameKeyTwice⟩

def motd? (spec : Option Json) : Option String := do
  (← (← (← spec).get? "properties").get? "motd").str?

/-- A request that read its row before another wrote it may fetch the version after
that other has synchronized, and put the older row in the place of the newer one. -/
theorem updates_lose_motd :
    ¬∀ (n : Nat) (o : OperatorResourceSync) (id : String) (req : Fin n → UpdateRequest)
      (s s' : State) (us : List Unit), o.clients = true → resourceIdAccepted id →
      (s.db.findServer id).isSome →
      Steps (Handler.tagged (Fin n) willingApi) Quiet (updates o id req, s) (.pure us, s') →
      storedSpec id s' = rowSpec o id s' := by
  intro h
  have stale := h 2 {} "x" twoUpdates loneServer _ _ rfl (by decide) (by decide)
    (Steps.forget steps_afterStaleRead)
  exact absurd (congrArg motd? stale) (by decide)

end Minikura.Backend
