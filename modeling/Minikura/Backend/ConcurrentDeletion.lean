import Minikura.Backend.Ownership
import Minikura.Concurrency.Observation

/-!
# Upserts and deletions

An upsert reads an object, replaces it at the version it read, and creates it where either
request finds nothing. Others may write the object between its requests. When they delete it
after it was read, the body still names the version read, with which nothing can be created.

## Main definitions

* `SurvivesDeletion` — no create names a version, and only a conflict makes the upsert fail.
* `foundApi` — the requests of an upsert whose replacement finds its object.

## Main results

* `upsert_survives_deletion` — what holds of the runs with these requests.
* `upsert_of_deleted` — what the other runs come to.
-/

namespace Minikura.Backend
open Concurrency OperatorResourceSync

abbrev UpsertProg := Prog Call (Settled Error Answer) (Except Error Unit)

def Error.isConflict (e : Error) : Prop := e.code = some 409

/-- For every run, in which the others do anything between the calls: no create names a
version. After the last call either a conflict was met, or the object has its content. -/
structure SurvivesDeletion (H : Handler Call (Settled Error Answer) State)
    (Env : State → State → Prop) (p : UpsertProg) (key : Key) (body : Resource) (s : State) :
    Prop where
  creates : ∀ t key' version body' k,
    Steps H Env (p, s) (.call (.create key' version body') k, t) → version = none
  outcome : ∀ t c k r t' a, Steps H Env (p, s) (.call c k, t) → H c t r t' → k r = .pure a →
    (∃ e, a = .error e ∧ e.isConflict) ∨ a = .ok () ∧ t'.cluster.value key = some body

/-- The requests of an upsert, if its replacement finds the object. -/
def foundApi (key : Key) : Handler Call (Settled Error Answer) State :=
  Handler.restrict api fun c s _ _ =>
    ∀ version body, c = .replace key version body → (s.cluster.lookup key).isSome

section Upsert

variable {key : Key} {body : Resource} {Env : State → State → Prop} {s t : State}

/-! ## The parts of an upsert -/

def creating (key : Key) (version : Option Nat) (body : Resource) : UpsertProg :=
  .call (.create key version body) .pure

def replacing (key : Key) (v : Nat) (body : Resource) : UpsertProg :=
  .call (.replace key (some v) body) fun
    | .ok _ => .pure (.ok ())
    | .error e => if e.isNotFound then creating key (some v) body else .pure (.error e)

theorem run_handler (e : Error) (version : Option Nat) :
    (if e.isNotFound then await (.create key version body) else throw e : Task Unit).run =
      if e.isNotFound then creating key version body else .pure (.error e) := by
  split_ifs <;> rfl

theorem run_upsert : (upsert key body).run = .call (.read key) fun
    | .ok existing => replacing key existing.version body
    | .error e => if e.isNotFound then creating key none body else .pure (.error e) := by
  refine congrArg (Prog.call _) (funext fun r => ?_)
  cases r with
  | error e => exact run_handler e none
  | ok existing =>
    refine congrArg (Prog.call _) (funext fun r => ?_)
    cases r with
    | ok _ => rfl
    | error e => exact run_handler e (some existing.version)

/-! ## What the requests answer -/

theorem read_error {e : Error} (h : handle (.read key) s = (.error e, t)) :
    e = .ofRefusal .notFound := by
  cases hkey : s.cluster.lookup key with
  | none => exact (Except.error.inj (congrArg Prod.fst ((handle_read_none hkey).symm.trans h))).symm
  | some o => cases congrArg Prod.fst ((handle_read_some hkey).symm.trans h)

/-- A replacement that finds its object takes place, or meets a conflict. -/
theorem replace_found {v : Nat} {r : Except Error Unit}
    (h : s.request (s.cluster.replace key (some v) body) = (r, t))
    (hfound : (s.cluster.lookup key).isSome) :
    r = .ok () ∧ t.cluster.value key = some body ∨ r = .error (.ofRefusal .conflict) := by
  obtain ⟨o, ho⟩ := Option.isSome_iff_exists.mp hfound
  simp only [VersionedStore.replace, ho] at h
  split_ifs at h <;> cases h
  · exact .inl ⟨rfl, by simp [VersionedStore.value]⟩
  · exact .inr rfl

theorem create_answered {a : Except Error Unit}
    (h : s.request (s.cluster.create key none body) = (a, t)) :
    (∃ e, a = .error e ∧ e.isConflict) ∨ a = .ok () ∧ t.cluster.value key = some body := by
  unfold VersionedStore.create at h
  split_ifs at h with hsome habsent
  · cases hsome
  · cases h
    exact .inl ⟨_, rfl, rfl⟩
  · cases h
    exact .inr ⟨rfl, by simp [VersionedStore.value]⟩

/-! ## Runs -/

/-- How far an upsert is that finds what it replaces. -/
inductive UpsertStage (key : Key) (body : Resource) : UpsertProg → Prop where
  | reading : UpsertStage key body (upsert key body).run
  | replacing (v : Nat) : UpsertStage key body (replacing key v body)
  | creating : UpsertStage key body (creating key none body)
  | done (a : Except Error Unit) : UpsertStage key body (.pure a)

/-- A call of an upsert leads to its next part, or to an end with an outcome as it should
be. -/
theorem UpsertStage.call {c : Call} {k : Settled Error Answer c → UpsertProg}
    (h : UpsertStage key body (.call c k)) {r : Settled Error Answer c}
    (hr : foundApi key c s r t) : UpsertStage key body (k r) ∧
      ∀ a, k r = .pure a → (∃ e, a = .error e ∧ e.isConflict) ∨
        a = .ok () ∧ t.cluster.value key = some body := by
  obtain ⟨hr, hfound⟩ := hr
  generalize hp : Prog.call c k = p at h
  cases h with
  | reading =>
    rw [run_upsert] at hp
    cases hp
    cases r with
    | ok existing => exact ⟨.replacing _, fun a ha => by cases ha⟩
    | error e =>
      obtain rfl := read_error hr
      exact ⟨.creating, fun a ha => by cases ha⟩
  | replacing v =>
    cases hp
    rcases replace_found hr (hfound _ _ rfl) with ⟨rfl, hvalue⟩ | rfl
    · exact ⟨.done _, fun a ha => .inr ⟨by cases ha; rfl, hvalue⟩⟩
    · exact ⟨.done _, fun a ha => .inl ⟨.ofRefusal .conflict, by cases ha; rfl, rfl⟩⟩
  | creating =>
    cases hp
    exact ⟨.done _, fun a ha => by cases ha; exact create_answered hr⟩
  | done a => cases hp

theorem upsertStage_of_steps {p : UpsertProg}
    (h : Steps (foundApi key) Env ((upsert key body).run, s) (p, t)) : UpsertStage key body p := by
  generalize hx : (p, t) = x at h
  induction h generalizing p t with
  | refl =>
    cases hx
    exact .reading
  | @tail y _ _ hyx ih =>
    have hy : UpsertStage key body y.1 := ih rfl
    cases hyx with
    | call hc =>
      cases hx
      exact (UpsertStage.call hy hc).1
    | left => cases hx; exact nomatch hy
    | right => cases hx; exact nomatch hy
    | env _ =>
      cases hx
      exact hy

theorem UpsertStage.version {key' : Key} {version : Option Nat} {body' : Resource}
    {k : Settled Error Answer (Call.create key' version body') → UpsertProg}
    (h : UpsertStage key body (.call (.create key' version body') k)) : version = none := by
  generalize hp : Prog.call (Call.create key' version body') k = p at h
  cases h with
  | reading =>
    rw [run_upsert] at hp
    cases hp
  | replacing v => cases hp
  | creating =>
    cases hp
    rfl
  | done a => cases hp

theorem survives_upsert :
    SurvivesDeletion (foundApi key) Env (upsert key body).run key body s where
  creates _ _ _ _ _ run := (upsertStage_of_steps run).version
  outcome _ _ _ _ _ a run hc ha := (UpsertStage.call (upsertStage_of_steps run) hc).2 a ha

/-- A program that makes no call. -/
theorem survives_pure {H : Handler Call (Settled Error Answer) State} {a : Except Error Unit} :
    SurvivesDeletion H Env (.pure a) key body s := by
  have nocall : ∀ {t c} {k : Settled Error Answer c → UpsertProg},
      ¬Steps H Env (.pure a, s) (.call c k, t) := by
    intro t c k run
    have honly : (.pure a : UpsertProg).Only fun _ => False := trivial
    exact (Steps.only honly run).1.1
  exact ⟨fun _ _ _ _ _ run => (nocall run).elim, fun _ _ _ _ _ _ run => (nocall run).elim⟩

theorem steps_read {o : Versioned Resource} (h : s.cluster.lookup key = some o) :
    Steps api Env ((upsert key body).run, s) (replacing key o.version body, s) :=
  .single (.of_call (handle_read_some h) run_upsert rfl)

/-- An object that is gone when it is to be replaced is created with the version read. -/
theorem not_survives_of_deleted {v : Nat}
    (run : Steps api Env ((upsert key body).run, s) (replacing key v body, t))
    (hgone : t.cluster.lookup key = none) :
    ¬SurvivesDeletion api Env (upsert key body).run key body s := by
  intro h
  have hreplace : handle (.replace key (some v) body) t = (.error (.ofRefusal .notFound), t) := by
    simp [handle, State.request, VersionedStore.replace, hgone]
  have hcreate : Steps api Env ((upsert key body).run, s) (creating key (some v) body, t) :=
    run.tail (.of_call hreplace rfl rfl)
  cases h.creates _ _ _ _ _ hcreate

end Upsert

/-- Whatever others do between the calls: as long as a replacement finds its object, an upsert
creates nothing with a version, and it fails with a conflict only. -/
theorem upsert_survives_deletion (o : OperatorResourceSync) (plural : Kind) (name : String)
    (body : Resource) (Env : State → State → Prop) (s : State) :
    SurvivesDeletion (foundApi ⟨.secret, name⟩) Env (o.upsertSecret name body).run
        ⟨.secret, name⟩ body s ∧
      SurvivesDeletion (foundApi ⟨plural, name⟩) Env (o.upsertResource plural name body).run
        ⟨plural, name⟩ body s := by
  unfold upsertSecret upsertResource
  split_ifs
  · exact ⟨survives_upsert, survives_upsert⟩
  · exact ⟨survives_pure, survives_pure⟩

/-- Requests of others for an object. -/
inductive OthersWrite (key : Key) : State → State → Prop where
  | create (version : Option Nat) (body : Resource) (s : State) :
      OthersWrite key s (handle (.create key version body) s).2
  | replace (version : Option Nat) (body : Resource) (s : State) :
      OthersWrite key s (handle (.replace key version body) s).2
  | delete (s : State) : OthersWrite key s (handle (.delete key) s).2

def staleKey : Key := ⟨.secret, "mc-x-api-key"⟩

def staleSecret : Resource := ⟨[managedBy], .secret "Opaque" [("api-key", "old")]⟩

/-- A cluster with the Secret in it. -/
def withSecret : State := ⟨.empty, VersionedStore.empty.put staleKey staleSecret, false⟩

/-- A Secret that is deleted while it is being replaced is not created again. -/
theorem deletion_not_survived : ¬∀ (o : OperatorResourceSync) (name : String)
    (body : Resource) (s : State), SurvivesDeletion api (OthersWrite ⟨.secret, name⟩)
      (o.upsertSecret name body).run ⟨.secret, name⟩ body s := by
  intro h
  have hread : withSecret.cluster.lookup staleKey = some ⟨1, staleSecret⟩ :=
    VersionedStore.lookup_put ..
  refine not_survives_of_deleted (.tail (steps_read hread) (.env (.delete withSecret))) ?_
    (h {} staleKey.name staleSecret withSecret)
  exact VersionedStore.lookup_remove ..

end Minikura.Backend
