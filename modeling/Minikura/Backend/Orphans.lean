import Mathlib.Data.Set.Insert
import Minikura.Backend.Deletions
import Minikura.Backend.StaleDeletion
import Minikura.Concurrency.Duties

/-!
# Orphaned Secrets

A Secret is written before the custom resource of its row and deleted after it, and a stale
pass looks for custom resources only. A Secret with neither a row nor a resource that stays is
mended by nobody but the task that left it so. That task gives up when a request fails, and it
takes a resource that is being deleted for one that stays.

## Main definitions

* `Orphaned` — a Secret that no synchronization comes back for.
* `Spares` — a failure orphans no Secret, and it does not strike while one is attended to.
* `Fault`, `CarefulTask` — the faults a task has to mend, and a task that does.

## Main results

* `tidy_syncRow`, `mends_deleteResource` — what the tasks on one row leave behind.
* `careful_syncAll` — a synchronization mends the faults it causes.
-/

namespace Minikura.Backend
open Concurrency OperatorResourceSync

/-! ## Orphans -/

/-- The Secret of a row. -/
def secretOf (plural : Kind) (id : String) : Key := ⟨.secret, secretName plural id⟩

/-- A resource that is being deleted will not bring a synchronization back. -/
structure Orphaned (plural : Kind) (id : String) (s : Installation) : Prop where
  custom : plural ≠ .secret
  row : id ∉ s.db.names plural
  resource : ¬s.Live ⟨plural, id⟩
  secret : ∃ r, s.cluster.value (secretOf plural id) = some r ∧ r.managed

/-! ## Failures -/

def Action.requestsCluster : Action → Bool
  | .call c => c.requestsCluster
  | _ => false

/-- Requests to the cluster may fail, with their effect or without it; all other calls do
what they are asked. -/
abbrev unreliable : Handler Action (Settled Error Action.Answer) Installation :=
  (Handler.ofFun performForeground).lossy.restrict fun a s r s' =>
    a.requestsCluster ∨ performForeground a s = (r, s')

/-- A task may mend the Secret by the call: it looks for the resource, adds or deletes it, or
deletes the Secret. -/
def Action.Attends (plural : Kind) (id : String) : Action → Prop
  | .call (.read key) | .call (.create key _ _) => key = ⟨plural, id⟩
  | .call (.delete key) => key = ⟨plural, id⟩ ∨ key = secretOf plural id
  | _ => False

/-- The call looks for a resource that is being deleted, or adds one in its place. -/
def Action.MeetsDeletion (s : Installation) : Action → Prop
  | .call (.read key) | .call (.create key _ _) => key ∈ s.terminating
  | _ => False

/-- If a call fails or meets a deletion, the Secrets that are orphaned afterwards were so before,
and the call does not attend to them. -/
def Spares (a : Action) (s : Installation) (r : Settled Error Action.Answer a)
    (s' : Installation) : Prop :=
  (performForeground a s = (r, s') ∧ ¬a.MeetsDeletion s) ∨
    ∀ plural id, Orphaned plural id s' → Orphaned plural id s ∧ ¬a.Attends plural id

/-- The runs whose failures spare the Secrets. -/
abbrev sparing : Handler Action (Settled Error Action.Answer) Installation :=
  unreliable.restrict Spares

/-- The same, for the programs that make calls only. -/
abbrev sparingApi : Handler Call (Settled Error Answer) Installation :=
  sparing.through .call fun _ r => r

/-! ## Faults -/

inductive Fault where
  | syncing
  | orphan (plural : Kind) (id : String)

def Fault.In : Fault → Installation → Prop
  | .syncing, s => s.syncing = true
  | .orphan plural id, s => Orphaned plural id s

/-- The faults that the effect of a call can be. -/
def Call.causes : Call → Set Fault
  | .claimSync => {.syncing}
  | .create key _ _ | .replace key _ _ =>
    {f | ∃ plural id, f = .orphan plural id ∧ plural ≠ .secret ∧ key = secretOf plural id}
  | .delete key => {f | f = .orphan key.kind key.name ∧ key.kind ≠ .secret}
  | _ => ∅

theorem secretOf_injective {plural plural' : Kind} {id id' : String} (h : plural ≠ .secret)
    (h' : plural' ≠ .secret) (e : secretOf plural id = secretOf plural' id') :
    plural = plural' ∧ id = id' := by
  obtain ⟨hp, hid⟩ := secretName_injective (congrArg Key.name e)
  exact ⟨secretPrefix_injective h h' hp, hid⟩

/-- A write of a row's Secret can orphan this Secret and no other. -/
theorem causes_of_writes {c : Call} {plural : Kind} {id : String} {body : Resource}
    (hplural : plural ≠ .secret) (hc : c.Writes (secretOf plural id) body) :
    c.causes ⊆ {.orphan plural id} := by
  cases c with
  | replace key version b =>
    obtain ⟨rfl, -⟩ := hc
    rintro f ⟨plural', id', rfl, h, e⟩
    obtain ⟨rfl, rfl⟩ := secretOf_injective hplural h e
    exact rfl
  | create key version b =>
    obtain ⟨rfl, -⟩ := hc
    rintro f ⟨plural', id', rfl, h, e⟩
    obtain ⟨rfl, rfl⟩ := secretOf_injective hplural h e
    exact rfl
  | _ => exact hc.elim

/-- A write of a custom resource orphans nothing. -/
theorem causes_eq_empty_of_writes {c : Call} {key : Key} {body : Resource}
    (hkey : key.kind ≠ .secret) (hc : c.Writes key body) : c.causes = ∅ := by
  rw [Set.eq_empty_iff_forall_notMem]
  cases c with
  | replace k version b =>
    obtain ⟨rfl, -⟩ := hc
    rintro f ⟨plural, id, -, -, rfl⟩
    exact hkey rfl
  | create k version b =>
    obtain ⟨rfl, -⟩ := hc
    rintro f ⟨plural, id, -, -, rfl⟩
    exact hkey rfl
  | _ => exact hc.elim

theorem causes_delete_secret (name : String) : (Call.delete ⟨.secret, name⟩).causes = ∅ :=
  Set.eq_empty_iff_forall_notMem.mpr fun _ h => h.2 rfl

/-! ## What a call can do wrong -/

theorem names_subset_handle (c : Call) (s : State) (kind : Kind) :
    s.db.names kind ⊆ (handle c s).2.db.names kind := by
  rcases names_handle c s kind with h | ⟨row, -, -, h⟩ | ⟨row, -, -, h⟩ <;> rw [h]
  · exact List.Subset.refl _
  · exact List.subset_append_left _ _
  · exact List.subset_append_left _ _

theorem syncing_request (s : State) (r : Except Refusal Cluster) :
    (s.request r).2.syncing = s.syncing := by
  cases r <;> rfl

theorem syncing_updateServer (s : State) (id : String) (f : Server → Server) :
    (s.updateServer id f).2.syncing = s.syncing := by
  unfold State.updateServer
  split
  · rfl
  · split_ifs <;> rfl

theorem syncing_editServer (s : State) (id : String) (f : Server → Server) :
    (s.editServer id f).syncing = s.syncing := by
  unfold State.editServer
  split <;> rfl

theorem syncing_handle {c : Call} {s : State} (h : (handle c s).2.syncing = true) :
    s.syncing = true ∨ c = .claimSync := by
  cases c with
  | claimSync => exact .inr rfl
  | releaseSync => cases h
  | read key =>
    simp only [handle] at h
    cases hk : s.cluster.lookup key <;> rw [hk] at h <;> exact .inl h
  | replace key version body =>
    simp only [handle] at h
    split_ifs at h
    · exact .inl h
    · exact .inl (syncing_request s _ ▸ h)
  | create => exact .inl (syncing_request s _ ▸ h)
  | delete => exact .inl (syncing_request s _ ▸ h)
  | createServer =>
    simp only [handle] at h
    split_ifs at h <;> exact .inl h
  | createProxy =>
    simp only [handle] at h
    split_ifs at h <;> exact .inl h
  | updateServer => exact .inl (syncing_updateServer s _ _ ▸ h)
  | createEnvVariables => exact .inl (syncing_updateServer s _ _ ▸ h)
  | upsertEnvVariable => exact .inl (syncing_updateServer s _ _ ▸ h)
  | deleteEnvVariables => exact .inl (syncing_editServer s _ _ ▸ h)
  | deleteEnvVariable => exact .inl (syncing_editServer s _ _ ▸ h)
  | _ => exact .inl h

/-- A deletion of a custom resource that is there marks it, and every other call does what it
does without foreground deletion. -/
theorem performForeground_cases (c : Call) (s : Installation) :
    (∃ key, c = .delete key ∧ key.kind ≠ .secret ∧
      (∀ e, (performForeground (.call c) s).1 ≠ .error e) ∧
      (performForeground (.call c) s).2 = { s with terminating := key :: s.terminating }) ∨
    performForeground (.call c) s = s.withState (handle c s.toState) ∧
      ∀ key, c = .delete key → key.kind ≠ .secret → s.cluster.lookup key = none := by
  cases c with
  | delete key =>
    by_cases h : key.kind ≠ .secret ∧ (s.cluster.lookup key).isSome
    · have hmark : performForeground (.call (.delete key)) s =
          (.ok (), { s with terminating := key :: s.terminating }) := if_pos h
      exact .inl ⟨key, rfl, h.1, by simp [hmark], congrArg Prod.snd hmark⟩
    · refine .inr ⟨if_neg h, ?_⟩
      rintro _ ⟨⟩ hkind
      exact Option.not_isSome_iff_eq_none.mp fun hsome => h ⟨hkind, hsome⟩
  | _ => exact .inr ⟨rfl, fun _ h => by cases h⟩

theorem names_subset_foreground (c : Call) (s : Installation) (kind : Kind) :
    s.db.names kind ⊆ (performForeground (.call c) s).2.db.names kind := by
  rcases performForeground_cases c s with ⟨key, -, -, -, h⟩ | ⟨h, -⟩ <;> rw [h]
  · exact List.Subset.refl _
  · exact names_subset_handle c s.toState kind

theorem syncing_foreground {c : Call} {s : Installation}
    (h : (performForeground (.call c) s).2.syncing = true) :
    s.syncing = true ∨ c = .claimSync := by
  rcases performForeground_cases c s with ⟨key, -, -, -, hc⟩ | ⟨hc, -⟩ <;> rw [hc] at h
  · exact .inl h
  · exact syncing_handle h

/-- A resource is live until somebody deletes it. -/
theorem live_foreground {c : Call} {s : Installation} {key : Key} (hkey : key.kind ≠ .secret)
    (h : s.Live key) : (performForeground (.call c) s).2.Live key ∨ c = .delete key := by
  rcases performForeground_cases c s with ⟨k, rfl, -, -, hc⟩ | ⟨hc, hdelete⟩ <;> rw [hc]
  · by_cases hk : key = k
    · exact .inr (hk ▸ rfl)
    · exact .inl ⟨h.1, fun hmem => (List.mem_cons.mp hmem).elim hk h.2⟩
  · refine .inl ⟨?_, h.2⟩
    change ((handle c s.toState).2.cluster.lookup key).isSome
    rcases cluster_handle c s.toState with hc | ⟨k, body, -, hc⟩ | ⟨k, rfl, hc⟩ <;> rw [hc]
    · exact h.1
    · by_cases hk : key = k
      · subst hk
        simp
      · rw [VersionedStore.lookup_put_ne _ _ hk]
        exact h.1
    · have hk : key ≠ k := by
        rintro rfl
        have hsome := h.1
        rw [hdelete _ rfl hkey] at hsome
        cases hsome
      rw [VersionedStore.lookup_remove_ne _ hk]
      exact h.1

/-- A Secret is there because it was there, or because it is written. -/
theorem secret_foreground {c : Call} {s : Installation} {plural : Kind} {id : String}
    {r : Resource}
    (h : (performForeground (.call c) s).2.cluster.value (secretOf plural id) = some r) :
    s.cluster.value (secretOf plural id) = some r ∨ c.Writes (secretOf plural id) r := by
  rcases performForeground_cases c s with ⟨k, -, -, -, hc⟩ | ⟨hc, -⟩ <;> rw [hc] at h
  · exact .inl h
  · change (handle c s.toState).2.cluster.value _ = _ at h
    rcases cluster_handle c s.toState with hc | ⟨k, body, hw, hc⟩ | ⟨k, -, hc⟩ <;> rw [hc] at h
    · exact .inl h
    · by_cases hk : secretOf plural id = k
      · subst hk
        rw [VersionedStore.value, VersionedStore.lookup_put, Option.map_some] at h
        exact .inr (Option.some.inj h ▸ hw)
      · rw [VersionedStore.value, VersionedStore.lookup_put_ne _ _ hk] at h
        exact .inl h
    · by_cases hk : secretOf plural id = k
      · subst hk
        rw [VersionedStore.value, VersionedStore.lookup_remove] at h
        cases h
      · rw [VersionedStore.value, VersionedStore.lookup_remove_ne _ hk] at h
        exact .inl h

theorem orphaned_foreground {plural : Kind} {id : String} {c : Call} {s : Installation}
    (h : Orphaned plural id (performForeground (.call c) s).2) :
    Orphaned plural id s ∨ .orphan plural id ∈ c.causes := by
  have hrow : id ∉ s.db.names plural := fun hn => h.row (names_subset_foreground c s plural hn)
  by_cases hlive : s.Live ⟨plural, id⟩
  · have hdelete := (live_foreground h.custom hlive).resolve_left h.resource
    subst hdelete
    exact .inr ⟨rfl, h.custom⟩
  · obtain ⟨r, hr, hmanaged⟩ := h.secret
    refine (secret_foreground hr).imp (fun hr => ⟨h.custom, hrow, hlive, r, hr, hmanaged⟩)
      fun hw => ?_
    cases c with
    | replace => exact ⟨plural, id, rfl, h.custom, hw.1.symm⟩
    | create => exact ⟨plural, id, rfl, h.custom, hw.1.symm⟩
    | _ => exact hw.elim

theorem fault_foreground {f : Fault} {c : Call} {s : Installation}
    (h : f.In (performForeground (.call c) s).2) : f.In s ∨ f ∈ c.causes := by
  cases f with
  | syncing =>
    refine (syncing_foreground h).imp_right fun hc => ?_
    subst hc
    exact rfl
  | orphan plural id => exact orphaned_foreground h

/-- What the garbage collector removes was not live. -/
theorem live_collects {s s' : Installation} (h : Collects s s') (key : Key) :
    s'.Live key ↔ s.Live key := by
  obtain ⟨k, hk, rfl⟩ := h
  by_cases hkey : key = k
  · subst hkey
    simp [Installation.Live, hk]
  · simp [Installation.Live, VersionedStore.lookup_remove_ne _ hkey, hkey]

theorem value_collects {s s' : Installation} {key : Key} {r : Resource} (h : Collects s s')
    (hr : s'.cluster.value key = some r) : s.cluster.value key = some r := by
  obtain ⟨k, -, rfl⟩ := h
  by_cases hkey : key = k
  · subst hkey
    rw [VersionedStore.value, VersionedStore.lookup_remove] at hr
    cases hr
  · rwa [VersionedStore.value, VersionedStore.lookup_remove_ne _ hkey] at hr

theorem fault_collects (s s' : Installation) (f : Fault) (h : Collects s s') (hf : f.In s') :
    f.In s := by
  cases f with
  | syncing =>
    obtain ⟨k, -, rfl⟩ := h
    exact hf
  | orphan plural id =>
    obtain ⟨r, hr, hmanaged⟩ := hf.secret
    refine ⟨hf.custom, ?_, fun hlive => hf.resource ((live_collects h _).mpr hlive), r,
      value_collects h hr, hmanaged⟩
    obtain ⟨k, -, rfl⟩ := h
    exact hf.row

theorem request_error {s : State} {r : Except Refusal Cluster} {e : Error}
    (h : (s.request r).1 = .error e) : (s.request r).2 = s := by
  cases r with
  | ok c => cases h
  | error e => rfl

theorem updateServer_error {s : State} {id : String} {f : Server → Server} {e : Error}
    (h : (s.updateServer id f).1 = .error e) : (s.updateServer id f).2 = s := by
  unfold State.updateServer at h ⊢
  split at h
  · rfl
  · split_ifs at h ⊢
    rfl

theorem updateServer'_error {s : State} {id : String} {f : Server → Server} {e : Error}
    (h : (s.updateServer' id f).1 = .error e) : (s.updateServer' id f).2 = s := by
  cases hu : (s.updateServer id f).1 with
  | ok row =>
    simp only [State.updateServer', hu] at h
    cases h
  | error e' => exact updateServer_error hu

/-- A refused call changes nothing. -/
theorem handle_error {c : Call} {s : State} {e : Error} (h : (handle c s).1 = .error e) :
    (handle c s).2 = s := by
  cases c with
  | read key =>
    simp only [handle] at h ⊢
    cases hk : s.cluster.lookup key <;> rfl
  | replace key version body =>
    simp only [handle] at h ⊢
    split_ifs at h ⊢
    · rfl
    · exact request_error h
  | create => exact request_error h
  | delete => exact request_error h
  | createServer =>
    simp only [handle] at h ⊢
    split_ifs at h ⊢ <;> rfl
  | createProxy =>
    simp only [handle] at h ⊢
    split_ifs at h ⊢ <;> rfl
  | updateServer => exact updateServer_error h
  | createEnvVariables => exact updateServer'_error h
  | upsertEnvVariable => exact updateServer'_error h
  | _ => cases h

theorem performForeground_error {c : Call} {s : Installation} {e : Error}
    (h : (performForeground (.call c) s).1 = .error e) :
    (performForeground (.call c) s).2 = s := by
  rcases performForeground_cases c s with ⟨k, -, -, hok, -⟩ | ⟨hc, -⟩
  · exact absurd h (hok e)
  · rw [hc] at h ⊢
    rw [Installation.withState, handle_error h]

/-- A call is answered as it should be and meets no deletion, or it spares the Secrets. -/
theorem sparing_cases {c : Call} {s s' : Installation} {r : Settled Error Answer c}
    (h : sparingApi c s r s') :
    (performForeground (.call c) s = (r, s') ∧ ¬(Action.call c).MeetsDeletion s) ∨
      ∀ plural id, Orphaned plural id s' →
        Orphaned plural id s ∧ ¬(Action.call c).Attends plural id := by
  obtain ⟨a, ⟨-, hspares⟩, rfl⟩ := h
  exact hspares

/-- A call does what it is asked, or it is a request that fails. -/
theorem effect_of_sparing {c : Call} {s s' : Installation} {r : Settled Error Answer c}
    (h : sparingApi c s r s') : performForeground (.call c) s = (r, s') ∨
      (∃ e, r = .error e) ∧ (Action.call c).requestsCluster ∧
        (s' = s ∨ s' = (performForeground (.call c) s).2) := by
  obtain ⟨a, ⟨⟨hlossy, hcluster⟩, -⟩, rfl⟩ := h
  by_cases hanswer : performForeground (.call c) s = (a, s')
  · exact .inl hanswer
  · rcases hlossy with hanswer' | ⟨e, rfl, hs⟩
    · exact absurd hanswer' hanswer
    · refine .inr ⟨⟨e, rfl⟩, hcluster.resolve_right hanswer, hs.imp_right ?_⟩
      rintro ⟨r', hr'⟩
      exact (congrArg Prod.snd hr').symm

theorem fault_of_error {f : Fault} {c : Call} {s s' : Installation} {e : Error}
    (h : sparingApi c s (.error e) s') (hf : f.In s') : f.In s := by
  rcases effect_of_sparing h with hc | ⟨-, hcluster, heffect⟩
  · have hs : (performForeground (.call c) s).2 = s :=
      performForeground_error (congrArg Prod.fst hc)
    rw [hc] at hs
    exact hs ▸ hf
  · cases f with
    | orphan plural id =>
      rcases sparing_cases h with ⟨hc, -⟩ | hspares
      · have hs : (performForeground (.call c) s).2 = s :=
          performForeground_error (congrArg Prod.fst hc)
        rw [hc] at hs
        exact hs ▸ hf
      · exact (hspares plural id hf).1
    | syncing =>
      rcases heffect with rfl | rfl
      · exact hf
      · refine (syncing_foreground hf).resolve_right ?_
        rintro rfl
        cases hcluster

theorem fault_of_sparing {f : Fault} {c : Call} {s s' : Installation}
    {r : Settled Error Answer c} (h : sparingApi c s r s') (hf : f.In s') :
    f.In s ∨ f ∈ c.causes := by
  rcases effect_of_sparing h with hc | ⟨⟨e, rfl⟩, -⟩
  · rw [show s' = (performForeground (.call c) s).2 from (congrArg Prod.snd hc).symm] at hf
    exact fault_foreground hf
  · exact .inl (fault_of_error h hf)

/-! ## Objects -/

/-- What the backend keeps under a key. -/
structure Fits (key : Key) (r : Resource) : Prop where
  named : key.name ≠ ""
  managed : key.kind ≠ .secret → r.managed
  secret : key.kind = .secret → r.managed → ∃ plural id, plural ≠ .secret ∧
    resourceIdAccepted id ∧ key = secretOf plural id ∧
    r.labels.lookup "minikura.kirameki.cafe/database-id" = some id

/-- Every object is one the backend could have written, or a Secret of somebody else. -/
def Sound (s : State) : Prop := ∀ key r, s.cluster.value key = some r → Fits key r

def Call.Fits (c : Call) : Prop := ∀ key body, c.Writes key body → Backend.Fits key body

theorem sound_handle {c : Call} {s : State} (hc : c.Fits) (hs : Sound s) :
    Sound (handle c s).2 := by
  intro k r hr
  rcases cluster_handle c s with h | ⟨key, body, hw, h⟩ | ⟨key, rfl, h⟩ <;> rw [h] at hr
  · exact hs k r hr
  · by_cases hk : k = key
    · subst hk
      rw [VersionedStore.value, VersionedStore.lookup_put, Option.map_some] at hr
      exact Option.some.inj hr ▸ hc k body hw
    · rw [VersionedStore.value, VersionedStore.lookup_put_ne _ _ hk] at hr
      exact hs k r hr
  · by_cases hk : k = key
    · subst hk
      rw [VersionedStore.value, VersionedStore.lookup_remove] at hr
      cases hr
    · rw [VersionedStore.value, VersionedStore.lookup_remove_ne _ hk] at hr
      exact hs k r hr

theorem ne_empty_of_accepted {id : String} (h : resourceIdAccepted id) : id ≠ "" := by
  rintro rfl
  exact absurd h (by decide)

theorem fits_secret {r : Row} (hid : resourceIdAccepted r.id) :
    Fits r.secretKey (r.secret r.labels) where
  named hname := by
    have hl := congrArg String.toList hname
    simp [Row.secretKey, secretName] at hl
  managed h := absurd rfl h
  secret _ _ := ⟨r.plural, r.id, r.custom, hid, rfl, rfl⟩

theorem fits_resource {r : Row} (hid : resourceIdAccepted r.id) :
    Fits r.resourceKey (r.resource r.labels) where
  named := ne_empty_of_accepted hid
  managed _ := by simp [Resource.managed, Row.resource, Row.labels, managedBy]
  secret h := absurd h r.custom

/-! ## Tasks -/

section Tasks

variable {α : Type} {o : OperatorResourceSync} {plural : Kind} {id : String} {D : Set Fault}

theorem mends_await {c : Call} {k : Settled Error Answer c → Prog Call (Settled Error Answer) α}
    {Q : α → Set Fault}
    (hok : ∀ a, Mends sparingApi Fault.In (D ∪ c.causes) (k (.ok a)) Q)
    (herror : ∀ e, Mends sparingApi Fault.In D (k (.error e)) Q) :
    Mends sparingApi Fault.In D (.call c k) Q := by
  refine fun s r s' hc => ?_
  cases r with
  | ok a =>
    refine mends_mono (hok a) ?_ fun _ => subset_rfl
    rintro f ⟨hf, hD | hs⟩
    · exact .inl hD
    · exact .inr ((fault_of_sparing hc hf).resolve_left hs)
  | error e =>
    refine mends_mono (herror e) ?_ fun _ => subset_rfl
    rintro f ⟨hf, hD | hs⟩
    · exact hD
    · exact absurd (fault_of_error hc hf) hs

/-- A call that is over with a fault, except perhaps after some of its answers. -/
theorem mends_relieve {c : Call} {k : Settled Error Answer c → Prog Call (Settled Error Answer) α}
    {Q : α → Set Fault} {f : Fault} (left : Settled Error Answer c → Prop)
    (hcauses : c.causes ⊆ {f}) (hf : ∀ s r s', sparingApi c s r s' → f.In s' → left r)
    (hleft : ∀ r, left r → Mends sparingApi Fault.In (insert f D) (k r) Q)
    (hgone : ∀ r, ¬left r → Mends sparingApi Fault.In D (k r) Q) :
    Mends sparingApi Fault.In (insert f D) (.call c k) Q := by
  refine fun s r s' hc => ?_
  have only : ∀ f', f'.In s' → f' ∈ insert f D ∨ ¬f'.In s → f' ∈ insert f D := by
    refine fun f' hf' h => h.elim (fun h => h) fun hs => .inl ?_
    exact hcauses ((fault_of_sparing hc hf').resolve_left hs)
  by_cases hr : left r
  · exact mends_mono (hleft r hr) (fun f' h => only f' h.1 h.2) fun _ => subset_rfl
  · refine mends_mono (hgone r hr) (fun f' h => ?_) fun _ => subset_rfl
    refine (only f' h.1 h.2).resolve_left ?_
    rintro rfl
    exact hr (hf s r s' hc h.1)

theorem tidy_of_causes {p : Prog Call (Settled Error Answer) α}
    (hp : p.Only fun c => c.causes = ∅) : Tidy sparingApi Fault.In p := by
  refine .of_only hp fun c s r s' f hc h hf => (fault_of_sparing h hf).resolve_right ?_
  rw [hc]
  exact id

/-- A read that does not find the resource says so, or it spares the Secret. -/
theorem notFound_of_read {s s' : Installation} {r : Settled Error Answer (.read ⟨plural, id⟩)}
    (h : sparingApi (.read ⟨plural, id⟩) s r s') (horphan : Orphaned plural id s') :
    ∃ e, r = .error e ∧ e.isNotFound := by
  rcases sparing_cases h with ⟨hc, hmeets⟩ | hspares
  · rw [show performForeground (.call (.read ⟨plural, id⟩)) s =
      s.withState (handle (.read ⟨plural, id⟩) s.toState) from rfl] at hc
    cases hk : s.cluster.lookup ⟨plural, id⟩ with
    | none =>
      rw [handle_read_none hk] at hc
      obtain ⟨rfl, -⟩ := Prod.mk.inj hc
      exact ⟨_, rfl, by simp⟩
    | some object =>
      rw [handle_read_some hk] at hc
      obtain ⟨-, rfl⟩ := Prod.mk.inj hc
      exact absurd ⟨by simp [hk], hmeets⟩ horphan.resource
  · exact absurd rfl (hspares plural id horphan).2

theorem not_orphaned_of_create {s s' : Installation} {body : Resource}
    {r : Settled Error Answer (.create ⟨plural, id⟩ none body)}
    (h : sparingApi (.create ⟨plural, id⟩ none body) s r s') : ¬Orphaned plural id s' := by
  rcases sparing_cases h with ⟨hc, hmeets⟩ | hspares
  · intro horphan
    refine horphan.resource ⟨?_, ?_⟩ <;> rw [show s' = (performForeground
      (.call (.create ⟨plural, id⟩ none body)) s).2 from (congrArg Prod.snd hc).symm]
    · change ((handle (.create ⟨plural, id⟩ none body) s.toState).2.cluster.lookup _).isSome
      cases hk : s.cluster.lookup ⟨plural, id⟩ with
      | none => simp [handle_create_absent hk]
      | some object => simp [handle, VersionedStore.create, hk, State.request]
    · exact hmeets
  · exact fun horphan => (hspares plural id horphan).2 rfl

theorem not_orphaned_of_delete {s s' : Installation}
    {r : Settled Error Answer (.delete (secretOf plural id))}
    (h : sparingApi (.delete (secretOf plural id)) s r s') : ¬Orphaned plural id s' := by
  rcases sparing_cases h with ⟨hc, -⟩ | hspares
  · rintro ⟨-, -, -, r', hr', -⟩
    rw [show s' = (performForeground (.call (.delete (secretOf plural id))) s).2 from
      (congrArg Prod.snd hc).symm] at hr'
    change (handle (.delete (secretOf plural id)) s.toState).2.cluster.value _ = _ at hr'
    rw [handle_delete] at hr'
    split_ifs at hr' with hk
    · simp [VersionedStore.value] at hr'
    · rw [Option.not_isSome_iff_eq_none] at hk
      simp [VersionedStore.value, hk] at hr'
  · exact fun horphan => (hspares plural id horphan).2 (.inr rfl)

theorem notFound_of_delete {s s' : Installation}
    {r : Settled Error Answer (.delete ⟨plural, id⟩)}
    (h : sparingApi (.delete ⟨plural, id⟩) s r s') (horphan : Orphaned plural id s') :
    ∀ e, r = .error e → e.isNotFound := by
  rintro e rfl
  rcases sparing_cases h with ⟨hc, -⟩ | hspares
  · rw [performForeground] at hc
    split_ifs at hc with hpresent
    · cases (Prod.mk.inj hc).1
    · have hk : ¬(s.cluster.lookup ⟨plural, id⟩).isSome := fun h => hpresent ⟨horphan.custom, h⟩
      have hanswer : (handle (.delete ⟨plural, id⟩) s.toState).1 = .error e :=
        (Prod.mk.inj hc).1
      rw [handle_delete, if_neg hk] at hanswer
      cases hanswer
      simp
  · exact absurd (.inl rfl) (hspares plural id horphan).2

/-- With the Secret written, it may be an orphan. -/
theorem mends_upsert_secret (hplural : plural ≠ .secret) (body : Resource) :
    Mends sparingApi Fault.In D (upsert (secretOf plural id) body).run fun
      | .ok _ => insert (.orphan plural id) D
      | .error _ => D := by
  have write : ∀ {c : Call}, c.Writes (secretOf plural id) body →
      D ∪ c.causes ⊆ insert (.orphan plural id) D := by
    intro c hc
    rw [Set.union_comm, Set.insert_eq]
    exact Set.union_subset_union_left D (causes_of_writes hplural hc)
  simp only [upsert, Async.run_bind, Async.run_attempt, await, Async.await, ExceptT.run_mk,
    Prog.lift_bind, Prog.call_bind, Prog.pure_bind]
  refine mends_await (fun existing => ?_) fun e => ?_
  · simp only [Call.causes, Set.union_empty, Async.run_bind, Async.run_attempt, ExceptT.run_mk,
      Prog.lift_bind, Prog.call_bind, Prog.pure_bind]
    refine mends_await (fun _ => write ⟨rfl, rfl⟩) fun e => ?_
    dsimp only
    split_ifs
    · exact mends_await (fun _ => write ⟨rfl, rfl⟩) fun _ => subset_rfl
    · exact subset_rfl
  · dsimp only
    split_ifs
    · exact mends_await (fun _ => write ⟨rfl, rfl⟩) fun _ => subset_rfl
    · exact subset_rfl

/-- With the resource found or written, it is none. -/
theorem mends_upsert_resource (hplural : plural ≠ .secret) (body : Resource) :
    Mends sparingApi Fault.In (insert (.orphan plural id) D) (upsert ⟨plural, id⟩ body).run
      fun _ => D := by
  have hkey : (⟨plural, id⟩ : Key).kind ≠ .secret := hplural
  have harmless : ∀ {c : Call}, c.Writes ⟨plural, id⟩ body → c.causes = ∅ := fun hc =>
    causes_eq_empty_of_writes hkey hc
  simp only [upsert, Async.run_bind, Async.run_attempt, await, Async.await, ExceptT.run_mk,
    Prog.lift_bind, Prog.call_bind, Prog.pure_bind]
  refine mends_relieve (fun r => ∃ e, r = .error e ∧ e.isNotFound) (Set.empty_subset _)
    (fun s r s' hc horphan => notFound_of_read hc horphan) ?_ fun r hr => ?_
  · rintro _ ⟨e, rfl, he⟩
    simp only [he, if_true]
    refine mends_relieve (fun _ => False) ?_ (fun s r s' hc => not_orphaned_of_create hc)
      (fun _ h => h.elim) fun _ _ => subset_rfl
    rw [harmless (c := .create ⟨plural, id⟩ none body) ⟨rfl, rfl⟩]
    exact Set.empty_subset _
  · cases r with
    | error e =>
      have he : ¬e.isNotFound := fun he => hr ⟨e, rfl, he⟩
      simp only [he]
      exact subset_rfl
    | ok existing =>
      refine (tidy_of_causes ?_).mends D
      refine Async.only_bind (Async.only_attempt (Async.only_await (harmless ⟨rfl, rfl⟩)))
        fun r => ?_
      cases r with
      | ok _ => trivial
      | error e =>
        dsimp only
        split_ifs
        · exact Async.only_await (harmless ⟨rfl, rfl⟩)
        · trivial

/-- A resource that is deleted may leave its Secret an orphan, but then this is deleted too. -/
theorem mends_deleteResource (hc : o.clients = true) :
    Mends sparingApi Fault.In (insert (.orphan plural id) D) (o.deleteResource plural id).run
      fun _ => D := by
  have secret : Mends sparingApi Fault.In (insert (.orphan plural id) D)
      (deleteObject (secretOf plural id)).run fun _ => D := by
    simp only [deleteObject, Async.run_bind, Async.run_attempt, await, Async.await,
      ExceptT.run_mk, Prog.lift_bind, Prog.call_bind, Prog.pure_bind]
    refine mends_relieve (fun _ => False) ?_ (fun s r s' h => not_orphaned_of_delete h)
      (fun _ h => h.elim) fun r _ => ?_
    · rw [secretOf, causes_delete_secret]
      exact Set.empty_subset _
    · cases r with
      | ok _ => exact subset_rfl
      | error e =>
        dsimp only
        split_ifs <;> exact subset_rfl
  have run : (o.deleteResource plural id).run = (do
      deleteObject ⟨plural, id⟩
      deleteObject (secretOf plural id) : Task Unit).run := by
    simp only [deleteResource, deleteSecret, hc, if_true, secretOf]
  rw [run, Async.run_bind]
  refine mends_bind (Q := fun
    | .ok _ => insert (.orphan plural id) D
    | .error _ => D) ?_ fun r => ?_
  · simp only [deleteObject, Async.run_bind, Async.run_attempt, await, Async.await,
      ExceptT.run_mk, Prog.lift_bind, Prog.call_bind, Prog.pure_bind]
    refine mends_relieve (fun r => ∀ e, r = .error e → e.isNotFound) ?_
      (fun s r s' h horphan => notFound_of_delete h horphan) (fun r hr => ?_) fun r hr => ?_
    · rintro f ⟨rfl, -⟩
      exact rfl
    · cases r with
      | ok _ => exact subset_rfl
      | error e =>
        simp only [hr e rfl, if_true]
        exact subset_rfl
    · cases r with
      | ok _ => exact absurd (fun e h => by cases h) hr
      | error e =>
        dsimp only
        split_ifs with he
        · exact absurd (fun e' h => Except.error.inj h ▸ he) hr
        · exact subset_rfl
  · cases r with
    | ok _ => exact secret
    | error e => exact subset_rfl

theorem syncRow_of_not_accepted {r : Row} (hid : ¬resourceIdAccepted r.id) :
    ∃ e, o.syncRow r = throw e := by
  cases hname : operatorResourceName r.id with
  | ok name => exact absurd (accepted_of_operatorResourceName hname) hid
  | error e =>
    refine ⟨e, ?_⟩
    rw [syncRow, hname]
    rfl

theorem tidy_syncRow (hc : o.clients = true) (r : Row) :
    Tidy sparingApi Fault.In (o.syncRow r).run := by
  by_cases hid : resourceIdAccepted r.id
  · rw [run_syncRow hc hid, Async.run_bind]
    refine mends_bind (mends_upsert_secret r.custom _) fun res => ?_
    cases res with
    | error e => exact subset_rfl
    | ok _ =>
      dsimp only
      rw [Async.run_bind]
      refine mends_bind (mends_upsert_resource r.custom _) fun res => ?_
      cases res with
      | error e => exact subset_rfl
      | ok _ => exact tidy_of_causes (only_deleteObject (causes_delete_secret _))
  · obtain ⟨e, he⟩ := syncRow_of_not_accepted (o := o) hid
    rw [he]
    exact .pure

theorem only_upsert_fits {key : Key} {body : Resource} (h : Fits key body) :
    (upsert key body).run.Only fun c => c.Fits ∧ (Action.call c).requestsCluster := by
  refine only_upsert ⟨fun _ _ hw => hw.elim, rfl⟩ (fun _ => ⟨?_, rfl⟩) fun _ => ⟨?_, rfl⟩
  · rintro _ _ ⟨rfl, rfl⟩
    exact h
  · rintro _ _ ⟨rfl, rfl⟩
    exact h

/-- A row's task makes requests to the cluster, and writes objects as they should be. -/
theorem only_syncRow_fits (hc : o.clients = true) (r : Row) :
    (o.syncRow r).run.Only fun c => c.Fits ∧ (Action.call c).requestsCluster := by
  by_cases hid : resourceIdAccepted r.id
  · rw [run_syncRow hc hid]
    exact Async.only_bind (only_upsert_fits (fits_secret hid)) fun _ =>
      Async.only_bind (only_upsert_fits (fits_resource hid)) fun _ =>
        only_deleteObject ⟨fun _ _ hw => hw.elim, rfl⟩
  · obtain ⟨e, he⟩ := syncRow_of_not_accepted (o := o) hid
    rw [he]
    trivial

end Tasks

/-! ## Synchronizations -/

/-- A task that keeps the objects sound and takes care of the orphans it makes. -/
abbrev CarefulTask {α : Type} (p : Task α) : Prop :=
  Careful sparingApi Fault.In Call.Fits p.run

abbrev CarefulPass {α : Type} (p : LooseTask α) : Prop :=
  CarefulLoose sparingApi Fault.In Call.Fits p

section Synchronizations

variable {α : Type} {o : OperatorResourceSync}

/-- Calls that neither write an object nor cause a fault. -/
def Call.Minor (c : Call) : Prop := c.causes = ∅ ∧ c.Fits

theorem carefulTask_of_minor {p : Task α} (hp : p.run.Only Call.Minor) : CarefulTask p :=
  ⟨tidy_of_causes (hp.mono fun _ h => h.1), hp.mono fun _ h => h.2⟩

theorem careful_await {c : Call} (h : c.Minor) : CarefulTask (await c) :=
  carefulTask_of_minor (Async.only_await h)

theorem careful_syncRow (hc : o.clients = true) (r : Row) : CarefulTask (o.syncRow r) :=
  ⟨tidy_syncRow hc r, (only_syncRow_fits hc r).mono fun _ h => h.1⟩

theorem careful_deleteResource (hc : o.clients = true) (plural : Kind) (id : String) :
    CarefulTask (o.deleteResource plural id) := by
  have fits : ∀ key, (Call.delete key).Fits := fun _ _ _ h => h.elim
  refine ⟨(mends_deleteResource hc).tidy, ?_⟩
  simp only [deleteResource, deleteSecret, hc, if_true]
  exact Async.only_bind (only_deleteObject (fits _)) fun _ => only_deleteObject (fits _)

theorem careful_deleteStaleResources (hc : o.clients = true) (plural : Kind)
    (expected : List String) : CarefulPass (o.deleteStaleResources plural expected) := by
  simp only [deleteStaleResources, hc, if_true]
  refine .bind (.ofAsync (careful_await ⟨rfl, fun _ _ h => h.elim⟩)) fun names =>
    .bind (.all fun p hp => ?_) fun _ => .pure
  obtain ⟨name, -, rfl⟩ := List.mem_map.mp hp
  exact .ofAsync (careful_deleteResource hc plural name)

theorem careful_syncPass (hc : o.clients = true) : CarefulPass o.syncPass := by
  refine .bind (.both (.ofAsync (careful_await ⟨rfl, fun _ _ h => h.elim⟩))
    (.ofAsync (careful_await ⟨rfl, fun _ _ h => h.elim⟩))) fun rows => ?_
  obtain ⟨servers, proxies⟩ := rows
  refine .bind (.ofAsync (.bind (.allSettled fun p hp => ?_) fun _ => .pure)) fun results => ?_
  · simp only [List.map_append, List.map_map, List.mem_append, List.mem_map] at hp
    rcases hp with ⟨server, -, rfl⟩ | ⟨proxy, -, rfl⟩
    · exact careful_syncRow hc _
    · exact careful_syncRow hc _
  · dsimp only
    split_ifs
    · exact .pure
    · refine .bind (.ofAsync .pure) fun names => .bind (.ofAsync .pure) fun names' => ?_
      exact .bind (.both (careful_deleteStaleResources hc _ _)
        (careful_deleteStaleResources hc _ _)) fun _ => .pure

/-- A call that is no request to the cluster does what it is asked. -/
theorem perform_of_sparing {c : Call} {s s' : Installation} {r : Settled Error Answer c}
    (hc : (Action.call c).requestsCluster = false) (h : sparingApi c s r s') :
    performForeground (.call c) s = (r, s') := by
  refine (effect_of_sparing h).resolve_right fun hfailed => ?_
  rw [hc] at hfailed
  exact Bool.false_ne_true hfailed.2.1

/-- After the claim, the flag is up. -/
theorem fault_of_claimSync {s s' : Installation} {r : Settled Error Answer .claimSync} {f : Fault}
    (h : sparingApi .claimSync s r s') (hf : f.In s') (hs : ¬f.In s) :
    r = .ok true ∧ f = .syncing := by
  obtain ⟨rfl, rfl⟩ := Prod.mk.inj (perform_of_sparing rfl h)
  cases f with
  | syncing => exact ⟨congrArg (Except.ok !·) (Bool.eq_false_iff.mpr hs), rfl⟩
  | orphan plural id => exact absurd ⟨hf.custom, hf.row, hf.resource, hf.secret⟩ hs

/-- Release the flag, and report the outcome of the pass. -/
theorem mends_releaseSync (outcome : Except Error (List Error)) :
    Mends sparingApi Fault.In (insert .syncing ∅) (do
      await .releaseSync
      match outcome with
      | .ok failures => return failures
      | .error e => return [e] : Task (List Error)).run fun _ => ∅ := by
  simp only [Async.run_bind, await, Async.await, ExceptT.run_mk, Prog.lift_bind]
  refine mends_relieve (fun _ => False) (Set.empty_subset _) (fun s r s' h hf => ?_)
    (fun _ h => h.elim) fun r _ => ?_
  · obtain ⟨-, rfl⟩ := Prod.mk.inj (perform_of_sparing rfl h)
    cases hf
  · cases r with
    | error e => exact subset_rfl
    | ok _ => cases outcome <;> exact subset_rfl

/-- The flag is up from the time a synchronization claims it, and comes down again also when a
deletion fails while others are under way. -/
theorem tidy_syncAll (hc : o.clients = true) : Tidy sparingApi Fault.In o.syncAll.run := by
  simp only [syncAll, hc, Bool.not_true, Bool.false_eq_true, if_false, Async.run_bind, await,
    Async.await, ExceptT.run_mk, Prog.lift_bind]
  refine mends_call (fun r => {f | r = .ok true ∧ f = .syncing})
    (fun s r s' f h hf hs => fault_of_claimSync h hf (hs.resolve_left id)) fun r => ?_
  cases r with
  | error e => rintro f ⟨⟨⟩, -⟩
  | ok claimed =>
    cases claimed with
    | false => rintro f ⟨⟨⟩, -⟩
    | true =>
      exact mends_mono (mends_settle (careful_syncPass hc).tidy mends_releaseSync)
        (fun f hf => .inl hf.2) fun _ => subset_rfl

theorem careful_syncAll (hc : o.clients = true) : CarefulTask o.syncAll := by
  refine ⟨tidy_syncAll hc, ?_⟩
  simp only [syncAll, hc, Bool.not_true, Bool.false_eq_true, if_false]
  refine Async.only_bind (Async.only_await fun _ _ hw => hw.elim) fun claimed => ?_
  split_ifs
  · trivial
  · refine Loose.only_settle (careful_syncPass hc).only fun outcome =>
      Async.only_bind (Async.only_await fun _ _ hw => hw.elim) fun _ => ?_
    cases outcome <;> trivial

theorem careful_publish {handler : Task Unit} (h : CarefulTask handler) :
    CarefulTask (publish handler) := .async_bind h.attempt fun _ => .pure

theorem careful_requireClients : CarefulTask o.requireClients := by
  unfold requireClients
  split_ifs <;> exact .pure

theorem careful_syncServerById (hc : o.clients = true) (id : String) :
    CarefulTask (o.syncServerById id) := by
  simp only [syncServerById, hc, if_true]
  refine .async_bind (careful_await ⟨rfl, fun _ _ h => h.elim⟩) fun row => ?_
  cases row with
  | some server => exact careful_syncRow hc _
  | none => exact .pure

theorem careful_syncReverseProxyById (hc : o.clients = true) (id : String) :
    CarefulTask (o.syncReverseProxyById id) := by
  refine .async_bind careful_requireClients fun _ =>
    .async_bind (careful_await ⟨rfl, fun _ _ h => h.elim⟩) fun row => ?_
  cases row with
  | some proxy => exact careful_syncRow hc _
  | none => exact .pure

theorem careful_guard {b : Bool} {e : Error} {p : Task α} (hp : CarefulTask p) :
    CarefulTask (if b then throw e else p) := by
  cases b
  · exact hp
  · exact .pure

theorem careful_createServer (hc : o.clients = true) (input : CreateServerInput)
    (token : String) : CarefulTask (o.createServer input token) := by
  have found : CarefulTask (PrismaServerRepository.rowExists input.id) :=
    .async_bind (careful_await ⟨rfl, fun _ _ h => h.elim⟩) fun _ => .pure
  have created : CarefulTask (PrismaServerRepository.create input token) :=
    .async_bind found fun _ => careful_guard (careful_await ⟨rfl, fun _ _ h => h.elim⟩)
  exact .async_bind found fun _ => careful_guard (.async_bind created fun _ =>
    .async_bind (careful_publish (careful_syncServerById hc _)) fun _ => .pure)

theorem careful_createReverseProxy (hc : o.clients = true) (input : CreateReverseProxyInput)
    (token : String) : CarefulTask (o.createReverseProxy input token) := by
  have found : CarefulTask (PrismaReverseProxyRepository.rowExists input.id) :=
    .async_bind (careful_await ⟨rfl, fun _ _ h => h.elim⟩) fun _ => .pure
  have created : CarefulTask (PrismaReverseProxyRepository.create input token) :=
    .async_bind found fun _ => careful_guard (careful_await ⟨rfl, fun _ _ h => h.elim⟩)
  exact .async_bind found fun _ => careful_guard (.async_bind created fun _ =>
    .async_bind (careful_publish (careful_syncReverseProxyById hc _)) fun _ => .pure)

theorem careful_replaceEnvVariables (id : String) (vars : List EnvVariable) :
    CarefulTask (PrismaServerRepository.replaceEnvVariables id vars) := by
  refine .async_bind (careful_await ⟨rfl, fun _ _ h => h.elim⟩) fun _ => ?_
  split_ifs
  · exact careful_await ⟨rfl, fun _ _ h => h.elim⟩
  · exact .pure

theorem careful_updateServer (hc : o.clients = true) (id : String) (input : UpdateServerInput) :
    CarefulTask (o.updateServer id input) := by
  have columns : CarefulTask (await (.updateServer id input)) :=
    careful_await ⟨rfl, fun _ _ h => h.elim⟩
  refine .async_bind (.async_bind (careful_await ⟨rfl, fun _ _ h => h.elim⟩) fun row => ?_)
    fun _ => .async_bind (careful_publish (careful_syncServerById hc id)) fun _ => .pure
  cases row with
  | none => exact .pure
  | some row =>
    dsimp only
    cases input.envVariables with
    | none => exact columns
    | some vars => exact .async_bind (careful_replaceEnvVariables id vars) fun _ => columns

theorem careful_setEnvVariable (hc : o.clients = true) (id key value : String) :
    CarefulTask (o.setEnvVariable id key value) :=
  .async_bind (careful_await ⟨rfl, fun _ _ h => h.elim⟩) fun _ =>
    careful_publish (careful_syncServerById hc id)

theorem careful_deleteEnvVariable (hc : o.clients = true) (id key : String) :
    CarefulTask (o.deleteEnvVariable id key) :=
  .async_bind (careful_await ⟨rfl, fun _ _ h => h.elim⟩) fun _ =>
    careful_publish (careful_syncServerById hc id)

end Synchronizations

end Minikura.Backend
