import Minikura.Backend.OperatorResourceSync
import Minikura.Concurrency.Reach

/-!
# Ownership of objects

The tasks of one synchronization write different objects. `owning` is the contract
of a task that nobody else writes some keys for, and that writes only some keys
itself; two tasks tolerate each other when neither writes what the other owns.

## Main results

* `wp_upsert`, `wp_deleteObject` — what the two requests of a task leave behind.
* `wp_frame` — keys a task owns and does not write keep their objects.
* `wp_syncRow` — a row's task leaves its Secret and its resource.
-/

namespace Minikura.Backend
open Concurrency OperatorResourceSync

variable {α : Type}

/-- The API server and the database, as long as no request is lost. -/
abbrev api : Handler Call (Settled Error Answer) State := .ofFun handle

theorem api_total (c : Call) (s : State) : ∃ r s', api c s r s' :=
  ⟨(handle c s).1, (handle c s).2, rfl⟩

/-- Nobody else writes `own`, and the task writes only `touch`. -/
def owning (own touch : Key → Prop) : Contract Call State where
  rely s s' := s'.db = s.db ∧ ∀ k, own k → s'.cluster.lookup k = s.cluster.lookup k
  guar _ s s' := s'.db = s.db ∧ ∀ k, ¬touch k → s'.cluster.lookup k = s.cluster.lookup k
  refl _ := ⟨rfl, fun _ _ => rfl⟩
  trans _ _ _ h h' := ⟨h'.1.trans h.1, fun k hk => (h'.2 k hk).trans (h.2 k hk)⟩

theorem owning_refines {own touch own' touch' : Key → Prop} (hown : ∀ k, own k → own' k)
    (htouch : ∀ k, touch k → touch' k) : (owning own touch).Refines (owning own' touch') :=
  ⟨fun _ _ h => ⟨h.1, fun k hk => h.2 k (hown k hk)⟩,
    fun _ _ _ h => ⟨h.1, fun k hk => h.2 k fun ht => hk (htouch k ht)⟩⟩

theorem owning_compatible {own touch own' touch' : Key → Prop}
    (h : ∀ k, own k → ¬touch' k) (h' : ∀ k, own' k → ¬touch k) :
    (owning own touch).Compatible (owning own' touch') :=
  ⟨fun _ _ _ g => ⟨g.1, fun k hk => g.2 k (h' k hk)⟩,
    fun _ _ _ g => ⟨g.1, fun k hk => g.2 k (h k hk)⟩⟩

variable {own touch : Key → Prop}

/-- The contract of concurrent tasks, one for each entry of a list. -/
theorem all_owning_refines {ι : Type} (own touch : ι → Key → Prop) (l : List ι) :
    (Contract.all (fun i => owning (own i) (touch i)) l).Refines
      (owning (fun k => ∃ i ∈ l, own i k) fun k => ∃ i ∈ l, touch i k) := by
  cases l with
  | nil =>
    exact ⟨fun _ _ _ i hi => absurd hi (by simp), fun _ _ _ ⟨i, hi, _⟩ => absurd hi (by simp)⟩
  | cons j l =>
    refine ⟨fun s s' h i hi => ⟨h.1, fun k hk => h.2 k ⟨i, hi, hk⟩⟩, ?_⟩
    rintro c s s' ⟨i, hi, hdb, hk⟩
    exact ⟨hdb, fun k hn => hk k fun ht => hn ⟨i, hi, ht⟩⟩

theorem par_owning_refines (own touch own' touch' : Key → Prop) :
    ((owning own touch).par (owning own' touch')).Refines
      (owning (fun k => own k ∨ own' k) fun k => touch k ∨ touch' k) := by
  refine ⟨fun s s' h => ⟨⟨h.1, fun k hk => h.2 k (.inl hk)⟩, h.1, fun k hk => h.2 k (.inr hk)⟩,
    ?_⟩
  rintro c s s' (⟨hdb, hk⟩ | ⟨hdb, hk⟩)
  · exact ⟨hdb, fun k hn => hk k fun ht => hn (.inl ht)⟩
  · exact ⟨hdb, fun k hn => hk k fun ht => hn (.inr ht)⟩

/-- What a task owns and does not write is at the end what it was at the start. -/
theorem wp_frame {p : Prog Call (Settled Error Answer) α} {Q : α → State → Prop} {s : State}
    (h : wp api (owning own touch) p Q s) :
    wp api (owning own touch) p (fun a s' => Q a s' ∧ s'.db = s.db ∧
      ∀ k, own k → ¬touch k → s'.cluster.lookup k = s.cluster.lookup k) s := by
  refine wp_stable (fun t u hI hr => ?_) (fun c t u hI hg => ?_) h ⟨rfl, fun _ _ _ => rfl⟩
  · exact ⟨hr.1.trans hI.1, fun k ho hn => (hr.2 k ho).trans (hI.2 k ho hn)⟩
  · exact ⟨hg.1.trans hI.1, fun k ho hn => (hg.2 k hn).trans (hI.2 k ho hn)⟩

/-! ## Requests on one key -/

section Requests

variable {key : Key} {body : Resource} {s : State}

theorem handle_read_some {o : Versioned Resource} (h : s.cluster.lookup key = some o) :
    handle (.read key) s = (.ok o, s) := by
  simp [handle, h]

theorem handle_read_none (h : s.cluster.lookup key = none) :
    handle (.read key) s = (.error (.ofRefusal .notFound), s) := by
  simp [handle, h]

theorem handle_replace_current {o : Versioned Resource} (h : s.cluster.lookup key = some o) :
    handle (.replace key (some o.version) body) s =
      (.ok (), { s with cluster := s.cluster.put key body }) := by
  simp [handle, State.request, VersionedStore.replace_current body h]

theorem handle_create_absent (h : s.cluster.lookup key = none) :
    handle (.create key none body) s =
      (.ok (), { s with cluster := s.cluster.put key body }) := by
  simp [handle, State.request, VersionedStore.create_absent body h]

theorem handle_delete (s : State) : handle (.delete key) s =
    if (s.cluster.lookup key).isSome then (.ok (), { s with cluster := s.cluster.remove key })
    else (.error (.ofRefusal .notFound), s) := by
  simp only [handle, VersionedStore.delete]
  split_ifs <;> rfl

/-- A write of one key the task owns, as the last call of a program. -/
theorem wp_put {c : Call} {r : Settled Error Answer c} {k : Settled Error Answer c →
    Prog Call (Settled Error Answer) α} {Q : α → State → Prop} {o : Option (Versioned Resource)}
    (hown : own key) (htouch : touch key) (hs : s.cluster.lookup key = o)
    (hc : ∀ t : State, t.cluster.lookup key = o →
      handle c t = (r, { t with cluster := t.cluster.put key body }))
    (hk : ∀ t : State, t.cluster.value key = some body → wp api (owning own touch) (k r) Q t) :
    wp api (owning own touch) (.call c k) Q s := by
  refine wp_call (fun t => t.cluster.lookup key = o) hs
    (fun t u ht hu => (hu.2 key hown).trans ht) fun t r' u ht hu => ?_
  have hput := (hc t ht).symm.trans hu
  simp only [Prod.mk.injEq] at hput
  obtain ⟨rfl, rfl⟩ := hput
  refine ⟨⟨rfl, fun l hl => VersionedStore.lookup_put_ne _ _ ?_⟩, hk _ ?_⟩
  · rintro rfl
    exact hl htouch
  · simp [VersionedStore.value]

theorem wp_upsert (hown : own key) (htouch : touch key) :
    wp api (owning own touch) (upsert key body).run
      (fun r s => r = .ok () ∧ s.cluster.value key = some body) s := by
  have stable : ∀ t u : State, (owning own touch).rely t u →
      u.cluster.lookup key = t.cluster.lookup key := fun t u h => h.2 key hown
  have done : ∀ t : State, t.cluster.value key = some body → wp api (owning own touch)
      (.pure (.ok ())) (fun (r : Except Error Unit) s =>
        r = .ok () ∧ s.cluster.value key = some body) t := by
    intro t ht
    refine wp_pure ⟨rfl, ht⟩ fun t u h hu => ⟨rfl, ?_⟩
    rw [VersionedStore.value, stable t u hu]
    exact h.2
  simp only [upsert, Async.run_bind, Async.run_attempt, await, Async.await, ExceptT.run_mk,
    Prog.lift_bind]
  refine wp_call (fun t => t.cluster.lookup key = s.cluster.lookup key) rfl
    (fun t u ht hu => (stable t u hu).trans ht) fun t r u ht hr => ?_
  cases ho : s.cluster.lookup key with
  | none =>
    have hread := (handle_read_none (ht.trans ho)).symm.trans hr
    rw [Prod.mk.injEq] at hread
    obtain ⟨rfl, rfl⟩ := hread
    refine ⟨⟨rfl, fun _ _ => rfl⟩, ?_⟩
    exact wp_put hown htouch (ht.trans ho) (fun v hv => handle_create_absent hv) done
  | some o =>
    have hread := (handle_read_some (ht.trans ho)).symm.trans hr
    rw [Prod.mk.injEq] at hread
    obtain ⟨rfl, rfl⟩ := hread
    refine ⟨⟨rfl, fun _ _ => rfl⟩, ?_⟩
    simp only [Prog.pure_bind, Async.run_bind, Async.run_attempt, ExceptT.run_mk, Prog.lift_bind]
    exact wp_put hown htouch (ht.trans ho) (fun v hv => handle_replace_current hv) done

theorem wp_deleteObject (htouch : touch key) :
    wp api (owning own touch) (deleteObject key).run
      (fun r s => r = .ok () ∧ (own key → s.cluster.lookup key = none)) s := by
  have done : ∀ t : State, t.cluster.lookup key = none → wp api (owning own touch)
      (.pure (.ok ())) (fun (r : Except Error Unit) s =>
        r = .ok () ∧ (own key → s.cluster.lookup key = none)) t :=
    fun t ht u hu => ⟨rfl, fun ho => (hu.2 key ho).trans ht⟩
  simp only [deleteObject, Async.run_bind, Async.run_attempt, await, Async.await,
    ExceptT.run_mk, Prog.lift_bind, Prog.call_bind]
  intro t _ r u hr
  have hdel := (handle_delete t).symm.trans hr
  split_ifs at hdel with hk
  · simp only [Prod.mk.injEq] at hdel
    obtain ⟨rfl, rfl⟩ := hdel
    refine ⟨⟨rfl, fun l hl => VersionedStore.lookup_remove_ne _ ?_⟩, done _ (by simp)⟩
    rintro rfl
    exact hl htouch
  · simp only [Prod.mk.injEq] at hdel
    obtain ⟨rfl, rfl⟩ := hdel
    exact ⟨⟨rfl, fun _ _ => rfl⟩, done t (by simpa using hk)⟩

end Requests

/-! ## A row's task -/

theorem secretPrefix_length (plural : Kind) : (secretPrefix plural).toList.length = 2 := by
  cases plural <;> rfl

theorem secretName_injective {plural plural' : Kind} {id id' : String}
    (h : secretName plural id = secretName plural' id') :
    secretPrefix plural = secretPrefix plural' ∧ id = id' := by
  have hl := congrArg String.toList h
  simp only [secretName, String.toList_append, List.append_assoc] at hl
  obtain ⟨hp, hl⟩ := List.append_inj hl (by simp only [secretPrefix_length])
  exact ⟨String.toList_inj.mp hp,
    String.toList_inj.mp (List.append_cancel_right (List.append_cancel_left hl))⟩

/-- A former name is the present name of another row when that row's id, with the
prefix, is the id. -/
theorem legacySecretName_eq_iff {plural : Kind} {id id' : String} :
    legacySecretName id' = secretName plural id ↔ id' = secretPrefix plural ++ "-" ++ id := by
  rw [legacySecretName, secretName, String.append_left_inj]

theorem legacySecretName_ne (plural : Kind) (id : String) :
    legacySecretName id ≠ secretName plural id := by
  intro h
  have hl := congrArg (fun s : String => s.toList.length) (legacySecretName_eq_iff.mp h)
  simp only [String.toList_append, List.length_append, secretPrefix_length] at hl
  omega

def Row.secretKey (r : Row) : Key := ⟨.secret, secretName r.plural r.id⟩
def Row.resourceKey (r : Row) : Key := ⟨r.plural, r.id⟩
def Row.legacyKey (r : Row) : Key := ⟨.secret, legacySecretName r.id⟩

def Row.labels (r : Row) : List (String × String) :=
  [managedBy, ("minikura.kirameki.cafe/database-id", r.id)]

/-- The Secret and the resource of a row are in the cluster. -/
def Row.Written (r : Row) (c : Cluster) : Prop :=
  c.value r.secretKey = some (r.secret r.labels) ∧
    c.value r.resourceKey = some (r.resource r.labels)

theorem operatorResourceName_accepted {id : String} (h : resourceIdAccepted id) :
    operatorResourceName id = .ok id := by
  simp only [resourceIdAccepted, Bool.and_eq_true, decide_eq_true_eq] at h
  simp only [operatorResourceName, h.1, Bool.not_true, Bool.false_or, decide_eq_true_eq]
  exact if_neg (by omega)

theorem eq_of_operatorResourceName {id name : String} (h : operatorResourceName id = .ok name) :
    name = id := by
  unfold operatorResourceName at h
  split_ifs at h
  exact (Except.ok.inj h).symm

theorem accepted_of_operatorResourceName {id name : String}
    (h : operatorResourceName id = .ok name) : resourceIdAccepted id := by
  unfold operatorResourceName at h
  split_ifs at h with hid
  simpa [resourceIdAccepted] using hid

theorem labels_accepted {r : Row} (h : resourceIdAccepted r.id) :
    Backend.labels r.id = .ok r.labels := by
  simp [Backend.labels, operatorResourceName_accepted h, Row.labels]

/-- One write after another: what the first left stays, unless the second writes it. -/
theorem wp_then {p q : Task Unit} {P P' : State → Prop} (touch₁ touch₂ : Key → Prop)
    {s : State} (h₁ : ∀ k, touch₁ k → touch k) (h₂ : ∀ k, touch₂ k → touch k)
    (hp : wp api (owning own touch₁) p.run (fun r s => r = .ok () ∧ P s) s)
    (hq : ∀ s, P s → wp api (owning own touch₂) q.run (fun r s => r = .ok () ∧ P' s) s) :
    wp api (owning own touch) (p >>= fun _ => q).run (fun r s => r = .ok () ∧ P' s) s := by
  refine wp_async_bind (wp_mono (wp_refines hp (owning_refines (fun _ h => h) h₁)) ?_)
  rintro r t ⟨rfl, ht⟩
  exact wp_refines (hq t ht) (owning_refines (fun _ h => h) h₂)

theorem value_eq_of_lookup_eq {c c' : Cluster} {k : Key} (h : c'.lookup k = c.lookup k) :
    c'.value k = c.value k := congrArg (Option.map Versioned.value) h

/-- The task of a row whose id may name a resource. -/
theorem run_syncRow {o : OperatorResourceSync} {r : Row} (hc : o.clients = true)
    (hid : resourceIdAccepted r.id) : (o.syncRow r).run = (do
      upsert r.secretKey (r.secret r.labels)
      upsert r.resourceKey (r.resource r.labels)
      deleteObject r.legacyKey : Task Unit).run := by
  simp only [syncRow, operatorResourceName_accepted hid, labels_accepted hid,
    Async.run_bind, Task.run_ofExcept, Prog.pure_bind, upsertSecret, upsertResource,
    deleteSecret, hc, if_true]
  rfl

theorem wp_syncRow {o : OperatorResourceSync} {r : Row} {s : State} (hc : o.clients = true)
    (hid : resourceIdAccepted r.id) (hsecret : own r.secretKey) (hresource : own r.resourceKey)
    (ht₁ : touch r.secretKey) (ht₂ : touch r.resourceKey) (ht₃ : touch r.legacyKey) :
    wp api (owning own touch) (o.syncRow r).run (fun res s => res = .ok () ∧
      r.Written s.cluster ∧ (own r.legacyKey → s.cluster.lookup r.legacyKey = none)) s := by
  have ne₁ : r.secretKey ≠ r.resourceKey := fun h => r.custom (congrArg Key.kind h).symm
  have ne₂ : r.secretKey ≠ r.legacyKey :=
    fun h => legacySecretName_ne r.plural r.id (congrArg Key.name h).symm
  have ne₃ : r.resourceKey ≠ r.legacyKey := fun h => r.custom (congrArg Key.kind h)
  rw [run_syncRow hc hid]
  refine wp_then (· = r.secretKey) touch (by rintro k rfl; exact ht₁)
    (fun _ h => h) (wp_upsert hsecret rfl) fun t ht => ?_
  refine wp_then (· = r.resourceKey) (· = r.legacyKey) (P := fun t => r.Written t.cluster)
    (by rintro k rfl; exact ht₂) (by rintro k rfl; exact ht₃) ?_ fun u hu => ?_
  · refine wp_mono (wp_frame (wp_upsert hresource rfl)) ?_
    rintro a u ⟨⟨rfl, hu⟩, -, hframe⟩
    exact ⟨rfl, (value_eq_of_lookup_eq (hframe _ hsecret ne₁)).trans ht, hu⟩
  · refine wp_mono (wp_frame (wp_deleteObject rfl)) ?_
    rintro a v ⟨⟨rfl, hnone⟩, -, hframe⟩
    exact ⟨rfl, ⟨(value_eq_of_lookup_eq (hframe _ hsecret ne₂)).trans hu.1,
      (value_eq_of_lookup_eq (hframe _ hresource ne₃)).trans hu.2⟩, hnone⟩

end Minikura.Backend
