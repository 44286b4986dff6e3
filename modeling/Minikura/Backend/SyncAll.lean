import Minikura.Backend.Ownership

/-!
# One synchronization of everything

What `syncAll` makes of the cluster when no request fails and nobody else writes:
the tasks of the rows run concurrently, then both stale passes do. The tasks are
independent unless the former Secret name of one row is the present one of another.

## Main results

* `syncAll_matches_database_iff` — when the cluster is as the database says.
* `wp_syncTasks` — all rows are written, whatever the interleaving.
* `wp_deleteStaleResources` — a stale pass removes what no row accounts for.
-/

namespace Minikura.Backend
open Concurrency OperatorResourceSync

variable {o : OperatorResourceSync} {db : Database} {own touch : Key → Prop}

/-! ## What is expected -/

/-- The names the resources of a kind should have. -/
def Database.names (db : Database) : Kind → List String
  | .minecraftservers => db.servers.map (·.id)
  | .reverseproxyservers => db.proxies.map (·.id)
  | .secret => []

/-- Every id passes `operatorResourceName`. -/
def Database.Accepted (db : Database) : Prop :=
  (∀ s ∈ db.servers, resourceIdAccepted s.id) ∧ ∀ p ∈ db.proxies, resourceIdAccepted p.id

instance (db : Database) : Decidable db.Accepted := inferInstanceAs (Decidable (_ ∧ _))

/-- No row's id is the prefixed id of another row. -/
def Database.NoLegacyClash (db : Database) : Prop :=
  ∀ id ∈ db.servers.map (·.id) ++ db.proxies.map (·.id),
    (∀ s ∈ db.servers, id ≠ "mc-" ++ s.id) ∧ ∀ p ∈ db.proxies, id ≠ "rp-" ++ p.id

instance (db : Database) : Decidable db.NoLegacyClash :=
  inferInstanceAs (Decidable (∀ id ∈ _, (∀ s ∈ db.servers, _) ∧ ∀ p ∈ db.proxies, _))

def Resource.spec? (r : Resource) : Option Json :=
  match r.content with
  | .custom _ _ spec => some spec
  | .secret _ _ => none

def Resource.apiKey? (r : Resource) : Option String :=
  match r.content with
  | .secret _ data => data.lookup "api-key"
  | .custom _ _ _ => none

/-- Every object has a name. -/
def Cluster.Named (c : Cluster) : Prop := ∀ k, (c.lookup k).isSome → k.name ≠ ""

/-- The cluster matches the database. -/
structure Synced (o : OperatorResourceSync) (db : Database) (before after : Cluster) :
    Prop where
  servers : ∀ s ∈ db.servers,
    (after.value ⟨.minecraftservers, s.id⟩).bind Resource.spec? =
        some (o.serverSpec s ("mc-" ++ s.id ++ "-api-key")) ∧
      (after.value ⟨.secret, "mc-" ++ s.id ++ "-api-key"⟩).bind Resource.apiKey? =
        some s.apiKey
  proxies : ∀ p ∈ db.proxies,
    (after.value ⟨.reverseproxyservers, p.id⟩).bind Resource.spec? =
        some (o.proxySpec p ("rp-" ++ p.id ++ "-api-key")) ∧
      (after.value ⟨.secret, "rp-" ++ p.id ++ "-api-key"⟩).bind Resource.apiKey? =
        some p.apiKey
  stale : ∀ k r, k.kind ≠ .secret → after.value k = some r → r.managed →
    k.name ∈ db.names k.kind
  untouched : ∀ k, k.kind ≠ .secret → k.name ∉ db.names k.kind →
    (∀ r, before.value k = some r → ¬r.managed) → after.lookup k = before.lookup k

/-! ## The rows -/

def OperatorResourceSync.rows (o : OperatorResourceSync) (db : Database) : List Row :=
  db.servers.map o.serverRow ++ db.proxies.map o.proxyRow

theorem mem_rows_iff {r : Row} : r ∈ o.rows db ↔
    (∃ s ∈ db.servers, o.serverRow s = r) ∨ ∃ p ∈ db.proxies, o.proxyRow p = r := by
  simp [rows]

theorem rows_accepted (h : db.Accepted) {r : Row} (hr : r ∈ o.rows db) :
    resourceIdAccepted r.id := by
  rcases mem_rows_iff.mp hr with ⟨s, hs, rfl⟩ | ⟨p, hp, rfl⟩
  · exact h.1 s hs
  · exact h.2 p hp

theorem mem_names_of_mem_rows {r : Row} (hr : r ∈ o.rows db) : r.id ∈ db.names r.plural := by
  rcases mem_rows_iff.mp hr with ⟨s, hs, rfl⟩ | ⟨p, hp, rfl⟩
  · exact List.mem_map.mpr ⟨s, hs, rfl⟩
  · exact List.mem_map.mpr ⟨p, hp, rfl⟩

theorem rows_pairwise (o : OperatorResourceSync) (db : Database) :
    (o.rows db).Pairwise fun r r' => r.resourceKey ≠ r'.resourceKey := by
  have hs := db.serverKeys
  have hp := db.proxyKeys
  rw [List.Nodup, List.pairwise_map] at hs hp
  rw [rows, List.pairwise_append, List.pairwise_map, List.pairwise_map]
  refine ⟨hs.imp ?_, hp.imp ?_, ?_⟩
  · exact fun h e => h (congrArg Key.name e)
  · exact fun h e => h (congrArg Key.name e)
  · simp only [List.mem_map]
    rintro _ ⟨s, -, rfl⟩ _ ⟨p, -, rfl⟩ e
    exact nomatch (congrArg Key.kind e : Kind.minecraftservers = .reverseproxyservers)

theorem secretPrefix_injective {plural plural' : Kind} (h : plural ≠ .secret)
    (h' : plural' ≠ .secret) (e : secretPrefix plural = secretPrefix plural') :
    plural = plural' := by
  cases plural <;> cases plural' <;> first | rfl | contradiction

theorem Row.secretKey_injective {r r' : Row} (h : r.secretKey = r'.secretKey) :
    r.resourceKey = r'.resourceKey := by
  obtain ⟨hp, hid⟩ := secretName_injective (congrArg Key.name h)
  rw [resourceKey, resourceKey, secretPrefix_injective r.custom r'.custom hp, hid]

theorem rows_legacyKey_ne (h : db.NoLegacyClash) {r r' : Row} (hr : r ∈ o.rows db)
    (hr' : r' ∈ o.rows db) : r'.legacyKey ≠ r.secretKey := by
  intro e
  have hid := legacySecretName_eq_iff.mp (congrArg Key.name e)
  have hmem : r'.id ∈ db.servers.map (·.id) ++ db.proxies.map (·.id) := by
    rcases mem_rows_iff.mp hr' with ⟨s, hs, rfl⟩ | ⟨p, hp, rfl⟩
    · exact List.mem_append_left _ (List.mem_map.mpr ⟨s, hs, rfl⟩)
    · exact List.mem_append_right _ (List.mem_map.mpr ⟨p, hp, rfl⟩)
  rcases mem_rows_iff.mp hr with ⟨s, hs, rfl⟩ | ⟨p, hp, rfl⟩
  · exact (h _ hmem).1 s hs hid
  · exact (h _ hmem).2 p hp hid

def Row.Owns (r : Row) (k : Key) : Prop := k = r.secretKey ∨ k = r.resourceKey
def Row.Touches (r : Row) (k : Key) : Prop := r.Owns k ∨ k = r.legacyKey

/-- Two rows do not get in each other's way. -/
theorem rows_compatible (h : db.NoLegacyClash) {r r' : Row} (hr : r ∈ o.rows db)
    (hr' : r' ∈ o.rows db) (hne : r.resourceKey ≠ r'.resourceKey) :
    ∀ k, r.Owns k → ¬r'.Touches k := by
  rintro k (rfl | rfl) ((e | e) | e)
  · exact hne (Row.secretKey_injective e)
  · exact r'.custom (congrArg Key.kind e).symm
  · exact rows_legacyKey_ne h hr hr' e.symm
  · exact r.custom (congrArg Key.kind e)
  · exact hne e
  · exact r.custom (congrArg Key.kind e)

theorem syncTasks_eq (o : OperatorResourceSync) (db : Database) :
    db.servers.map o.syncServer ++ db.proxies.map o.syncReverseProxy =
      (o.rows db).map o.syncRow := by
  simp only [rows, List.map_append, List.map_map]
  rfl

/-- Under every interleaving all tasks succeed and every row is written. -/
theorem wp_syncTasks (hc : o.clients = true) (hacc : db.Accepted) (hclash : db.NoLegacyClash)
    (s : State) :
    wp api (owning (fun _ => True) fun k => ∃ r ∈ o.rows db, r.Touches k)
      (Prog.allSettled (((o.rows db).map o.syncRow).map ExceptT.run))
      (fun rs s => (∀ r ∈ rs, r = .ok ()) ∧ ∀ r ∈ o.rows db, r.Written s.cluster) s := by
  have compat : (o.rows db).Pairwise fun r r' =>
      (owning r.Owns r.Touches).Compatible (owning r'.Owns r'.Touches) :=
    (rows_pairwise o db).imp_of_mem fun hr hr' hne =>
      owning_compatible (rows_compatible hclash hr hr' hne)
        (rows_compatible hclash hr' hr hne.symm)
  have task : ∀ r ∈ o.rows db, wp api (owning r.Owns r.Touches) (o.syncRow r).run
      (fun res s => res = .ok () ∧ r.Written s.cluster) s := fun r hr =>
    wp_mono (wp_syncRow hc (rows_accepted hacc hr) (.inl rfl) (.inr rfl) (.inl (.inl rfl))
      (.inl (.inr rfl)) (.inr rfl)) fun _ _ h => ⟨h.1, h.2.1⟩
  rw [List.map_map]
  exact wp_refines (wp_refines (wp_allSettled_forall compat task) (all_owning_refines _ _ _))
    (owning_refines (fun _ _ => trivial) fun _ h => h)

/-! ## The stale pass -/

/-- What a stale pass may remove: the managed resources nobody expects, as they are
when it starts, and the Secrets such resources would have. -/
def StaleKey (plural : Kind) (expected : List String) (c : Cluster) (k : Key) : Prop :=
  (k.kind = plural ∧ k.name ∉ expected ∧ ∃ r, c.value k = some r ∧ r.managed) ∨
    ∃ name, name ∉ expected ∧ k = ⟨.secret, secretName plural name⟩

/-- No managed resource of the kind is left that nobody expects. -/
def Swept (plural : Kind) (expected : List String) (c : Cluster) : Prop :=
  ∀ k r, k.kind = plural → k.name ∉ expected → c.value k = some r → ¬r.managed

theorem mem_list_iff {c : Cluster} {plural : Kind} {name : String} :
    name ∈ (c.select fun k r => k.kind = plural && r.managed).map (·.name) ↔
      ∃ r, c.value ⟨plural, name⟩ = some r ∧ r.managed := by
  simp only [List.mem_map, VersionedStore.mem_select_iff, Bool.and_eq_true,
    decide_eq_true_eq, VersionedStore.value, Option.map_eq_some_iff]
  constructor
  · rintro ⟨⟨kind, name⟩, ⟨v, hv, rfl, hm⟩, rfl⟩
    exact ⟨v.value, ⟨v, hv, rfl⟩, hm⟩
  · rintro ⟨r, ⟨v, hv, rfl⟩, hm⟩
    exact ⟨⟨plural, name⟩, ⟨v, hv, rfl, hm⟩, rfl⟩

theorem nodup_list (c : Cluster) (plural : Kind) :
    ((c.select fun k r => k.kind = plural && r.managed).map (·.name)).Nodup := by
  refine List.Nodup.map_on ?_ (c.nodup_select _)
  rintro ⟨k, n⟩ hk ⟨k', n'⟩ hk' rfl
  simp only [VersionedStore.mem_select_iff, Bool.and_eq_true, decide_eq_true_eq] at hk hk'
  obtain ⟨-, -, rfl, -⟩ := hk
  obtain ⟨-, -, rfl, -⟩ := hk'
  rfl

theorem wp_deleteResource {plural : Kind} {name : String} (hc : o.clients = true)
    (hplural : plural ≠ .secret) (s : State) :
    wp api (owning (· = ⟨plural, name⟩)
        fun k => k = ⟨plural, name⟩ ∨ k = ⟨.secret, secretName plural name⟩)
      (o.deleteResource plural name).run
      (fun res s => res = .ok () ∧ s.cluster.lookup ⟨plural, name⟩ = none) s := by
  have run : (o.deleteResource plural name).run = (do
      deleteObject ⟨plural, name⟩
      deleteObject ⟨.secret, secretName plural name⟩ : Task Unit).run := by
    simp only [deleteResource, deleteSecret, hc, if_true]
  rw [run]
  refine wp_then (· = ⟨plural, name⟩) (· = ⟨.secret, secretName plural name⟩)
    (P := fun s => s.cluster.lookup ⟨plural, name⟩ = none) (fun _ h => .inl h)
    (fun _ h => .inr h) ?_ fun t ht => ?_
  · exact wp_mono (wp_deleteObject rfl) fun _ _ h => ⟨h.1, h.2 rfl⟩
  · refine wp_mono (wp_frame (wp_deleteObject rfl)) ?_
    rintro a u ⟨⟨rfl, -⟩, -, hframe⟩
    exact ⟨rfl, (hframe _ rfl fun e => hplural (congrArg Key.kind e)).trans ht⟩

/-- The computation succeeds whatever the others do, and `Q` holds of its value. -/
abbrev Succeeds {α : Type} (K : Contract Call State) (p : LooseTask α) (Q : α → State → Prop)
    (s : State) : Prop := Loose.Settles api K p Q (fun _ => False) s

theorem succeeds_ofAsync {α : Type} {K : Contract Call State} {p : Task α} {a : α}
    {Q : State → Prop} {s : State} (h : wp api K p.run (fun r t => r = .ok a ∧ Q t) s) :
    Succeeds K (.ofAsync p) (fun b t => b = a ∧ Q t) s := by
  refine Loose.settles_ofAsync (wp_mono h ?_)
  rintro _ t ⟨rfl, ht⟩
  exact ⟨rfl, ht⟩

theorem succeeds_frame {α : Type} {p : LooseTask α} {Q : α → State → Prop} {s : State}
    (h : Succeeds (owning own touch) p Q s) :
    Succeeds (owning own touch) p (fun a s' => Q a s' ∧ s'.db = s.db ∧
      ∀ k, own k → ¬touch k → s'.cluster.lookup k = s.cluster.lookup k) s := by
  refine wp_mono (wp_frame h) fun r t ht => ?_
  cases r with
  | ok a => exact ht
  | error x => exact ht.1

/-- Two concurrent computations that leave each other's keys alone. -/
theorem succeeds_both {α β : Type} {own' touch' : Key → Prop} {p : LooseTask α}
    {q : LooseTask β} {Q : α → State → Prop} {Q' : β → State → Prop} {s : State}
    (h : ∀ k, own k → ¬touch' k) (h' : ∀ k, own' k → ¬touch k)
    (hp : Succeeds (owning own touch) p Q s) (hq : Succeeds (owning own' touch') q Q' s) :
    Succeeds (owning (fun k => own k ∨ own' k) fun k => touch k ∨ touch' k) (.both p q)
      (fun x t => Q x.1 t ∧ Q' x.2 t) s :=
  Loose.settles_refines (Loose.settles_both (owning_compatible h h') hp hq)
    (par_owning_refines _ _ _ _)

theorem wp_deleteResources {plural : Kind} {names : List String} (hc : o.clients = true)
    (hplural : plural ≠ .secret) (hnames : names.Nodup) (s : State) :
    Succeeds (owning (fun k => ∃ n ∈ names, k = ⟨plural, n⟩)
        fun k => ∃ n ∈ names, k = ⟨plural, n⟩ ∨ k = ⟨.secret, secretName plural n⟩)
      (Loose.all (names.map fun name => .ofAsync (o.deleteResource plural name)))
      (fun _ s => ∀ n ∈ names, s.cluster.lookup ⟨plural, n⟩ = none) s := by
  have compat : names.Pairwise fun n n' =>
      (owning (· = ⟨plural, n⟩)
        fun k => k = ⟨plural, n⟩ ∨ k = ⟨.secret, secretName plural n⟩).Compatible
      (owning (· = ⟨plural, n'⟩)
        fun k => k = ⟨plural, n'⟩ ∨ k = ⟨.secret, secretName plural n'⟩) := by
    refine hnames.imp fun hne => owning_compatible ?_ ?_ <;> rintro _ rfl (e | e)
    · exact hne (congrArg Key.name e)
    · exact hplural (congrArg Key.kind e)
    · exact hne (congrArg Key.name e).symm
    · exact hplural (congrArg Key.kind e)
  refine Loose.settles_refines (Loose.settles_all compat fun n _ => ?_) (all_owning_refines _ _ _)
  exact Loose.settles_mono (succeeds_ofAsync (wp_deleteResource hc hplural s)) (fun _ _ h => h.2)
    fun _ => id

theorem wp_deleteStaleResources {plural : Kind} {expected : List String} {s : State}
    (hc : o.clients = true) (hplural : plural ≠ .secret) :
    Succeeds (owning (·.kind = plural) (StaleKey plural expected s.cluster))
      (o.deleteStaleResources plural expected)
      (fun _ s' => s.cluster.Named → Swept plural expected s'.cluster) s := by
  simp only [deleteStaleResources, hc, if_true]
  refine Loose.settles_bind (Loose.settles_ofAsync ?_)
  refine wp_call (fun t => ∀ k : Key, k.kind = plural →
      t.cluster.lookup k = s.cluster.lookup k)
    (fun _ _ => rfl) (fun t u ht hu k hk => (hu.2 k hk).trans (ht k hk)) fun t r u ht hr => ?_
  obtain ⟨rfl, rfl⟩ := Prod.mk.inj hr
  refine ⟨⟨rfl, fun _ _ => rfl⟩, fun v hv => wp_rely ?_ hv⟩
  have value : ∀ k : Key, k.kind = plural → t.cluster.value k = s.cluster.value k :=
    fun k hk => value_eq_of_lookup_eq (ht k hk)
  -- the names to delete are the unexpected managed ones, but for a missing name
  set names := ((t.cluster.select fun k r => k.kind = plural && r.managed).map
    (·.name)).filter fun n => n ≠ "" && !expected.contains n with hnames
  have mem : ∀ n, n ∈ names ↔ (n ≠ "" ∧ n ∉ expected) ∧
      ∃ r, s.cluster.value ⟨plural, n⟩ = some r ∧ r.managed := by
    intro n
    rw [hnames, List.mem_filter, mem_list_iff, value _ rfl, and_comm]
    simp
  have nodup : names.Nodup := (nodup_list t.cluster plural).filter _
  refine Loose.settles_map (Loose.settles_mono (succeeds_frame (Loose.settles_refines
    (wp_deleteResources hc hplural nodup t) (owning_refines ?_ ?_))) ?_ fun _ => id)
  · rintro k ⟨n, -, rfl⟩
    rfl
  · rintro k ⟨n, hn, rfl | rfl⟩
    · exact .inl ⟨rfl, ((mem n).mp hn).1.2, ((mem n).mp hn).2⟩
    · exact .inr ⟨n, ((mem n).mp hn).1.2, rfl⟩
  · rintro _ u ⟨hnone, -, hframe⟩ hnamed k r hk hne hr hm
    by_cases hs : StaleKey plural expected s.cluster k
    · rcases hs with ⟨-, -, r', hr', hm'⟩ | ⟨n, -, rfl⟩
      · have hsome : (s.cluster.lookup k).isSome := by
          rw [VersionedStore.value, Option.map_eq_some_iff] at hr'
          obtain ⟨v, hv, -⟩ := hr'
          rw [hv, Option.isSome_some]
        have hgone := hnone k.name ((mem k.name).mpr
          ⟨⟨hnamed k hsome, hne⟩, r', by rw [← hk]; exact hr', hm'⟩)
        rw [← hk] at hgone
        rw [VersionedStore.value, hgone] at hr
        cases hr
      · exact hplural hk.symm
    · refine hs (.inl ⟨hk, hne, r, ?_, hm⟩)
      rw [← hr, ← value k hk, value_eq_of_lookup_eq (hframe k hk hs)]

/-! ## The whole pass -/

theorem wp_findAll (s : State) :
    Succeeds (owning (fun _ => True) fun _ => False)
      (.both (.ofAsync (await .findServers)) (.ofAsync (await .findProxies)))
      (fun rows _ => rows = (s.db.servers, s.db.proxies)) s := by
  have servers : wp api (owning (fun _ => True) fun _ => False) (await .findServers).run
      (fun r _ => r = .ok s.db.servers ∧ True) s := by
    intro t ht r u hu
    obtain ⟨rfl, rfl⟩ := Prod.mk.inj hu
    exact ⟨⟨rfl, fun _ _ => rfl⟩, fun _ _ => ⟨congrArg (Except.ok ·.servers) ht.1, trivial⟩⟩
  have proxies : wp api (owning (fun _ => True) fun _ => False) (await .findProxies).run
      (fun r _ => r = .ok s.db.proxies ∧ True) s := by
    intro t ht r u hu
    obtain ⟨rfl, rfl⟩ := Prod.mk.inj hu
    exact ⟨⟨rfl, fun _ _ => rfl⟩, fun _ _ => ⟨congrArg (Except.ok ·.proxies) ht.1, trivial⟩⟩
  refine Loose.settles_mono (Loose.settles_refines (succeeds_both (fun _ _ => id) (fun _ _ => id)
    (succeeds_ofAsync servers) (succeeds_ofAsync proxies))
    (owning_refines (fun _ _ => trivial) fun _ h => h.elim id id)) ?_ fun _ => id
  exact fun _ _ h => Prod.ext h.1.1 h.2.1

theorem mapM_operatorResourceName {ι : Type} {l : List ι} {f : ι → String}
    (h : ∀ i ∈ l, resourceIdAccepted (f i)) :
    l.mapM (fun i => operatorResourceName (f i)) = .ok (l.map f) := by
  induction l with
  | nil => rfl
  | cons i l ih =>
    rw [List.mapM_cons, operatorResourceName_accepted (h i (by simp)),
      ih fun j hj => h j (by simp [hj])]
    rfl

theorem wp_sweep (db : Database) (hc : o.clients = true) (s : State) :
    Succeeds (owning (fun _ => True) fun _ => True)
      (.both (o.deleteStaleResources .minecraftservers (db.names .minecraftservers))
        (o.deleteStaleResources .reverseproxyservers (db.names .reverseproxyservers)))
      (fun _ s' => s'.db = s.db ∧ (s.cluster.Named →
        ∀ plural, plural ≠ .secret → Swept plural (db.names plural) s'.cluster) ∧
        ∀ k, (∀ plural, plural ≠ .secret → ¬StaleKey plural (db.names plural) s.cluster k) →
          s'.cluster.lookup k = s.cluster.lookup k) s := by
  have disjoint : ∀ plural plural' : Kind, plural ≠ .secret → plural ≠ plural' → ∀ k : Key,
      k.kind = plural → ¬StaleKey plural' (db.names plural') s.cluster k := by
    rintro plural plural' hs hne k rfl (⟨h, -⟩ | ⟨n, -, rfl⟩)
    · exact hne h
    · exact hs rfl
  have swept := succeeds_both (disjoint _ _ (by decide) (by decide))
    (disjoint .reverseproxyservers .minecraftservers (by decide) (by decide))
    (wp_deleteStaleResources (s := s) hc (by decide))
    (wp_deleteStaleResources hc (by decide))
  have framed := succeeds_frame (Loose.settles_refines swept
    (@owning_refines _ _ (fun _ => True) _ (fun _ _ => trivial) fun _ h => h))
  refine Loose.settles_mono (Loose.settles_refines framed
    (owning_refines (fun _ h => h) fun _ _ => trivial)) ?_ fun _ => id
  rintro _ t ⟨⟨hmc, hrp⟩, hdb, hframe⟩
  refine ⟨hdb, ?_, fun k hk => hframe k trivial ?_⟩
  · intro hnamed plural hplural
    cases plural with
    | secret => exact absurd rfl hplural
    | minecraftservers => exact hmc hnamed
    | reverseproxyservers => exact hrp hnamed
  · rintro (h | h)
    · exact hk _ (by decide) h
    · exact hk _ (by decide) h

/-- A row's objects are never stale. -/
theorem not_staleKey_of_mem_rows {r : Row} {plural : Kind} {c : Cluster} {k : Key}
    (hr : r ∈ o.rows db) (hplural : plural ≠ .secret) (hk : r.Owns k) :
    ¬StaleKey plural (db.names plural) c k := by
  have hmem := mem_names_of_mem_rows hr
  rcases hk with rfl | rfl
  · rintro (⟨h, -⟩ | ⟨n, hn, h⟩)
    · exact hplural h.symm
    · obtain ⟨hp, rfl⟩ := secretName_injective (congrArg Key.name h)
      exact hn (secretPrefix_injective r.custom hplural hp ▸ hmem)
  · rintro (⟨rfl, hn, -⟩ | ⟨n, -, h⟩)
    · exact hn hmem
    · exact r.custom (congrArg Key.kind h)

theorem synced_of_written {before after : Cluster}
    (hrows : ∀ r ∈ o.rows db, r.Written after)
    (hstale : ∀ plural, plural ≠ .secret → Swept plural (db.names plural) after)
    (huntouched : ∀ k, k.kind ≠ .secret → k.name ∉ db.names k.kind →
      (∀ r, before.value k = some r → ¬r.managed) → after.lookup k = before.lookup k) :
    Synced o db before after where
  servers s hs := by
    obtain ⟨hsecret, hresource⟩ :=
      hrows (o.serverRow s) (List.mem_append_left _ (List.mem_map_of_mem hs))
    exact ⟨congrArg (Option.bind · Resource.spec?) hresource,
      congrArg (Option.bind · Resource.apiKey?) hsecret⟩
  proxies p hp := by
    obtain ⟨hsecret, hresource⟩ :=
      hrows (o.proxyRow p) (List.mem_append_right _ (List.mem_map_of_mem hp))
    exact ⟨congrArg (Option.bind · Resource.spec?) hresource,
      congrArg (Option.bind · Resource.apiKey?) hsecret⟩
  stale k r hk hr hm := by
    by_contra hn
    exact hstale k.kind hk k r rfl hn hr hm
  untouched := huntouched

/-- What no row is about, the tasks of the rows leave alone. -/
theorem not_touches_of_not_mem_names {r : Row} {k : Key} (hr : r ∈ o.rows db)
    (hk : k.kind ≠ .secret) (hn : k.name ∉ db.names k.kind) : ¬r.Touches k := by
  rintro ((rfl | rfl) | rfl)
  · exact hk rfl
  · exact hn (mem_names_of_mem_rows hr)
  · exact hk rfl

theorem Cluster.Named.of_written {c c' : Cluster} (hc : c.Named) (hacc : db.Accepted)
    (hrows : ∀ k, (∀ r ∈ o.rows db, ¬r.Touches k) → c'.lookup k = c.lookup k) :
    c'.Named := by
  intro k hk hname
  by_cases h : ∃ r ∈ o.rows db, r.Touches k
  · obtain ⟨r, hr, (rfl | rfl) | rfl⟩ := h
    · have hl := congrArg String.toList hname
      simp [Row.secretKey, secretName] at hl
    · have hid := rows_accepted hacc hr
      rw [show r.id = "" from hname] at hid
      exact absurd hid (by decide)
    · have hl := congrArg String.toList hname
      simp [Row.legacyKey, legacySecretName] at hl
  · exact hc k (hrows k (fun r hr ht => h ⟨r, hr, ht⟩) ▸ hk) hname

/-- The tasks of the rows are awaited together, and none of them fails. -/
theorem wp_awaitTasks {K : Contract Call State} {s t : State}
    {Q : List (Except Error Unit) → State → Prop}
    (h : wp api K (Prog.allSettled (((o.rows s.db).map o.syncRow).map ExceptT.run)) Q t) :
    Succeeds K (.ofAsync (Async.allSettled
      (s.db.servers.map o.syncServer ++ s.db.proxies.map o.syncReverseProxy))) Q t := by
  rw [syncTasks_eq]
  exact Loose.settles_ofAsync (wp_map.mpr h)

theorem wp_syncPass (hc : o.clients = true) {s : State} (hacc : s.db.Accepted)
    (hclash : s.db.NoLegacyClash) (hnamed : s.cluster.Named) :
    Succeeds (owning (fun _ => True) fun _ => True) o.syncPass
      (fun failures s' => failures = [] ∧ Synced o s.db s.cluster s'.cluster) s := by
  have all : ∀ {touch : Key → Prop}, (owning (fun _ => True) touch).Refines
      (owning (fun _ => True) fun _ => True) :=
    owning_refines (fun _ h => h) fun _ _ => trivial
  refine Loose.settles_bind (Loose.settles_mono (Loose.settles_refines
    (succeeds_frame (wp_findAll s)) all) ?_ fun _ => id)
  rintro _ t ⟨rfl, hdb, hfind⟩
  have hct : t.cluster.Named := fun k hk => hnamed k (by rwa [← hfind k trivial id])
  refine Loose.settles_bind (Loose.settles_mono (wp_awaitTasks
    (wp_refines (wp_frame (wp_syncTasks hc hacc hclash t)) all)) ?_ fun _ => id)
  rintro rs u ⟨⟨hok, hrows⟩, -, htasks⟩
  have hfail : Async.failures rs = [] :=
    Async.failures_eq_nil_iff.mpr fun r hr => ⟨(), hok r hr⟩
  have hcu : u.cluster.Named := hct.of_written hacc fun k hk => htasks k trivial
    fun ⟨r, hr, ht⟩ => hk r hr ht
  simp only [hfail, List.isEmpty_nil, Bool.not_true, Bool.false_eq_true, if_false,
    mapM_operatorResourceName hacc.1, mapM_operatorResourceName hacc.2]
  refine Loose.settles_map (Loose.settles_mono (wp_sweep s.db hc u) ?_ fun _ => id)
  rintro _ w ⟨-, hswept, hsweep⟩
  have hkeep : ∀ k, (∀ plural, plural ≠ .secret →
      ¬StaleKey plural (s.db.names plural) u.cluster k) →
      w.cluster.lookup k = u.cluster.lookup k := hsweep
  refine ⟨rfl, synced_of_written (fun r hr => ?_) (hswept hcu) fun k hk hn hb => ?_⟩
  · have keep : ∀ k, r.Owns k → w.cluster.value k = u.cluster.value k := fun k hk =>
      value_eq_of_lookup_eq (hkeep k fun plural hp => not_staleKey_of_mem_rows hr hp hk)
    exact ⟨(keep _ (.inl rfl)).trans (hrows r hr).1, (keep _ (.inr rfl)).trans (hrows r hr).2⟩
  · have hbefore : u.cluster.lookup k = s.cluster.lookup k :=
      (htasks k trivial fun ⟨r, hr, ht⟩ => not_touches_of_not_mem_names hr hk hn ht).trans
        (hfind k trivial id)
    refine (hkeep k ?_).trans hbefore
    rintro plural hp (⟨-, -, r, hr, hm⟩ | ⟨n, -, rfl⟩)
    · exact hb r ((value_eq_of_lookup_eq hbefore).symm.trans hr) hm
    · exact hk rfl

/-- The state a synchronization starts in. -/
def State.idle (db : Database) (c : Cluster) : State := ⟨db, c, false⟩

/-- The contract of a program that runs alone. -/
abbrev solo : Contract Call State := .alone fun _ _ _ => True

theorem refines_solo (K : Contract Call State) : K.Refines solo :=
  ⟨fun s _ h => h ▸ K.refl s, fun _ _ _ _ => trivial⟩

/-- The release of the flag touches neither rows nor objects. -/
def releasing : Contract Call State where
  rely _ _ := True
  guar _ s s' := s'.db = s.db ∧ s'.cluster = s.cluster
  refl _ := trivial
  trans _ _ _ _ _ := trivial

theorem owning_compatible_releasing : (owning own touch).Compatible releasing :=
  ⟨fun _ _ _ _ => trivial, fun _ _ _ h => ⟨h.1, fun _ _ => by rw [h.2]⟩⟩

theorem wp_releaseSync {α : Type} {K : Contract Call State} {a : α}
    {Q : Except Error α → State → Prop} {s : State} (hguar : ∀ s, K.guar .releaseSync s { s with syncing := false })
    (hQ : ∀ t, K.rely s t → ∀ u, K.rely { t with syncing := false } u → Q (.ok a) u) :
    wp api K (await .releaseSync >>= fun _ => pure a : Task α).run Q s := by
  simp only [Async.run_bind, await, Async.await, ExceptT.run_mk, Prog.lift_bind]
  intro t ht r u hr
  obtain ⟨rfl, rfl⟩ := Prod.mk.inj hr
  exact ⟨hguar t, hQ t ht⟩

theorem Synced.congr {before c c' : Cluster} (h : Synced o db before c)
    (hc : ∀ k, c'.lookup k = c.lookup k) : Synced o db before c' where
  servers s hs := by
    rw [value_eq_of_lookup_eq (hc _), value_eq_of_lookup_eq (hc _)]
    exact h.servers s hs
  proxies p hp := by
    rw [value_eq_of_lookup_eq (hc _), value_eq_of_lookup_eq (hc _)]
    exact h.proxies p hp
  stale k r hk hr := h.stale k r hk ((value_eq_of_lookup_eq (hc k)).symm.trans hr)
  untouched k hk hn hb := (hc k).trans (h.untouched k hk hn hb)

theorem wp_syncAll (hc : o.clients = true) {c : Cluster} (hacc : db.Accepted)
    (hclash : db.NoLegacyClash) (hnamed : c.Named) :
    wp api solo o.syncAll.run
      (fun res s' => res = .ok [] ∧ Synced o db c s'.cluster) (.idle db c) := by
  simp only [syncAll, hc, Bool.not_true, Bool.false_eq_true, if_false, Async.run_bind, await,
    Async.await, ExceptT.run_mk, Prog.lift_bind]
  rintro _ rfl _ _ hr
  obtain ⟨rfl, rfl⟩ := Prod.mk.inj hr
  refine ⟨trivial, ?_⟩
  simp only [State.idle, Bool.not_false, Bool.not_true, Bool.false_eq_true, if_false]
  refine wp_refines (Loose.wp_settle owning_compatible_releasing (Loose.settles_mono
    (wp_syncPass hc hacc hclash hnamed) ?_ fun _ => id) fun e t => ?_) (refines_solo _)
  · rintro _ t ⟨rfl, ht⟩
    refine wp_releaseSync (fun _ => .inr ⟨rfl, rfl⟩) fun u hu v hv => ⟨rfl, ht.congr fun k => ?_⟩
    exact (hv.1.2 k trivial).trans (hu.1.2 k trivial)
  · exact wp_releaseSync (fun _ => ⟨rfl, rfl⟩) fun _ _ _ _ h => h.elim

/-! ## The clash -/

theorem reaches_of_owning {α : Type} {p : Prog Call (Settled Error Answer) α}
    {Q : α → State → Prop} {s : State} (h : wp api (owning own touch) p Q s) :
    Reaches api Quiet p s Q :=
  reaches_of_wp api_total (fun _ _ h => h.elim) h

theorem reaches_of_succeeds {α : Type} {p : LooseTask α} {Q : α → State → Prop} {s : State}
    (h : Succeeds (owning own touch) p Q s) :
    Reaches api Quiet p.run s fun r t => ∃ a, r = .ok a ∧ Q a t := by
  refine (reaches_of_owning h).mono fun r t ht => ?_
  cases r with
  | ok a => exact ⟨a, rfl, ht⟩
  | error x =>
    -- what is left would have to end, and cannot
    obtain ⟨_, _, _, hfalse⟩ := reaches_of_owning ht
    exact hfalse.elim

/-- When a former name is a present one, the task that removes it may come last. -/
theorem reaches_unsynced (hc : o.clients = true) (hacc : db.Accepted) {r r' : Row}
    (hr : r ∈ o.rows db) (hr' : r' ∈ o.rows db) (hclash : r'.legacyKey = r.secretKey) :
    Reaches api Quiet o.syncAll.run (.idle db .empty)
      (fun res s' => res = .ok [] ∧ s'.cluster.lookup r.secretKey = none) := by
  have task : ∀ r ∈ o.rows db, ∀ s, Reaches api Quiet (o.syncRow r).run s
      (fun res s' => res = .ok () ∧ s'.cluster.lookup r.legacyKey = none) := fun r hr s =>
    (reaches_of_owning (@wp_syncRow (fun _ => True) (fun _ => True) o r s hc (rows_accepted hacc hr)
      trivial trivial trivial trivial trivial)).mono
        fun _ _ h => ⟨h.1, h.2.2 trivial⟩
  have tasks : ∀ s, Reaches api Quiet
      (Prog.allSettled (((o.rows db).map o.syncRow).map ExceptT.run)) s
      (fun rs s' => (∀ res ∈ rs, res = .ok ()) ∧ s'.cluster.lookup r.secretKey = none) := by
    intro s
    rw [List.map_map]
    refine Reaches.allSettled_last (List.mem_map_of_mem hr') ?_ fun s => ?_
    · intro p hp s
      obtain ⟨q, hq, rfl⟩ := List.mem_map.mp hp
      exact (task q hq s).mono fun _ _ h => h.1
    · exact (task r' hr' s).mono fun _ _ h => ⟨h.1, hclash ▸ h.2⟩
  have pass : ∀ s : State, s.db = db → Reaches api Quiet o.syncPass.run s
      (fun res s' => res = .ok [] ∧ s'.cluster.lookup r.secretKey = none) := by
    rintro s rfl
    simp only [syncPass, Loose.run_bind]
    refine .bind ((reaches_of_succeeds (wp_findAll s)).mono ?_)
    rintro _ t ⟨_, rfl, rfl⟩
    simp only [syncTasks_eq, Loose.ofAsync, Async.allSettled, ExceptT.run_mk]
    refine .bind (.bind (.bind ((tasks t).mono ?_)))
    rintro rs u ⟨hok, hnone⟩
    have hfail : Async.failures rs = [] :=
      Async.failures_eq_nil_iff.mpr fun r hr => ⟨(), hok r hr⟩
    refine .pure (.pure ?_)
    simp only [Except.mapError, hfail, List.isEmpty_nil, Bool.not_true, Bool.false_eq_true,
      if_false, Loose.run_bind, ExceptT.run_mk, Task.run_ofExcept,
      mapM_operatorResourceName hacc.1, mapM_operatorResourceName hacc.2, Prog.pure_bind]
    refine .bind ((reaches_of_succeeds (wp_sweep s.db hc u)).mono ?_)
    rintro _ v ⟨_, rfl, -, -, hsweep⟩
    exact .pure ⟨rfl, (hsweep _ fun plural hp =>
      not_staleKey_of_mem_rows hr hp (.inl rfl)).trans hnone⟩
  simp only [syncAll, hc, Bool.not_true, Bool.false_eq_true, if_false, Async.run_bind, await,
    Async.await, ExceptT.run_mk, Prog.lift_bind]
  refine .call rfl ?_
  simp only [State.idle, Bool.not_false, Bool.not_true, Bool.false_eq_true, if_false,
    Loose.settle, ExceptT.run_mk]
  refine .bind ((pass _ rfl).mono ?_)
  rintro _ t ⟨rfl, ht⟩
  exact .call rfl (.pure ⟨rfl, ht⟩)

theorem legacyKey_eq_of_clash (h : ¬db.NoLegacyClash) :
    ∃ r ∈ o.rows db, ∃ r' ∈ o.rows db, r'.legacyKey = r.secretKey := by
  have row : ∀ id ∈ db.servers.map (·.id) ++ db.proxies.map (·.id),
      ∃ r' ∈ o.rows db, r'.id = id := by
    intro id hid
    rcases List.mem_append.mp hid with h | h <;> obtain ⟨x, hx, rfl⟩ := List.mem_map.mp h
    · exact ⟨_, List.mem_append_left _ (List.mem_map_of_mem hx), rfl⟩
    · exact ⟨_, List.mem_append_right _ (List.mem_map_of_mem hx), rfl⟩
  simp only [Database.NoLegacyClash, not_forall, not_and_or, not_not] at h
  obtain ⟨id, hid, ⟨s, hs, rfl⟩ | ⟨p, hp, rfl⟩⟩ := h
  · obtain ⟨r', hr', he⟩ := row _ hid
    refine ⟨o.serverRow s, List.mem_append_left _ (List.mem_map_of_mem hs), r', hr', ?_⟩
    exact congrArg (Key.mk .secret) (legacySecretName_eq_iff.mpr he)
  · obtain ⟨r', hr', he⟩ := row _ hid
    refine ⟨o.proxyRow p, List.mem_append_right _ (List.mem_map_of_mem hp), r', hr', ?_⟩
    exact congrArg (Key.mk .secret) (legacySecretName_eq_iff.mpr he)

theorem Synced.secret_of_mem_rows {before after : Cluster} (h : Synced o db before after)
    {r : Row} (hr : r ∈ o.rows db) : (after.lookup r.secretKey).isSome := by
  have some_of_bind : ∀ {k : Key} {a : String},
      (after.value k).bind Resource.apiKey? = some a → (after.lookup k).isSome := by
    intro k a ha
    cases hk : after.lookup k with
    | none =>
      rw [VersionedStore.value, hk] at ha
      cases ha
    | some v => rfl
  rcases mem_rows_iff.mp hr with ⟨s, hs, rfl⟩ | ⟨p, hp, rfl⟩
  · exact some_of_bind (h.servers s hs).2
  · exact some_of_bind (h.proxies p hp).2

theorem Named_empty : Cluster.Named .empty := fun k h => by simp at h

/-- A run of `syncAll` that logs no failure makes the cluster match the database,
from whatever cluster it starts and however its tasks interleave, exactly when no
former Secret name of a row is the present one of another. -/
theorem syncAll_matches_database_iff (hc : o.clients = true) (hacc : db.Accepted) :
    (∀ (c : Cluster) (s' : State), c.Named →
      Steps api Quiet (o.syncAll.run, .idle db c) (.pure (.ok []), s') →
      Synced o db c s'.cluster) ↔ db.NoLegacyClash := by
  constructor
  · intro h
    by_contra hclash
    obtain ⟨r, hr, r', hr', he⟩ := legacyKey_eq_of_clash (o := o) hclash
    obtain ⟨_, s', run, rfl, hnone⟩ := reaches_unsynced hc hacc hr hr' he
    have hsome := (h .empty s' Named_empty run).secret_of_mem_rows hr
    rw [hnone] at hsome
    cases hsome
  · intro hclash c s' hnamed run
    exact (wp_result (wp_syncAll hc hacc hclash hnamed) (fun _ _ h => h.elim) run).2

/-- Two servers whose ids differ by the prefix of Secret names. -/
def clashingServers : Database where
  servers := [.ofInput { id := "a", listenPort := 25565, type := .stateful } "key-a",
    .ofInput { id := "mc-a", listenPort := 25565, type := .stateful } "key-mc-a"]
  proxies := []
  serverKeys := by decide
  proxyKeys := by decide

theorem syncAll_loses_secret : clashingServers.Accepted ∧
    ¬∀ (c : Cluster) (s' : State), c.Named →
      Steps api Quiet (({} : OperatorResourceSync).syncAll.run, .idle clashingServers c)
        (.pure (.ok []), s') → Synced {} clashingServers c s'.cluster := by
  have hacc : clashingServers.Accepted := by decide
  refine ⟨hacc, fun h => ?_⟩
  have clash : ¬clashingServers.NoLegacyClash := by decide
  obtain ⟨r, hr, r', hr', he⟩ := legacyKey_eq_of_clash (o := {}) clash
  obtain ⟨_, s', run, rfl, hnone⟩ := reaches_unsynced rfl hacc hr hr' he
  have hsome := (h .empty s' Named_empty run).secret_of_mem_rows hr
  rw [hnone] at hsome
  cases hsome

theorem syncAll_matches_database_iff_clashing :
    (∀ (c : Cluster) (s' : State), c.Named →
      Steps api Quiet (({} : OperatorResourceSync).syncAll.run, .idle clashingServers c)
        (.pure (.ok []), s') → Synced {} clashingServers c s'.cluster) ↔
      clashingServers.NoLegacyClash :=
  syncAll_matches_database_iff rfl (by decide)

end Minikura.Backend
