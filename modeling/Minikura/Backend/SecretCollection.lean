import Minikura.Backend.Orphans

/-!
# The Secrets of deleted rows

Requests that create, update and delete servers and proxies run beside synchronizations, and
requests to the cluster fail. When all is quiet again, a synchronization that succeeds is to
collect the Secrets of the rows that are gone.

## Main results

* `careful_request` — every request mends the faults it causes.
* `clean_of_requests` — no orphan is left by requests whose failures spare the Secrets.
* `secrets_are_collected` — a synchronization collects what they leave.
-/

namespace Minikura.Backend
open Concurrency OperatorResourceSync

/-! ## Rows -/

/-- The runs that spare the Secrets and keep the objects sound. -/
abbrev soundly : Handler Action (Settled Error Action.Answer) Installation :=
  sparing.restrict fun _ s _ s' => Sound s.toState ∧ Sound s'.toState

def Action.Fits : Action → Prop
  | .call c => c.Fits
  | _ => True

abbrev CarefulRow {α : Type} (p : RowTask α) : Prop :=
  Careful soundly Fault.In Action.Fits p.run

section Rows

variable {α : Type} {o : OperatorResourceSync} {plural : Kind} {id : String} {D : Set Fault}

theorem mends_onRows {p : Task α} {Q : Except Error α → Set Fault}
    (h : Mends sparingApi Fault.In D p.run Q) : Mends soundly Fault.In D p.onRows.run Q := by
  refine mends_translate (mends_handler h ?_)
  rintro c s r s' ⟨a, ha, hr⟩
  exact ⟨a, ha.1, hr⟩

theorem careful_onRows {p : Task α} (h : CarefulTask p) : CarefulRow p.onRows :=
  ⟨mends_onRows h.tidy, h.only.translate fun _ hc => hc⟩

/-- An action that is no request to the cluster does what it is asked. -/
theorem perform_of_soundly {a : Action} {s s' : Installation} {r : Settled Error Action.Answer a}
    (ha : a.requestsCluster = false) (h : soundly a s r s') : performForeground a s = (r, s') := by
  refine h.1.1.2.resolve_left ?_
  rw [ha]
  exact Bool.false_ne_true

/-- The state is as it was, but for the names in `gone`, whose rows may be gone. -/
structure Edits (gone : Kind → String → Prop) (s s' : State) : Prop where
  cluster : s'.cluster = s.cluster
  syncing : s'.syncing = s.syncing
  names : ∀ kind name, name ∈ s.db.names kind → name ∈ s'.db.names kind ∨ gone kind name

/-- A query on rows, which has nothing to do with what is being deleted. -/
structure Action.Queries (a : Action) (gone : Kind → String → Prop) : Prop where
  rows : ∀ s : Installation, performForeground a s = s.withState (perform a s.toState)
  silent : a.requestsCluster = false
  edits : ∀ s, Edits gone s (perform a s).2

theorem fault_of_query {a : Action} {gone : Kind → String → Prop} {s s' : Installation}
    {r : Settled Error Action.Answer a} {f : Fault} (ha : a.Queries gone)
    (h : soundly a s r s') (hf : f.In s') :
    f.In s ∨ ∃ plural id, f = .orphan plural id ∧ gone plural id := by
  have hs' : s' = (s.withState (perform a s.toState)).2 := by
    rw [← ha.rows]
    exact (congrArg Prod.snd (perform_of_soundly ha.silent h)).symm
  subst hs'
  have hedits : Edits gone s.toState (perform a s.toState).2 := ha.edits s.toState
  cases f with
  | syncing => exact .inl (hedits.syncing.symm.trans hf)
  | orphan plural id =>
    by_cases hrow : id ∈ s.db.names plural
    · exact .inr ⟨plural, id, rfl, (hedits.names plural id hrow).resolve_left hf.row⟩
    · have hlive : ¬s.Live ⟨plural, id⟩ := fun hlive =>
        hf.resource ⟨hedits.cluster.symm ▸ hlive.1, hlive.2⟩
      exact .inl ⟨hf.custom, hrow, hlive, hedits.cluster ▸ hf.secret⟩

/-- A query that removes no row. -/
theorem careful_query {a : Action} (ha : a.Queries fun _ _ => False) (hfits : a.Fits) :
    CarefulRow (query a) := by
  refine ⟨mends_call (fun _ => ∅) (fun s r s' f h hf hs => ?_) fun _ => subset_rfl,
    Async.only_await hfits⟩
  rcases fault_of_query ha h hf with hold | ⟨_, _, -, hgone⟩
  · exact hs.elim id fun hs => absurd hold hs
  · exact hgone.elim

/-- The Secret of an orphan was written for an id that may name a resource. -/
theorem accepted_of_orphaned {s : Installation} (hs : Sound s.toState)
    (h : Orphaned plural id s) : resourceIdAccepted id := by
  obtain ⟨r, hr, hmanaged⟩ := h.secret
  obtain ⟨plural', id', hplural, haccepted, hkey, -⟩ :=
    (hs _ r hr).secret rfl hmanaged
  exact (secretOf_injective h.custom hplural hkey).2 ▸ haccepted

/-- After a row is removed, its event's handler deletes what the row has in the cluster. -/
theorem careful_deletion {a : Action} {f : a.Answer → RowTask Unit}
    (ha : a.Queries fun kind name => kind = plural ∧ name = id) (hfits : a.Fits)
    (herror : ∀ s e, (perform a s).1 = .error e → (perform a s).2 = s)
    (hmends : ∀ r, Mends soundly Fault.In {f | f = .orphan plural id ∧ resourceIdAccepted id}
      (f r).run fun _ => ∅)
    (honly : ∀ r, (f r).run.Only Action.Fits) : CarefulRow (query a >>= f) := by
  refine ⟨?_, Async.only_bind (Async.only_await hfits) honly⟩
  rw [query, Async.run_bind]
  refine mends_bind (mends_call (fun
    | .ok _ => {f | f = .orphan plural id ∧ resourceIdAccepted id}
    | .error _ => ∅) (fun s r s' f h hf hs => ?_) fun _ => subset_rfl) fun r => ?_
  · have hnew : ¬f.In s := hs.resolve_left fun h => h
    cases r with
    | error e =>
      have hperform := perform_of_soundly ha.silent h
      rw [ha.rows] at hperform
      obtain ⟨hanswer, rfl⟩ := Prod.mk.inj hperform
      rw [herror s.toState e hanswer] at hf
      exact absurd hf hnew
    | ok b =>
      obtain ⟨_, _, rfl, rfl, rfl⟩ := (fault_of_query ha h hf).resolve_left hnew
      exact ⟨rfl, accepted_of_orphaned h.2.2 hf⟩
  · cases r with
    | ok b => exact hmends b
    | error e => exact subset_rfl

/-- `deleteServer` and `deleteReverseProxy` -/
theorem mends_deleteById (hc : o.clients = true) (plural : Kind) (id : String) :
    Mends sparingApi Fault.In {f | f = .orphan plural id ∧ resourceIdAccepted id}
      (do
        o.requireClients
        o.deleteResource plural (← Task.ofExcept (operatorResourceName id)) : Task Unit).run
      fun _ => ∅ := by
  simp only [requireClients, hc, if_true, Async.run_bind, Task.run_ofExcept, Prog.pure_bind,
    Async.run_pure]
  by_cases hid : resourceIdAccepted id
  · rw [operatorResourceName_accepted hid]
    exact mends_mono (mends_deleteResource hc) (fun f hf => .inl hf.1) fun _ => subset_rfl
  · cases hname : operatorResourceName id with
    | ok name => exact absurd (accepted_of_operatorResourceName hname) hid
    | error e => exact fun f hf => hid hf.2

theorem careful_deleteById (hc : o.clients = true) (plural : Kind) (id : String) :
    CarefulTask (do
      o.requireClients
      o.deleteResource plural (← Task.ofExcept (operatorResourceName id))) :=
  .async_bind careful_requireClients fun _ =>
    .async_bind .pure fun _ => careful_deleteResource hc plural _

theorem mends_publish {handler : Task Unit}
    (h : Mends sparingApi Fault.In D handler.run fun _ => ∅) :
    Mends sparingApi Fault.In D (publish handler).run fun _ => ∅ := by
  rw [publish, Async.run_bind, Async.run_attempt, Prog.bind_assoc]
  exact mends_bind h fun _ => subset_rfl

theorem names_setProxy (db : Database) (row : ReverseProxy) (kind : Kind) :
    (db.setProxy row).names kind = db.names kind := by
  cases kind with
  | reverseproxyservers => exact Database.map_id_setProxy db.proxies row
  | _ => rfl

theorem edits_updateProxy (s : State) (id : String) (f : ReverseProxy → ReverseProxy) :
    Edits (fun _ _ => False) s (s.updateProxy id f).2 := by
  unfold State.updateProxy
  split
  · exact ⟨rfl, rfl, fun _ _ => .inl⟩
  · split_ifs
    · exact ⟨rfl, rfl, fun kind _ h => .inl ((names_setProxy s.db _ kind).symm ▸ h)⟩
    · exact ⟨rfl, rfl, fun _ _ => .inl⟩

theorem edits_editProxy (s : State) (id : String) (f : ReverseProxy → ReverseProxy) :
    Edits (fun _ _ => False) s (s.editProxy id f) := by
  unfold State.editProxy
  split
  · exact ⟨rfl, rfl, fun _ _ => .inl⟩
  · exact ⟨rfl, rfl, fun kind _ h => .inl ((names_setProxy s.db _ kind).symm ▸ h)⟩

theorem names_removeServer (db : Database) (id : String) {kind : Kind} {name : String}
    (h : name ∈ db.names kind) :
    name ∈ (db.removeServer id).names kind ∨ kind = .minecraftservers ∧ name = id := by
  cases kind with
  | minecraftservers =>
    obtain ⟨row, hrow, rfl⟩ := List.mem_map.mp h
    by_cases hid : row.id = id
    · exact .inr ⟨rfl, hid⟩
    · exact .inl (List.mem_map_of_mem (List.mem_filter.mpr ⟨hrow, by simpa using hid⟩))
  | _ => exact .inl h

theorem names_removeProxy (db : Database) (id : String) {kind : Kind} {name : String}
    (h : name ∈ db.names kind) :
    name ∈ (db.removeProxy id).names kind ∨ kind = .reverseproxyservers ∧ name = id := by
  cases kind with
  | reverseproxyservers =>
    obtain ⟨row, hrow, rfl⟩ := List.mem_map.mp h
    by_cases hid : row.id = id
    · exact .inr ⟨rfl, hid⟩
    · exact .inl (List.mem_map_of_mem (List.mem_filter.mpr ⟨hrow, by simpa using hid⟩))
  | _ => exact .inl h

theorem edits_deleteServer (s : State) (id : String) :
    Edits (fun kind name => kind = .minecraftservers ∧ name = id) s
      (perform (.deleteServer id) s).2 := by
  simp only [perform]
  split_ifs
  · exact ⟨rfl, rfl, fun _ _ => names_removeServer s.db id⟩
  · exact ⟨rfl, rfl, fun _ _ => .inl⟩

theorem edits_deleteProxy (s : State) (id : String) :
    Edits (fun kind name => kind = .reverseproxyservers ∧ name = id) s
      (perform (.deleteProxy id) s).2 := by
  simp only [perform]
  split_ifs
  · exact ⟨rfl, rfl, fun _ _ => names_removeProxy s.db id⟩
  · exact ⟨rfl, rfl, fun _ _ => .inl⟩

theorem careful_deleteServer (hc : o.clients = true) (id : String) :
    CarefulRow (ServerService.delete o id) := by
  refine careful_deletion ⟨fun _ => rfl, rfl, (edits_deleteServer · id)⟩ trivial (fun s e h => ?_)
    (fun _ => mends_onRows (mends_publish (mends_deleteById hc .minecraftservers id)))
    fun _ => (careful_onRows (careful_publish (careful_deleteById hc .minecraftservers id))).only
  simp only [perform] at h ⊢
  split_ifs at h ⊢
  rfl

theorem careful_deleteReverseProxy (hc : o.clients = true) (id : String) :
    CarefulRow (ReverseProxyService.delete o id) := by
  refine careful_deletion ⟨fun _ => rfl, rfl, (edits_deleteProxy · id)⟩ trivial (fun s e h => ?_)
    (fun _ => mends_onRows (mends_publish (mends_deleteById hc .reverseproxyservers id)))
    fun _ => (careful_onRows (careful_publish
      (careful_deleteById hc .reverseproxyservers id))).only
  simp only [perform] at h ⊢
  split_ifs at h ⊢
  rfl

theorem careful_syncProxyEvent (hc : o.clients = true) (id : String) :
    CarefulRow (publish (o.syncReverseProxyById id)).onRows :=
  careful_onRows (careful_publish (careful_syncReverseProxyById hc id))

theorem careful_updateReverseProxy (hc : o.clients = true) (id : String)
    (input : Routes.UpdateReverseProxyInput) :
    CarefulRow (ReverseProxyService.update o id input) := by
  refine .async_bind (.async_bind (careful_onRows (careful_await ⟨rfl, fun _ _ h => h.elim⟩))
    fun row => ?_) fun _ => .async_bind (careful_syncProxyEvent hc id) fun _ => .pure
  cases row with
  | none => exact .pure
  | some row => exact careful_query ⟨fun _ => rfl, rfl, fun s => edits_updateProxy s id _⟩ trivial

/-- Every request mends the faults it causes, if the failures spare the Secrets. -/
theorem careful_request (hc : o.clients = true) (request : RowRequest) :
    CarefulRow (request.task o) := by
  cases request with
  | createServer input token =>
    exact .async_bind (careful_onRows (careful_createServer hc input token)) fun _ => .pure
  | createReverseProxy input token =>
    exact .async_bind (careful_onRows (careful_createReverseProxy hc input token)) fun _ => .pure
  | updateServer id input =>
    exact .async_bind (careful_onRows (careful_updateServer hc id input)) fun _ => .pure
  | updateReverseProxy id input =>
    exact .async_bind (careful_updateReverseProxy hc id input) fun _ => .pure
  | setServerEnvVariable id key value =>
    exact careful_onRows (careful_setEnvVariable hc id key value)
  | deleteServerEnvVariable id key => exact careful_onRows (careful_deleteEnvVariable hc id key)
  | setProxyEnvVariable id key value =>
    exact .async_bind (careful_query ⟨fun _ => rfl, rfl, fun s => edits_updateProxy s id _⟩ trivial)
      fun _ => careful_syncProxyEvent hc id
  | deleteProxyEnvVariable id key =>
    exact .async_bind (careful_query ⟨fun _ => rfl, rfl, fun s => edits_editProxy s id _⟩ trivial)
      fun _ => careful_syncProxyEvent hc id
  | deleteServer id => exact careful_deleteServer hc id
  | deleteReverseProxy id => exact careful_deleteReverseProxy hc id
  | syncAll => exact .async_bind (careful_onRows (careful_syncAll hc)) fun _ => .pure

end Rows

/-! ## Collection -/

section Collection

variable {o : OperatorResourceSync} {s s' t : Installation}

/-- Every Secret with the label of the backend has a `database-id` that names a row. -/
def Collected (s : State) : Prop :=
  ∀ k r, k.kind = .secret → s.cluster.value k = some r → r.managed →
    ∃ id, r.labels.lookup "minikura.kirameki.cafe/database-id" = some id ∧
      (id ∈ s.db.names .minecraftservers ∨ id ∈ s.db.names .reverseproxyservers)

/-- Nothing is under way and no Secret is orphaned. -/
structure Clean (s : Installation) : Prop where
  sound : Sound s.toState
  idle : s.syncing = false
  whole : ∀ plural id, ¬Orphaned plural id s

theorem Clean.faultless (h : Clean s) (f : Fault) : ¬f.In s := by
  cases f with
  | syncing => exact fun hf => Bool.false_ne_true (h.idle.symm.trans hf)
  | orphan plural id => exact h.whole plural id

theorem clean_of_faultless (hs : Sound s.toState) (h : ∀ f : Fault, ¬f.In s) : Clean s :=
  ⟨hs, Bool.eq_false_iff.mpr (h .syncing), fun plural id => h (.orphan plural id)⟩

theorem sound_foreground {c : Call} (hc : c.Fits) (hs : Sound s.toState) :
    Sound (performForeground (.call c) s).2.toState := by
  rcases performForeground_cases c s with ⟨k, -, -, -, h⟩ | ⟨h, -⟩ <;> rw [h]
  · exact hs
  · exact sound_handle hc hs

theorem sound_perform {a : Action} (ha : a.Fits) (hs : Sound s.toState) :
    Sound (performForeground a s).2.toState := by
  have edited : ∀ {gone : Kind → String → Prop} {u : State}, Edits gone s.toState u → Sound u :=
    fun h key r hr => hs key r (h.cluster ▸ hr)
  cases a with
  | call c => exact sound_foreground ha hs
  | deleteServer id => exact edited (edits_deleteServer s.toState id)
  | deleteProxy id => exact edited (edits_deleteProxy s.toState id)
  | updateProxy id input => exact edited (edits_updateProxy s.toState id _)
  | upsertProxyEnvVariable id key value => exact edited (edits_updateProxy s.toState id _)
  | deleteProxyEnvVariable id key => exact edited (edits_editProxy s.toState id _)

theorem sound_collects (h : Collects s s') (hs : Sound s.toState) : Sound s'.toState :=
  fun key r hr => hs key r (value_collects h hr)

/-- Requests whose failures spare the Secrets. -/
theorem clean_of_requests (hc : o.clients = true) (hs : Clean s) {requests : List RowRequest}
    {results : List (Except Error Unit)}
    (run : Steps sparing Collects (serveRequests o requests, s) (.pure results, t)) :
    Clean t := by
  have careful : Careful soundly Fault.In Action.Fits (serveRequests o requests) := by
    refine .allSettled fun p hp => ?_
    obtain ⟨request, -, rfl⟩ := List.mem_map.mp hp
    exact careful_request hc request
  obtain ⟨-, steps⟩ := Steps.only careful.only run
  have kept : ∀ a (u : Installation) r (v : Installation), Sound u.toState →
      (sparing.restrict fun a _ _ _ => a.Fits) a u r v → Sound v.toState := by
    rintro a u r v hu ⟨⟨⟨hlossy, -⟩, -⟩, hfits⟩
    rcases (Handler.of_lossy hlossy).1 with rfl | rfl
    · exact hu
    · exact sound_perform hfits hu
  have hsound : Sound t.toState := Steps.invariant (I := fun u => Sound u.toState) kept
    (fun _ _ hu h => sound_collects h hu) steps hs.sound
  have steps' := Steps.strengthen (I := fun u => Sound u.toState) kept
    (fun _ _ hu h => sound_collects h hu) steps hs.sound
  refine clean_of_faultless hsound fun f =>
    Tidy.faultless ?_ fault_collects hs.faultless steps' f
  exact mends_handler careful.tidy fun a u r v h => ⟨h.1.1, h.2⟩

/-! ### A synchronization that runs alone -/

/-- The calls of a synchronization with nobody else about. -/
abbrev foregroundApi : Handler Call (Settled Error Answer) Installation :=
  fun c s r s' => performForeground (.call c) s = (r, s')

theorem db_of_requestsCluster {c : Call} (hc : (Action.call c).requestsCluster) (s : State) :
    (handle c s).2.db = s.db := by
  cases c with
  | read key =>
    simp only [handle]
    cases s.cluster.lookup key <;> rfl
  | replace key version body =>
    simp only [handle]
    split_ifs
    · rfl
    · exact db_request s _
  | create => exact db_request s _
  | delete => exact db_request s _
  | list => rfl
  | _ => cases hc

/-- The objects that are looked for and written are those of rows. -/
def Call.ForRows (db : Database) : Call → Prop
  | .read key | .replace key _ _ | .create key _ _ =>
    ∃ plural id, plural ≠ .secret ∧ id ∈ db.names plural ∧
      (key = ⟨plural, id⟩ ∨ key = secretOf plural id)
  | _ => True

/-- A call of a synchronization that knows the rows. -/
structure Call.Gathers (db : Database) (c : Call) : Prop where
  fits : c.Fits
  forRows : c.ForRows db
  keepsRows : ∀ s, (handle c s).2.db = s.db

/-- Rows stay as they are, objects as they should be, and what has no row is not added. -/
structure Shrinks (s s' : Installation) : Prop where
  db : s'.db = s.db
  sound : Sound s.toState → Sound s'.toState
  live : ∀ plural id, plural ≠ .secret → id ∉ s.db.names plural →
    s'.Live ⟨plural, id⟩ → s.Live ⟨plural, id⟩

theorem Shrinks.trans {u : Installation} (h : Shrinks s t) (h' : Shrinks t u) : Shrinks s u where
  db := h'.db.trans h.db
  sound hs := h'.sound (h.sound hs)
  live plural id hplural hid hu :=
    h.live plural id hplural hid (h'.live plural id hplural (h.db ▸ hid) hu)

/-- The tasks of one synchronization, and the garbage collector beside them. -/
def gathering : Contract Call Installation where
  rely := Shrinks
  guar c s s' := Shrinks s s' ∧ ∀ r, performForeground (.call c) s = (r, s') →
    Spares (.call c) s r s'
  refl _ := ⟨rfl, id, fun _ _ _ _ => id⟩
  trans _ _ _ := Shrinks.trans

theorem shrinks_of_collects (h : Collects s s') : Shrinks s s' where
  db := by
    obtain ⟨k, -, rfl⟩ := h
    rfl
  sound := sound_collects h
  live _ _ _ _ := (live_collects h _).mp

theorem gathers_shrinks {c : Call} (hc : c.Gathers s.db) :
    Shrinks s (performForeground (.call c) s).2 := by
  refine ⟨?_, sound_foreground hc.fits, fun plural id hplural hid hlive => ?_⟩
  · rcases performForeground_cases c s with ⟨k, -, -, -, h⟩ | ⟨h, -⟩ <;> rw [h]
    exact hc.keepsRows s.toState
  · rcases performForeground_cases c s with ⟨k, -, -, -, h⟩ | ⟨h, -⟩ <;> rw [h] at hlive
    · exact ⟨hlive.1, fun hk => hlive.2 (List.mem_cons_of_mem _ hk)⟩
    · refine ⟨?_, hlive.2⟩
      have hsome : ((handle c s.toState).2.cluster.lookup ⟨plural, id⟩).isSome := hlive.1
      rcases cluster_handle c s.toState with h | ⟨k, body, hw, h⟩ | ⟨k, -, h⟩ <;> rw [h] at hsome
      · exact hsome
      · -- the object that is written is one of a row
        have hk : (⟨plural, id⟩ : Key) ≠ k := by
          rintro rfl
          have howner : ∃ plural' id', plural' ≠ .secret ∧ id' ∈ s.db.names plural' ∧
              ((⟨plural, id⟩ : Key) = ⟨plural', id'⟩ ∨ ⟨plural, id⟩ = secretOf plural' id') := by
            cases c with
            | replace => exact hw.1 ▸ hc.forRows
            | create => exact hw.1 ▸ hc.forRows
            | _ => exact hw.elim
          obtain ⟨plural', id', hplural', hid', heq | heq⟩ := howner
          · cases heq
            exact hid hid'
          · exact hplural (congrArg Key.kind heq)
        rwa [VersionedStore.lookup_put_ne _ _ hk] at hsome
      · by_cases hk : (⟨plural, id⟩ : Key) = k
        · rw [← hk, VersionedStore.lookup_remove] at hsome
          cases hsome
        · rwa [VersionedStore.lookup_remove_ne _ hk] at hsome

/-- With its rows in the database, no Secret that a synchronization attends to is orphaned. -/
theorem gathers_spares {c : Call} {r : Settled Error Answer c} (hc : c.Gathers s.db)
    (h : performForeground (.call c) s = (r, s')) : Spares (.call c) s r s' := by
  by_cases hmeets : (Action.call c).MeetsDeletion s
  · refine .inr fun plural id horphan => ?_
    have hs' : s' = (performForeground (.call c) s).2 := (congrArg Prod.snd h).symm
    have hrow : id ∉ s.db.names plural := (gathers_shrinks hc).db ▸ hs' ▸ horphan.row
    have hrows := hc.forRows
    refine ⟨(orphaned_foreground (hs' ▸ horphan)).resolve_right fun hcause => ?_,
      fun hattends => ?_⟩
    · cases c with
      | create key version body =>
        obtain ⟨plural', id', e, hplural', hkey⟩ := hcause
        cases e
        obtain ⟨plural'', id'', hplural'', hid'', heq | heq⟩ := hrows
        · exact hplural'' (congrArg Key.kind (heq.symm.trans hkey))
        · obtain ⟨rfl, rfl⟩ := secretOf_injective hplural' hplural'' (hkey.symm.trans heq)
          exact hrow hid''
      | read => exact hcause.elim
      | _ => exact hmeets.elim
    · cases c with
      | read =>
        cases hattends
        obtain ⟨plural', id', hplural', hid', heq | heq⟩ := hrows
        · cases heq
          exact hrow hid'
        · exact horphan.custom (congrArg Key.kind heq)
      | create =>
        cases hattends
        obtain ⟨plural', id', hplural', hid', heq | heq⟩ := hrows
        · cases heq
          exact hrow hid'
        · exact horphan.custom (congrArg Key.kind heq)
      | _ => exact hmeets.elim
  · exact .inl ⟨h, hmeets⟩

theorem gathering_step {c : Call} {r : Settled Error Answer c} (hc : c.Gathers s.db)
    (h : foregroundApi c s r s') : gathering.guar c s s' := by
  refine ⟨?_, fun r' hr' => gathers_spares hc hr'⟩
  rw [show s' = (performForeground (.call c) s).2 from (congrArg Prod.snd h).symm]
  exact gathers_shrinks hc

theorem wp_gathers {α : Type} {p : Prog Call (Settled Error Answer) α}
    (hp : p.Only (Call.Gathers s.db)) : wp foregroundApi gathering p (fun _ => Shrinks s) s :=
  wp_of_only hp (gathering.refl s) (fun _ _ => Shrinks.trans) fun _ _ _ _ hc hI h =>
    ⟨gathering_step (hI.db ▸ hc) h, hI.trans (gathering_step (hI.db ▸ hc) h).1⟩

theorem gathers_read {db : Database} {key : Key} (h : (Call.read key).ForRows db) :
    (Call.read key).Gathers db :=
  ⟨fun _ _ hw => hw.elim, h, db_of_requestsCluster rfl⟩

theorem gathers_write {db : Database} {c : Call} {key : Key} {body : Resource}
    (hfits : Fits key body) (hw : ∀ k b, c.Writes k b → k = key ∧ b = body)
    (hrows : c.ForRows db) (hc : (Action.call c).requestsCluster) : c.Gathers db := by
  refine ⟨fun k b h => ?_, hrows, db_of_requestsCluster hc⟩
  obtain ⟨rfl, rfl⟩ := hw k b h
  exact hfits

theorem only_upsert_gathers {db : Database} {key : Key} {body : Resource}
    (hfits : Fits key body) (hrows : (Call.read key).ForRows db) :
    (upsert key body).run.Only (Call.Gathers db) :=
  only_upsert (gathers_read hrows)
    (fun _ => gathers_write hfits (fun _ _ hw => hw) hrows rfl)
    fun _ => gathers_write hfits (fun _ _ hw => hw) hrows rfl

theorem gathers_delete (db : Database) (key : Key) : (Call.delete key).Gathers db :=
  ⟨fun _ _ hw => hw.elim, trivial, db_of_requestsCluster rfl⟩

theorem only_syncRow_gathers (hc : o.clients = true) {db : Database} {r : Row}
    (hr : r ∈ o.rows db) : (o.syncRow r).run.Only (Call.Gathers db) := by
  have row : r.plural ≠ .secret ∧ r.id ∈ db.names r.plural := ⟨r.custom, mem_names_of_mem_rows hr⟩
  by_cases hid : resourceIdAccepted r.id
  · rw [run_syncRow hc hid]
    exact Async.only_bind (only_upsert_gathers (fits_secret hid)
        ⟨r.plural, r.id, row.1, row.2, .inr rfl⟩) fun _ =>
      Async.only_bind (only_upsert_gathers (fits_resource hid)
        ⟨r.plural, r.id, row.1, row.2, .inl rfl⟩) fun _ =>
        only_deleteObject (gathers_delete db _)
  · obtain ⟨e, he⟩ := syncRow_of_not_accepted (o := o) hid
    rw [he]
    trivial

/-- The computation keeps the contract, whether it succeeds or fails and goes on. -/
abbrev Gathers {α : Type} (p : LooseTask α) (Q : α → Installation → Prop) (s : Installation) :
    Prop := Loose.Settles foregroundApi gathering p Q (fun _ => True) s

theorem gathers_ofAsync {α : Type} {p : Task α} {Q : α → Installation → Prop}
    (h : wp foregroundApi gathering p.run (fun r t => ∀ a, r = .ok a → Q a t) s) :
    Gathers (.ofAsync p) Q s := by
  refine Loose.settles_ofAsync (wp_mono h fun r t hr => ?_)
  cases r with
  | ok a => exact hr a rfl
  | error e => trivial

/-- What the contract says of each step it says of the whole. -/
theorem gathers_frame {α : Type} {p : LooseTask α} {Q : α → Installation → Prop}
    (h : Gathers p Q s) : Gathers p (fun a t => Q a t ∧ Shrinks s t) s := by
  refine wp_mono (wp_stable (I := Shrinks s) (fun _ _ => Shrinks.trans)
    (fun _ _ _ hI hg => hI.trans hg.1) h (gathering.refl s)) fun r t ht => ?_
  cases r with
  | ok a => exact ht
  | error x => exact ht.1

theorem gathering_compatible : gathering.Compatible gathering :=
  ⟨fun _ _ _ h => h.1, fun _ _ _ h => h.1⟩

theorem par_gathering_refines : (gathering.par gathering).Refines gathering :=
  ⟨fun _ _ h => ⟨h, h⟩, fun _ _ _ h => h.elim id id⟩

theorem all_gathering_refines {ι : Type} (l : List ι) :
    (Contract.all (fun _ => gathering) l).Refines gathering :=
  ⟨fun _ _ h _ _ => h, fun _ _ _ ⟨_, _, h⟩ => h⟩

/-- After its deletion, a resource without a row is not live, and stays so. -/
theorem wp_deleteResource_gathers (hc : o.clients = true) {plural : Kind} {id : String}
    (hplural : plural ≠ .secret) (hid : id ∉ s.db.names plural) :
    wp foregroundApi gathering (o.deleteResource plural id).run
      (fun _ t => ¬t.Live ⟨plural, id⟩) s := by
  have run : (o.deleteResource plural id).run = (do
      deleteObject ⟨plural, id⟩
      deleteObject (secretOf plural id) : Task Unit).run := by
    simp only [deleteResource, deleteSecret, hc, if_true, secretOf]
  rw [run]
  simp only [deleteObject, Async.run_bind, Async.run_attempt, await, Async.await, ExceptT.run_mk,
    Prog.lift_bind, Prog.call_bind, Prog.pure_bind]
  intro t ht r u hr
  refine ⟨gathering_step (gathers_delete t.db _) hr, ?_⟩
  have hgone : ¬u.Live ⟨plural, id⟩ := by
    rw [show u = (performForeground (.call (.delete ⟨plural, id⟩)) t).2 from
      (congrArg Prod.snd hr).symm, performForeground]
    split_ifs with hpresent
    · exact fun hlive => hlive.2 (List.mem_cons_self ..)
    · intro hlive
      have hsome : ((handle (.delete ⟨plural, id⟩) t.toState).2.cluster.lookup
        ⟨plural, id⟩).isSome := hlive.1
      have hnone : ¬(t.cluster.lookup ⟨plural, id⟩).isSome := fun h => hpresent ⟨hplural, h⟩
      rw [handle_delete, if_neg hnone] at hsome
      exact hnone hsome
  have hrow : id ∉ u.db.names plural :=
    ((gathering_step (gathers_delete t.db _) hr).1.db.trans ht.db) ▸ hid
  have keep : ∀ {α : Type} {p : Prog Call (Settled Error Answer) α},
      p.Only (Call.Gathers u.db) →
        wp foregroundApi gathering p (fun _ v => ¬v.Live ⟨plural, id⟩) u :=
    fun hp => wp_mono (wp_gathers hp) fun _ _ hv hlive => hgone (hv.live _ _ hplural hrow hlive)
  have secret : (deleteObject (secretOf plural id)).run.Only (Call.Gathers u.db) :=
    only_deleteObject (gathers_delete u.db _)
  refine keep ?_
  cases r with
  | ok _ => exact secret
  | error e =>
    dsimp only
    split_ifs
    · exact secret
    · trivial

theorem gathers_list (db : Database) (kind : Kind) : (Call.list kind).Gathers db :=
  ⟨fun _ _ hw => hw.elim, trivial, db_of_requestsCluster rfl⟩

/-- What is live without a row is listed, so it is deleted. -/
theorem wp_deleteStaleResources_gathers (hc : o.clients = true) (hs : Sound s.toState)
    (plural : Kind) (hplural : plural ≠ .secret) {expected : List String}
    (hexpected : expected = s.db.names plural) :
    Gathers (o.deleteStaleResources plural expected)
      (fun _ t => ∀ id, id ∉ s.db.names plural → ¬t.Live ⟨plural, id⟩) s := by
  simp only [deleteStaleResources, hc, if_true]
  refine Loose.settles_bind (gathers_ofAsync fun t ht r u hr => ?_)
  refine ⟨gathering_step (gathers_list t.db plural) hr, ?_⟩
  obtain rfl : t = u := congrArg Prod.snd hr
  obtain rfl := congrArg Prod.fst hr
  rintro v hv _ ⟨⟩
  refine Loose.settles_map (Loose.settles_mono (gathers_frame (Loose.settles_refines
    (Loose.settles_all (K := fun _ => gathering) (Q := fun n u => ¬u.Live ⟨plural, n⟩) ?_
      fun n hn => gathers_ofAsync ?_) (all_gathering_refines _))) ?_ fun _ => id)
  · exact List.pairwise_of_forall fun _ _ => gathering_compatible
  · have hrow : n ∉ v.db.names plural := by
      rw [hv.db, ht.db, ← hexpected]
      simpa using (Bool.and_eq_true_iff.mp (List.mem_filter.mp hn).2).2
    exact wp_mono (wp_deleteResource_gathers hc hplural hrow) fun _ _ h _ _ => h
  · rintro _ w ⟨hgone, hshrinks⟩ id hid hlive
    have hrow : id ∉ t.db.names plural := ht.db ▸ hid
    have hlisted : t.Live ⟨plural, id⟩ :=
      hv.live _ _ hplural hrow (hshrinks.live _ _ hplural (hv.db ▸ hrow) hlive)
    obtain ⟨object, hobject⟩ := Option.isSome_iff_exists.mp hlisted.1
    have hvalue : t.cluster.value ⟨plural, id⟩ = some object.value := by
      rw [VersionedStore.value, hobject, Option.map_some]
    have hfits := ht.sound hs _ _ hvalue
    refine hgone id (List.mem_filter.mpr ⟨mem_list_iff.mpr ⟨_, hvalue, hfits.managed hplural⟩, ?_⟩)
      hlive
    rw [hexpected]
    simpa using ⟨hfits.named, hid⟩

/-- No live resource is without a row. -/
def NoneStale (db : Database) (t : Installation) : Prop :=
  t.db = db ∧ ∀ plural, plural ≠ .secret → ∀ id, id ∉ db.names plural → ¬t.Live ⟨plural, id⟩

theorem NoneStale.of_shrinks {db : Database} {u : Installation} (h : NoneStale db t)
    (hu : Shrinks t u) : NoneStale db u := by
  refine ⟨hu.db.trans h.1, fun plural hplural id hid hlive => h.2 plural hplural id hid ?_⟩
  exact hu.live plural id hplural (h.1 ▸ hid) hlive

/-- A call that only looks at the rows or at the flag. -/
theorem gathers_aside {db : Database} {c : Call} (hw : ∀ k b, ¬c.Writes k b)
    (hrows : c.ForRows db) (hdb : ∀ s, (handle c s).2.db = s.db) : c.Gathers db :=
  ⟨fun k b h => (hw k b h).elim, hrows, hdb⟩

theorem wp_findAll_gathers : Gathers (.both (.ofAsync (await .findServers))
    (.ofAsync (await .findProxies))) (fun rows _ => rows = (s.db.servers, s.db.proxies)) s := by
  have servers : Gathers (.ofAsync (await .findServers)) (fun rows _ => rows = s.db.servers) s := by
    refine gathers_ofAsync fun t ht r u hr => ?_
    refine ⟨gathering_step (gathers_aside (fun _ _ => id) trivial fun _ => rfl) hr, ?_⟩
    obtain ⟨rfl, -⟩ := Prod.mk.inj hr
    rintro _ _ _ ⟨⟩
    exact congrArg Database.servers ht.db
  have proxies : Gathers (.ofAsync (await .findProxies)) (fun rows _ => rows = s.db.proxies) s := by
    refine gathers_ofAsync fun t ht r u hr => ?_
    refine ⟨gathering_step (gathers_aside (fun _ _ => id) trivial fun _ => rfl) hr, ?_⟩
    obtain ⟨rfl, -⟩ := Prod.mk.inj hr
    rintro _ _ _ ⟨⟩
    exact congrArg Database.proxies ht.db
  exact Loose.settles_mono (Loose.settles_refines (Loose.settles_both gathering_compatible
    servers proxies) par_gathering_refines) (fun _ _ h => Prod.ext h.1 h.2) fun _ => id

/-- A synchronization that logs no failure leaves no live resource without a row. -/
theorem wp_syncPass_gathers (hc : o.clients = true) (hs : Sound s.toState) :
    Gathers o.syncPass (fun failures t => failures = [] → NoneStale s.db t) s := by
  refine Loose.settles_bind (Loose.settles_mono (gathers_frame wp_findAll_gathers) ?_ fun _ => id)
  rintro _ t ⟨rfl, ht⟩
  refine Loose.settles_bind (gathers_ofAsync (wp_mono (wp_gathers ?_) fun rs u hu rs' _ => ?_))
  · refine Async.only_allSettled fun task htask => ?_
    rw [syncTasks_eq] at htask
    obtain ⟨r, hr, rfl⟩ := List.mem_map.mp htask
    exact only_syncRow_gathers hc (ht.db ▸ hr)
  dsimp only
  split_ifs with hfailures
  · exact fun _ _ h => by simp [h] at hfailures
  have names : ∀ {ι : Type} (rows : List ι) (f : ι → String) (u : Installation),
      Gathers (.ofAsync (Task.ofExcept (rows.mapM fun i => operatorResourceName (f i))))
        (fun names v => names = rows.map f ∧ Shrinks u v) u :=
    fun rows f u => gathers_ofAsync fun v hv names hok => ⟨eq_map_of_mapM hok, hv⟩
  refine Loose.settles_bind (Loose.settles_mono (names s.db.servers (·.id) u) ?_ fun _ => id)
  rintro _ v ⟨rfl, hv⟩
  refine Loose.settles_bind (Loose.settles_mono (names s.db.proxies (·.id) v) ?_ fun _ => id)
  rintro _ w ⟨rfl, hw⟩
  have hsw : Shrinks s w := ((ht.trans hu).trans hv).trans hw
  have sweep := Loose.settles_refines (Loose.settles_both gathering_compatible
    (wp_deleteStaleResources_gathers hc (hsw.sound hs) .minecraftservers (by decide)
      (by rw [hsw.db]))
    (wp_deleteStaleResources_gathers hc (hsw.sound hs) .reverseproxyservers (by decide)
      (by rw [hsw.db]))) par_gathering_refines
  refine Loose.settles_map (Loose.settles_mono (gathers_frame sweep) ?_ fun _ => id)
  rintro _ x ⟨⟨hmc, hrp⟩, hx⟩ -
  rw [hsw.db] at hmc hrp
  refine ⟨hx.db.trans hsw.db, fun plural hplural => ?_⟩
  cases plural with
  | secret => exact absurd rfl hplural
  | minecraftservers => exact hmc
  | reverseproxyservers => exact hrp

/-- The garbage collector leaves the flag alone. -/
def collecting : Contract Call Installation where
  rely s s' := Shrinks s s' ∧ s'.syncing = s.syncing
  guar := gathering.guar
  refl s := ⟨gathering.refl s, rfl⟩
  trans _ _ _ h h' := ⟨h.1.trans h'.1, h'.2.trans h.2⟩

theorem collecting_of_collects (h : Collects s s') : collecting.rely s s' := by
  refine ⟨shrinks_of_collects h, ?_⟩
  obtain ⟨k, -, rfl⟩ := h
  rfl

theorem wp_releaseSync_gathers {failures : List Error}
    {Q : Except Error (List Error) → Installation → Prop}
    (hQ : ∀ t, Shrinks s t → Q (.ok failures) t) :
    wp foregroundApi gathering (await .releaseSync >>= fun _ => pure failures : Task _).run Q
      s := by
  simp only [Async.run_bind, await, Async.await, ExceptT.run_mk, Prog.lift_bind]
  intro t ht r u hr
  have step : gathering.guar .releaseSync t u :=
    gathering_step (gathers_aside (fun _ _ => id) trivial fun _ => rfl) hr
  obtain ⟨rfl, -⟩ := Prod.mk.inj hr
  exact ⟨step, fun v hv => hQ v ((ht.trans step.1).trans hv)⟩

theorem wp_syncAll_gathers (hc : o.clients = true) (hs : Clean s) :
    wp foregroundApi collecting o.syncAll.run
      (fun res t => res = .ok [] → NoneStale s.db t) s := by
  simp only [syncAll, hc, Bool.not_true, Bool.false_eq_true, if_false, Async.run_bind, await,
    Async.await, ExceptT.run_mk, Prog.lift_bind]
  intro t ht r u hr
  have step : gathering.guar .claimSync t u :=
    gathering_step (gathers_aside (fun _ _ => id) trivial fun _ => rfl) hr
  refine ⟨step, ?_⟩
  have hu : Shrinks s u := ht.1.trans step.1
  obtain rfl : r = .ok true := by
    obtain ⟨rfl, -⟩ := Prod.mk.inj hr
    exact congrArg (Except.ok !·) (ht.2.trans hs.idle)
  simp only [Bool.not_true, Bool.false_eq_true, if_false]
  refine wp_refines (Loose.wp_settle gathering_compatible (Loose.settles_mono
    (wp_syncPass_gathers hc (hu.sound hs.sound)) ?_ fun _ => id) fun e z => ?_)
    ⟨fun _ _ h => ⟨h.1, h.1⟩, fun _ _ _ h => h.elim id id⟩
  · intro failures v hv
    refine wp_refines (wp_releaseSync_gathers fun w hw hres => ?_) Loose.par_left_refines
    exact hu.db ▸ (hv (Except.ok.inj hres)).of_shrinks hw
  · exact wp_releaseSync_gathers fun w _ _ hres => by cases hres

/-- A synchronization that runs alone leaves nothing orphaned. -/
theorem clean_of_syncAll (hc : o.clients = true) (hs : Clean s) {res : Except Error (List Error)}
    (run : Steps foregroundApi Collects (o.syncAll.run, s) (.pure res, t)) : Clean t := by
  have run' := Steps.guaranteed (wp_syncAll_gathers hc hs) (fun _ _ => collecting_of_collects) run
  have hsound : Sound t.toState := by
    refine Steps.invariant (I := fun u => Sound u.toState) (fun c u r v hu h => ?_)
      (fun _ _ hu h => sound_collects h hu) run' hs.sound
    exact h.2.1.sound hu
  refine clean_of_faultless hsound fun f =>
    Tidy.faultless ?_ fault_collects hs.faultless run' f
  refine mends_handler (careful_syncAll hc).tidy fun c u r v h => ?_
  exact ⟨r, ⟨⟨.inl h.1, .inr h.1⟩, h.2.2 r h.1⟩, rfl⟩

/-- With neither an orphan nor a stale resource, every Secret has a row. -/
theorem collected_of_noneStale (hs : Clean s) (h : NoneStale s.db s) : Collected s.toState := by
  intro key r hkey hr hmanaged
  obtain ⟨plural, id, hplural, -, rfl, hlabel⟩ := (hs.sound key r hr).secret hkey hmanaged
  refine ⟨id, hlabel, ?_⟩
  have hrow : id ∈ s.db.names plural := by
    by_contra hrow
    exact hs.whole plural id ⟨hplural, hrow, h.2 plural hplural id hrow, r, hr, hmanaged⟩
  cases plural with
  | secret => exact absurd rfl hplural
  | minecraftservers => exact .inl hrow
  | reverseproxyservers => exact .inr hrow

/-- If no failure orphans a Secret or keeps a task from attending to an orphan, and no task that
attends to an orphan meets a deletion, then whatever requests run together and however their
calls interleave, a synchronization that runs alone afterwards and logs no failure leaves no
managed Secret without a row. -/
theorem secrets_are_collected (hc : o.clients = true) (hs : Clean s) {requests : List RowRequest}
    {results : List (Except Error Unit)}
    (run : Steps sparing Collects (serveRequests o requests, s) (.pure results, s'))
    (last : Steps foregroundApi Collects (o.syncAll.run, s') (.pure (.ok []), t)) :
    Collected t.toState := by
  have hclean : Clean s' := clean_of_requests hc hs run
  have hstale : NoneStale s'.db t :=
    wp_result (wp_syncAll_gathers hc hclean) (fun _ _ => collecting_of_collects) last rfl
  exact collected_of_noneStale (clean_of_syncAll hc hclean last) ⟨rfl, hstale.1 ▸ hstale.2⟩

end Collection

/-! ## Runs -/

/-- Nothing is in the database or in the cluster. -/
def Installation.empty : Installation := ⟨.idle .empty .empty, []⟩

theorem clean_empty : Clean .empty where
  sound _ _ h := by simp [Installation.empty, State.idle, VersionedStore.value] at h
  idle := rfl
  whole _ _ h := by
    simpa [Installation.empty, State.idle, VersionedStore.value] using h.secret

/-- Some requests to the cluster fail without an effect. -/
def failWhen (fails : Action → Bool) (a : Action) (s : Installation) :
    Option (Settled Error Action.Answer a × Installation) :=
  if a.requestsCluster && fails a then
    some (.error { message := "service unavailable", code := some 503 }, s)
  else some (performForeground a s)

theorem unreliable_of_failWhen {fails : Action → Bool} (a : Action) (s : Installation)
    (r : Settled Error Action.Answer a) (s' : Installation)
    (h : failWhen fails a s = some (r, s')) : unreliable a s r s' := by
  simp only [failWhen] at h
  split_ifs at h with hfails
  · obtain ⟨rfl, rfl⟩ := Prod.mk.inj (Option.some.inj h)
    rw [Bool.and_eq_true] at hfails
    exact ⟨.inr ⟨_, rfl, .inl rfl⟩, .inl hfails.1⟩
  · exact ⟨.inl (Option.some.inj h), .inr (Option.some.inj h)⟩

/-- The request to delete a Secret under its former name fails. -/
def refusesLegacy : Action → Bool
  | .call (.delete key) => key = ⟨.secret, legacySecretName "x"⟩
  | _ => false

/-- The calls that meet no deletion. -/
def meetsNone (fails : Action → Bool) (a : Action) (s : Installation) :
    Option (Settled Error Action.Answer a × Installation) :=
  let meets : Bool := match a with
    | .call (.read key) | .call (.create key _ _) => key ∈ s.terminating
    | _ => false
  if meets then none else failWhen fails a s

theorem sparing_of_refusesLegacy (a : Action) (s : Installation)
    (r : Settled Error Action.Answer a) (s' : Installation)
    (h : meetsNone refusesLegacy a s = some (r, s')) : sparing a s r s' := by
  simp only [meetsNone] at h
  split_ifs at h with hmeets
  refine ⟨unreliable_of_failWhen a s r s' h, ?_⟩
  simp only [failWhen] at h
  split_ifs at h with hfails
  · obtain ⟨-, rfl⟩ := Prod.mk.inj (Option.some.inj h)
    refine .inr fun plural id horphan => ⟨horphan, fun hattends => ?_⟩
    rw [Bool.and_eq_true] at hfails
    obtain ⟨-, hlegacy⟩ := hfails
    unfold refusesLegacy at hlegacy
    split at hlegacy
    · have hkey := of_decide_eq_true hlegacy
      subst hkey
      rcases hattends with hkey | hkey
      · exact horphan.custom (congrArg Key.kind hkey).symm
      · have hlength := congrArg String.length (legacySecretName_eq_iff.mp (congrArg Key.name hkey))
        have hx : "x".length = 1 := rfl
        have hprefix : (secretPrefix plural).length = 2 := by cases plural <;> rfl
        rw [hx, String.length_append, String.length_append, hprefix] at hlength
        omega
    · cases hlegacy
  · refine .inl ⟨Option.some.inj h, fun hmeets' => hmeets ?_⟩
    unfold Action.MeetsDeletion at hmeets'
    split at hmeets'
    · exact decide_eq_true hmeets'
    · exact decide_eq_true hmeets'
    · exact hmeets'.elim

def createAndDelete : List RowRequest := [
  .createServer { id := "x", listenPort := 25565, type := .stateful } "key",
  .deleteServer "x"]

/-- As many calls, in the order of the requests. -/
def inTurn (calls : Nat) : List Turn := (List.replicate calls [.left, .go]).flatten

def oneByOne (answers : (a : Action) → Installation →
      Option (Settled Error Action.Answer a × Installation)) :
    Prog Action (Settled Error Action.Answer) (List (Except Error Unit)) × Installation :=
  (serveRequests {} createAndDelete).runTurns answers (inTurn 12) .empty

def syncAlone (s : Installation) :
    Prog Call (Settled Error Answer) (Except Error (List Error)) × Installation :=
  ({} : OperatorResourceSync).syncAll.run.runTurns
    (fun c s => some (performForeground (.call c) s)) (inTurn 8) s

theorem steps_syncAlone {s : Installation} (h : (syncAlone s).1.result? = some (.ok [])) :
    Steps foregroundApi Collects (({} : OperatorResourceSync).syncAll.run, s)
      (.pure (.ok []), (syncAlone s).2) := by
  have answers : ∀ (c : Call) (s : Installation) r s',
      some (performForeground (.call c) s) = some (r, s') → foregroundApi c s r s' :=
    fun _ _ _ _ h => Option.some.inj h
  exact steps_result answers h

/-- The server is created and deleted, and while its resource is still being deleted, a
synchronization finds it and leaves no Secret. -/
theorem secrets_are_collected_refused :
    Steps sparing Collects (serveRequests {} createAndDelete, .empty)
        (.pure [.ok (), .ok ()], (oneByOne (meetsNone refusesLegacy)).2) ∧
      (oneByOne (meetsNone refusesLegacy)).2.terminating = [⟨.minecraftservers, "x"⟩] ∧
      Steps foregroundApi Collects (({} : OperatorResourceSync).syncAll.run,
          (oneByOne (meetsNone refusesLegacy)).2)
        (.pure (.ok []), (syncAlone (oneByOne (meetsNone refusesLegacy)).2).2) ∧
      Collected (syncAlone (oneByOne (meetsNone refusesLegacy)).2).2.toState := by
  have run : Steps sparing Collects (serveRequests {} createAndDelete, .empty)
      (.pure [.ok (), .ok ()], (oneByOne (meetsNone refusesLegacy)).2) :=
    steps_result sparing_of_refusesLegacy rfl
  have last := steps_syncAlone (s := (oneByOne (meetsNone refusesLegacy)).2) rfl
  have collected := secrets_are_collected rfl clean_empty run last
  exact ⟨run, rfl, last, collected⟩

/-- The resource is never added, and the Secret cannot be deleted. -/
def refusesDeletion : Action → Bool
  | .call (.create ⟨.minecraftservers, _⟩ _ _) => true
  | .call (.delete ⟨.secret, _⟩) => true
  | _ => false

/-- When the Secret of a deleted server cannot be deleted, no synchronization finds it again. -/
theorem failed_deletion_leaks_secret :
    ¬∀ (requests : List RowRequest) (results : List (Except Error Unit)) (s t : Installation),
      Steps unreliable Collects (serveRequests {} requests, .empty) (.pure results, s) →
      Steps foregroundApi Collects (({} : OperatorResourceSync).syncAll.run, s)
        (.pure (.ok []), t) → Collected t.toState := by
  intro h
  have run : Steps unreliable Collects (serveRequests {} createAndDelete, .empty)
      (.pure [.ok (), .ok ()], (oneByOne (failWhen refusesDeletion)).2) :=
    steps_result unreliable_of_failWhen rfl
  have last := steps_syncAlone (s := (oneByOne (failWhen refusesDeletion)).2) rfl
  obtain ⟨id, -, hrow⟩ := h _ _ _ _ run last (secretOf .minecraftservers "x") _ rfl rfl rfl
  exact hrow.elim List.not_mem_nil List.not_mem_nil

end Minikura.Backend
