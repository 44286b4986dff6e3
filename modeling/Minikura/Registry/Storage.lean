import Minikura.Registry.Service

/-!
# Stored plugins

Uploads and deletions of artifacts, one call after the other, whose requests may fail
before or after they have taken effect. The rows of uploads name objects of the bucket;
an object is named by its content and a row by its content and file name, so several
rows may name one object.

## Main definitions

* `Event`, `states` — calls with the fates of their requests, and the states between them.
* `State.Available` — every stored artifact has its object in the bucket.
* `Event.Spares` — the call removes no object that a row goes on to name.

## Main results

* `available_iff_spares` — all states of a run are available just when all calls spare.
-/

namespace Minikura.Registry
open Concurrency

/-! ## Runs -/

inductive StorageCall where
  | upload (fresh : Fresh) (file : File)
  | deleteArtifact (artifactId : String)

/-- A call of the service; no call makes a request twice, so fates go by request. -/
structure Event where
  call : StorageCall
  fates : Request → Fate

variable {web : String → Option Bytes}

def Event.next (web : String → Option Bytes) (s : State) (e : Event) : State :=
  match e.call with
  | .upload fresh file => ((upload fresh file).eval (answer web e.fates) s).2
  | .deleteArtifact artifactId => ((deleteArtifact artifactId).eval (answer web e.fates) s).2

/-- The states before, between and after the calls. -/
def states (web : String → Option Bytes) (s : State) (run : List Event) : List State :=
  run.scanl (Event.next web) s

/-- Each call with the state it starts from. -/
def steps (web : String → Option Bytes) (s : State) (run : List Event) : List (State × Event) :=
  (states web s run).zip run

/-- The object of every stored artifact is there, with the content of its hash. -/
def State.Available (s : State) : Prop :=
  ∀ a ∈ s.db.artifacts, ∀ key, a.storedKey = some key →
    ∃ body, s.object key = some body ∧ Sha256.hexDigest body = a.sha256

/-- The call deletes no object, or it also deletes the one row that names the object. -/
def Event.Spares (s : State) (e : Event) : Prop :=
  match e.call with
  | .upload .. => True
  | .deleteArtifact artifactId =>
    ∀ a key, s.db.findArtifact artifactId = some a → a.storedKey = some key →
      e.fates (.findArtifactWithServers artifactId) = .answered →
      (e.fates (.deleteObject key)).applied →
        e.fates (.deleteObject key) = .answered ∧
        (e.fates (.transaction (deletion artifactId))).applied ∧
        ∀ b ∈ s.db.artifacts, b.id ≠ artifactId → b.storedKey ≠ some key

/-! ## Object keys -/

/-- Stated for any texts around the hash, since literals are unfolded by every rewrite. -/
theorem toList_path (start slash stop h : String) (n : Nat) :
    (start ++ String.ofList (h.toList.take n) ++ slash ++ h ++ stop).toList =
      start.toList ++ h.toList.take n ++ slash.toList ++ h.toList ++ stop.toList := by
  simp

theorem toList_objectKeyOf (h : String) : (objectKeyOf h).toList =
    "artifacts/sha256/".toList ++ h.toList.take 2 ++ "/".toList ++ h.toList ++
      ".jar".toList := toList_path ..

theorem objectKeyOf_injective {h h' : String} (hl : h.length = 64) (hl' : h'.length = 64)
    (heq : objectKeyOf h = objectKeyOf h') : h = h' := by
  have hlist := congrArg String.toList heq
  rw [toList_objectKeyOf, toList_objectKeyOf] at hlist
  have hlen : h.toList.length = h'.toList.length := by
    rw [String.length_toList, String.length_toList, hl, hl']
  exact String.toList_injective (List.append_inj_right' (List.append_cancel_right hlist) hlen)

theorem objectKeyOf_ne_empty (h : String) : objectKeyOf h ≠ "" := by
  intro he
  have hlist := congrArg (fun s => s.toList.length) he
  simp only [toList_objectKeyOf, List.length_append, String.length_toList] at hlist
  have hjar : ".jar".length = 4 := by decide
  have hempty : "".length = 0 := by decide
  omega

/-- The row names its object by its content, and an upload its version too. -/
structure PluginArtifact.ContentNamed (a : PluginArtifact) : Prop where
  version : a.provider = .upload → a.providerVersionId = a.sha256
  key : ∀ key, a.objectKey = some key → a.sha256.length = 64 ∧ key = objectKeyOf a.sha256

def State.ContentNamed (s : State) : Prop := ∀ a ∈ s.db.artifacts, a.ContentNamed

theorem objectKey_of_storedKey {a : PluginArtifact} {key : String}
    (h : a.storedKey = some key) : a.objectKey = some key := by
  unfold PluginArtifact.storedKey at h
  split at h
  · exact (Option.filter_eq_some_iff.mp h).1
  · cases h

/-! ## What a call does -/

section Calls

variable {fates : Request → Fate}

@[simp] theorem eval_await (c : Request) (s : State) :
    @Async.eval _ _ _ (no_index (Answer c)) _ (answer web fates) (await c) s =
      answer web fates c s := rfl

theorem eval_ensureBucket (s : State) :
    (ensureBucket.eval (answer web fates) s).2.db = s.db ∧
      ∀ key, (ensureBucket.eval (answer web fates) s).2.object key = s.object key := by
  have hcreate : ∀ t : State, (answer web fates .createBucket t).2.db = t.db ∧
      ∀ key, (answer web fates .createBucket t).2.object key = t.object key := by
    intro t
    cases hb : t.bucket <;> cases hf : fates .createBucket <;>
      simp [answer, hf, perform, State.object, hb]
  have hhead : (answer web fates .headBucket s).2 = s := by
    cases hf : fates .headBucket <;> simp [answer, hf, perform]
  simp only [ensureBucket, Async.eval_bind, Async.eval_attempt, eval_await, hhead]
  cases (answer web fates .headBucket s).1 with
  | ok _ => simp
  | error _ => exact hcreate s

theorem answer_putObject (key : String) (body : Bytes) (s : State) :
    (answer web fates (.putObject key body) s).2.db = s.db ∧
      (∀ k, (answer web fates (.putObject key body) s).2.object k = s.object k ∨
        k = key ∧ (answer web fates (.putObject key body) s).2.object k = some body) ∧
      ((answer web fates (.putObject key body) s).1 = .ok () →
        (answer web fates (.putObject key body) s).2.object key = some body) := by
  cases hb : s.bucket with
  | none => cases hf : fates (.putObject key body) <;> simp [answer, hf, perform, hb]
  | some objects =>
    have hput : ∀ k, (if k = key then some body else objects.lookup k) = objects.lookup k ∨
        k = key ∧ (if k = key then some body else objects.lookup k) = some body := by
      intro k
      by_cases hk : k = key <;> simp [hk]
    cases hf : fates (.putObject key body) <;>
      simp only [answer, hf, perform, hb, State.object, Option.bind_some, lookup_setEntry, hput]
    all_goals simp

theorem answer_upsertArtifact (key : ArtifactKey) (update : ArtifactUpdate)
    (create : PluginArtifact) (s : State) :
    (answer web fates (.upsertArtifact key update create) s).2.bucket = s.bucket ∧
      ((answer web fates (.upsertArtifact key update create) s).2.db = s.db ∨
        ∃ a, upsertArtifact key update create s.db =
          some (a, (answer web fates (.upsertArtifact key update create) s).2.db)) := by
  cases hu : upsertArtifact key update create s.db with
  | none =>
    cases hf : fates (.upsertArtifact key update create) <;> simp [answer, hf, perform, hu]
  | some r =>
    obtain ⟨a, db⟩ := r
    cases hf : fates (.upsertArtifact key update create) <;> simp [answer, hf, perform, hu]

/-- An upload adds at most its object, and its row only with the object there. -/
structure Uploaded (fresh : Fresh) (file : File) (s t : State) : Prop where
  object : ∀ key, t.object key = s.object key ∨
    key = objectKeyOf (Sha256.hexDigest file.bytes) ∧ t.object key = some file.bytes
  row : t.db = s.db ∨
    t.object (objectKeyOf (Sha256.hexDigest file.bytes)) = some file.bytes ∧
      ∃ a, upsertArtifact file.key
        { objectKey := some (some (objectKeyOf (Sha256.hexDigest file.bytes))) }
        (file.create fresh) s.db = some (a, t.db)

theorem Uploaded.refl {fresh : Fresh} {file : File} {s : State} : Uploaded fresh file s s :=
  ⟨fun _ => .inl rfl, .inl rfl⟩

/-- The three requests of an upload that has passed its checks. -/
theorem eval_upload (fresh : Fresh) (file : File) (s : State) :
    Uploaded fresh file s ((upload fresh file).eval (answer web fates) s).2 := by
  unfold upload
  split_ifs with hname hsize hzip
  · exact .refl
  · exact .refl
  · exact .refl
  simp only [Async.eval_bind, eval_await]
  have hbucket := @eval_ensureBucket web fates s
  rcases hx : ensureBucket.eval (answer web fates) s with ⟨_ | _, t⟩
  all_goals
    rw [hx] at hbucket
    obtain ⟨hdb, hobject⟩ := hbucket
  · exact ⟨fun key => .inl (hobject key), .inl hdb⟩
  have hput := @answer_putObject web fates
    (objectKeyOf (Sha256.hexDigest file.bytes)) file.bytes t
  rcases hy : answer web fates
    (.putObject (objectKeyOf (Sha256.hexDigest file.bytes)) file.bytes) t with ⟨r, u⟩
  rw [hy] at hput
  obtain ⟨hdb', hobject', hstored⟩ := hput
  have hboth : ∀ key, u.object key = s.object key ∨
      key = objectKeyOf (Sha256.hexDigest file.bytes) ∧ u.object key = some file.bytes :=
    fun key => (hobject' key).imp (·.trans (hobject key)) id
  cases r with
  | error e =>
    simp only [hy]
    exact ⟨hboth, .inl (hdb'.trans hdb)⟩
  | ok _ =>
    simp only [hy]
    obtain ⟨hsame, hrow⟩ := @answer_upsertArtifact web fates file.key
      { objectKey := some (some (objectKeyOf (Sha256.hexDigest file.bytes))) }
      (file.create fresh) u
    have hobj : ∀ key, (answer web fates (.upsertArtifact file.key
        { objectKey := some (some (objectKeyOf (Sha256.hexDigest file.bytes))) }
        (file.create fresh)) u).2.object key = u.object key := fun key => by
      rw [State.object, State.object, hsame]
    refine ⟨fun key => ?_, ?_⟩
    · rw [hobj]
      exact hboth key
    · rw [hdb', hdb] at hrow
      exact hrow.imp id fun h => ⟨(hobj _).trans (hstored rfl), h⟩

theorem answer_deleteObject {s : State} (key : String) (hs : s.bucket.isSome) :
    (answer web fates (.deleteObject key) s).2.db = s.db ∧
      (∀ k, (answer web fates (.deleteObject key) s).2.object k =
        if k = key ∧ (fates (.deleteObject key)).applied then none else s.object k) ∧
      ((answer web fates (.deleteObject key) s).1 = .ok () ↔
        fates (.deleteObject key) = .answered) := by
  obtain ⟨objects, hb⟩ := Option.isSome_iff_exists.mp hs
  have hlookup := fun k => lookup_filter_ne objects key k
  simp only [ne_eq, decide_not] at hlookup
  cases hf : fates (.deleteObject key) <;>
    simp [answer, hf, perform, hb, State.object, Fate.applied, hlookup]

/-- The object is gone once the deletion has taken effect, answered or not. -/
theorem eval_deleteStored {s : State} (a : PluginArtifact)
    (hs : ∀ key, a.storedKey = some key → s.bucket.isSome) :
    ((deleteStored a).eval (answer web fates) s).2.db = s.db ∧
      (∀ key, ((deleteStored a).eval (answer web fates) s).2.object key =
        if a.storedKey = some key ∧ (fates (.deleteObject key)).applied then none
        else s.object key) ∧
      (((deleteStored a).eval (answer web fates) s).1 = .ok () ↔
        ∀ key, a.storedKey = some key → fates (.deleteObject key) = .answered) := by
  unfold deleteStored
  cases hkey : a.storedKey with
  | none => simp
  | some key =>
    obtain ⟨hdb, hobject, hok⟩ := @answer_deleteObject web fates _ key
      (hs key hkey)
    simp only [eval_await]
    refine ⟨hdb, fun k => ?_, by simpa using hok⟩
    rw [hobject]
    by_cases hk : k = key
    · simp [hk]
    · simp [hk, Ne.symm hk]

theorem execAll_deletion {db : Database} {id : String} {a : PluginArtifact}
    (h : db.findArtifact id = some a) :
    ∃ db', execAll (deletion id) db = some db' ∧
      db'.artifacts = db.artifacts.filter (·.id ≠ id) := by
  have hfind : ∀ plugins, ({ db with plugins } : Database).findArtifact id = some a :=
    fun _ => h
  simp [execAll, deletion, Statement.exec, PluginWhere.matches, hfind]

theorem answer_deletion {s : State} {id : String} {a : PluginArtifact}
    (h : s.db.findArtifact id = some a) :
    (∀ k, (answer web fates (.transaction (deletion id)) s).2.object k = s.object k) ∧
      (answer web fates (.transaction (deletion id)) s).2.db.artifacts =
        if (fates (.transaction (deletion id))).applied then
          s.db.artifacts.filter (·.id ≠ id)
        else s.db.artifacts := by
  obtain ⟨db, hexec, hartifacts⟩ := execAll_deletion h
  cases hf : fates (.transaction (deletion id)) <;>
    simp [answer, hf, perform, hexec, hartifacts, State.object, Fate.applied]

/-- What a deletion leaves, once it has read the row. -/
structure Deleted (id : String) (a : PluginArtifact) (fates : Request → Fate) (s t : State) :
    Prop where
  object : ∀ key, t.object key =
    if a.storedKey = some key ∧ (fates (.deleteObject key)).applied then none else s.object key
  artifacts : t.db.artifacts =
    if (∀ key, a.storedKey = some key → fates (.deleteObject key) = .answered) ∧
        (fates (.transaction (deletion id))).applied then
      s.db.artifacts.filter (·.id ≠ id)
    else s.db.artifacts

theorem eval_deleteArtifact_of_unread {id : String} {s : State}
    (h : s.db.findArtifact id = none ∨ fates (.findArtifactWithServers id) ≠ .answered) :
    ((deleteArtifact id).eval (answer web fates) s).2 = s := by
  simp only [deleteArtifact, Async.eval_bind, eval_await]
  cases hf : fates (.findArtifactWithServers id) with
  | answered =>
    have hnone : s.db.findArtifact id = none := h.resolve_right (not_not_intro hf)
    simp [answer, hf, perform, hnone]
  | lost => simp [answer, hf, perform]
  | failed => simp [answer, hf]

theorem eval_deleteArtifact {id : String} {a : PluginArtifact} {s : State}
    (ha : s.db.findArtifact id = some a)
    (hread : fates (.findArtifactWithServers id) = .answered)
    (hs : ∀ key, a.storedKey = some key → s.bucket.isSome) :
    Deleted id a fates s ((deleteArtifact id).eval (answer web fates) s).2 := by
  have hfind : answer web fates (.findArtifactWithServers id) s =
      (.ok (some (a, s.db.serversOf id)), s) := by
    simp [answer, hread, perform, ha]
  simp only [deleteArtifact, Async.eval_bind, eval_await, hfind]
  obtain ⟨hdb, hobject, hok⟩ := @eval_deleteStored web fates _ a hs
  rcases hx : (deleteStored a).eval (answer web fates) s with ⟨r, t⟩
  rw [hx] at hdb hobject hok
  cases r with
  | error e =>
    simp only [reduceCtorEq, false_iff] at hok
    exact ⟨hobject, by rw [if_neg fun h => hok h.1]; exact congrArg Database.artifacts hdb⟩
  | ok _ =>
    have hanswered := hok.mp rfl
    rw [← hdb] at ha
    obtain ⟨hobject', hartifacts⟩ := @answer_deletion web fates _ _ _ ha
    rcases hy : answer web fates (.transaction (deletion id)) t with ⟨_ | _, u⟩
    all_goals
      simp only [hy, Async.eval_pure]
      rw [hy, hdb] at hartifacts
      rw [hy] at hobject'
      exact ⟨fun k => (hobject' k).trans (hobject k),
        by simpa only [and_iff_right hanswered] using hartifacts⟩

end Calls

/-! ## One call -/

section Step

variable {s : State} {e : Event}

theorem upload_contentNamed {fresh : Fresh} {file : File} {t : State}
    (h : Uploaded fresh file s t) (hs : s.ContentNamed) : t.ContentNamed := by
  intro b hb
  rcases h.row with hdb | ⟨-, a, hup⟩
  · exact hs b (hdb ▸ hb)
  rcases mem_upsertArtifact hup hb with hb | rfl | ⟨c, hc, hkey, rfl⟩
  · exact hs b hb
  · exact ⟨fun _ => rfl, fun key hk =>
      ⟨Sha256.length_hexDigest file.bytes, (Option.some.inj hk).symm⟩⟩
  · have hversion : c.sha256 = Sha256.hexDigest file.bytes :=
      ((hs c hc).version (congrArg ArtifactKey.provider hkey)).symm.trans
        (congrArg ArtifactKey.providerVersionId hkey)
    refine ⟨(hs c hc).version, fun key hk => ?_⟩
    have hsha : (c.update { objectKey := some (some
        (objectKeyOf (Sha256.hexDigest file.bytes))) }).sha256 = Sha256.hexDigest file.bytes :=
      hversion
    rw [hsha]
    exact ⟨Sha256.length_hexDigest _, (Option.some.inj hk).symm⟩

/-- What an upload writes is never missed, and it overwrites an object by its equal. -/
theorem upload_available {fresh : Fresh} {file : File} {t : State}
    (h : Uploaded fresh file s t) (hs : s.ContentNamed) (ha : s.Available) : t.Available := by
  have hkeep : ∀ b : PluginArtifact, b.ContentNamed → ∀ key, b.storedKey = some key →
      (∃ body, s.object key = some body ∧ Sha256.hexDigest body = b.sha256) →
      ∃ body, t.object key = some body ∧ Sha256.hexDigest body = b.sha256 := by
    rintro b hb key hkey ⟨body, hbody, hsha⟩
    rcases h.object key with hsame | ⟨hk, hnew⟩
    · exact ⟨body, hsame.trans hbody, hsha⟩
    · obtain ⟨hlen, hname⟩ := hb.key key (objectKey_of_storedKey hkey)
      exact ⟨file.bytes, hnew,
        objectKeyOf_injective (Sha256.length_hexDigest _) hlen (hk.symm.trans hname)⟩
  have ht := upload_contentNamed h hs
  intro b hb key hkey
  rcases h.row with hdb | ⟨hstored, a, hup⟩
  · exact hkeep b (ht b hb) key hkey (ha b (hdb ▸ hb) key hkey)
  rcases mem_upsertArtifact hup hb with hb' | rfl | ⟨c, hc, hck, rfl⟩
  · exact hkeep b (ht b hb) key hkey (ha b hb' key hkey)
  · obtain rfl : objectKeyOf (Sha256.hexDigest file.bytes) = key :=
      Option.some.inj (objectKey_of_storedKey hkey)
    exact ⟨file.bytes, hstored, rfl⟩
  · obtain rfl : objectKeyOf (Sha256.hexDigest file.bytes) = key :=
      Option.some.inj (objectKey_of_storedKey hkey)
    have hversion : c.providerVersionId = c.sha256 :=
      (hs c hc).version (congrArg ArtifactKey.provider hck)
    exact ⟨file.bytes, hstored,
      (congrArg ArtifactKey.providerVersionId hck).symm.trans hversion⟩

theorem Deleted.available_iff {id : String} {a : PluginArtifact} {fates : Request → Fate}
    {t : State} (h : Deleted id a fates s t) (ha : s.db.findArtifact id = some a)
    (hs : s.Available) :
    t.Available ↔ ∀ key, a.storedKey = some key → (fates (.deleteObject key)).applied →
      fates (.deleteObject key) = .answered ∧ (fates (.transaction (deletion id))).applied ∧
        ∀ b ∈ s.db.artifacts, b.id ≠ id → b.storedKey ≠ some key := by
  obtain ⟨hmem, hid⟩ := Database.mem_of_findArtifact ha
  constructor
  · intro ht key hkey hgone
    have hnone : t.object key = none := by rw [h.object, if_pos ⟨hkey, hgone⟩]
    -- no row that is left names the deleted object
    have hleft : ∀ b ∈ t.db.artifacts, b.storedKey ≠ some key := by
      intro b hb hbk
      obtain ⟨body, hbody, -⟩ := ht b hb key hbk
      rw [hnone] at hbody
      cases hbody
    by_cases hdone : (∀ k, a.storedKey = some k → fates (.deleteObject k) = .answered) ∧
        (fates (.transaction (deletion id))).applied
    · refine ⟨hdone.1 key hkey, hdone.2, fun b hb hne => hleft b ?_⟩
      rw [h.artifacts, if_pos hdone]
      exact List.mem_filter.mpr ⟨hb, by simpa using hne⟩
    · refine absurd hkey (hleft a ?_)
      rw [h.artifacts, if_neg hdone]
      exact hmem
  · intro hspare b hb key hkey
    have hbs : b ∈ s.db.artifacts := by
      rw [h.artifacts] at hb
      split_ifs at hb
      · exact (List.mem_filter.mp hb).1
      · exact hb
    obtain ⟨body, hbody, hsha⟩ := hs b hbs key hkey
    refine ⟨body, ?_, hsha⟩
    rw [h.object, if_neg, hbody]
    rintro ⟨hak, hgone⟩
    obtain ⟨hanswered, htx, hothers⟩ := hspare key hak hgone
    have hdone : ∀ k, a.storedKey = some k → fates (.deleteObject k) = .answered := by
      intro k hk
      rwa [← Option.some.inj (hak.symm.trans hk)]
    rw [h.artifacts, if_pos ⟨hdone, htx⟩] at hb
    exact hothers b hbs (by simpa using (List.mem_filter.mp hb).2) hkey

theorem next_upload {fresh : Fresh} {file : File} (h : e.call = .upload fresh file) :
    Uploaded fresh file s (e.next web s) := by
  rw [Event.next, h]
  exact eval_upload fresh file s

/-- A deletion does nothing before it has read its row. -/
theorem next_deleteArtifact {id : String} (h : e.call = .deleteArtifact id)
    (hs : s.Available) :
    (e.next web s = s ∧
      ∀ a, s.db.findArtifact id = some a → e.fates (.findArtifactWithServers id) ≠ .answered) ∨
    ∃ a, s.db.findArtifact id = some a ∧ e.fates (.findArtifactWithServers id) = .answered ∧
      Deleted id a e.fates s (e.next web s) := by
  rw [Event.next, h]
  by_cases hread : ∃ a, s.db.findArtifact id = some a ∧
      e.fates (.findArtifactWithServers id) = .answered
  · obtain ⟨a, hfind, hread⟩ := hread
    refine .inr ⟨a, hfind, hread, eval_deleteArtifact hfind hread fun key hkey => ?_⟩
    obtain ⟨body, hbody, -⟩ := hs a (Database.mem_of_findArtifact hfind).1 key hkey
    obtain ⟨objects, hb, -⟩ := Option.bind_eq_some_iff.mp hbody
    simp [hb]
  · have hunread : ∀ a, s.db.findArtifact id = some a →
        e.fates (.findArtifactWithServers id) ≠ .answered := fun a ha hf => hread ⟨a, ha, hf⟩
    refine .inl ⟨eval_deleteArtifact_of_unread ?_, hunread⟩
    cases hfind : s.db.findArtifact id with
    | none => exact .inl rfl
    | some a => exact .inr (hunread a hfind)

theorem next_contentNamed (hs : s.ContentNamed) (ha : s.Available) :
    (e.next web s).ContentNamed := by
  cases hcall : e.call with
  | upload fresh file => exact upload_contentNamed (next_upload hcall) hs
  | deleteArtifact id =>
    rcases @next_deleteArtifact web _ _ _ hcall ha with ⟨hsame, -⟩ | ⟨a, -, -, hdel⟩
    · rwa [hsame]
    · intro b hb
      rw [hdel.artifacts] at hb
      split_ifs at hb
      · exact hs b (List.mem_filter.mp hb).1
      · exact hs b hb

theorem next_available_iff (hs : s.ContentNamed) (ha : s.Available) :
    (e.next web s).Available ↔ e.Spares s := by
  unfold Event.Spares
  cases hcall : e.call with
  | upload fresh file => simpa using upload_available (next_upload hcall) hs ha
  | deleteArtifact id =>
    rcases @next_deleteArtifact web _ _ _ hcall ha with ⟨hsame, hunread⟩ | ⟨a, hfind, hread, hdel⟩
    · rw [hsame]
      exact iff_of_true ha fun a key hfind _ hread => absurd hread (hunread a hfind)
    · rw [hdel.available_iff hfind ha]
      constructor
      · intro h b key hb hkey _
        obtain rfl : a = b := Option.some.inj (hfind.symm.trans hb)
        exact h key hkey
      · exact fun h key hkey => h a key hfind hkey hread

end Step

/-! ## Whole runs -/

@[simp] theorem states_nil (s : State) : states web s [] = [s] := rfl

@[simp] theorem states_cons (s : State) (e : Event) (run : List Event) :
    states web s (e :: run) = s :: states web (e.next web s) run := by
  simp [states]

@[simp] theorem steps_nil (s : State) : steps web s [] = [] := rfl

@[simp] theorem steps_cons (s : State) (e : Event) (run : List Event) :
    steps web s (e :: run) = (s, e) :: steps web (e.next web s) run := by
  simp [steps]

theorem available_of_mem_states {s : State} {run : List Event}
    (h : ∀ t ∈ states web s run, t.Available) : s.Available := by
  cases run <;> exact h s (by simp)

/-- Every stored plugin stays downloadable just when no deletion removes an object whose
row stays or that another row names. -/
theorem available_iff_spares {s : State} (hs : s.ContentNamed) (ha : s.Available)
    (run : List Event) :
    (∀ t ∈ states web s run, t.Available) ↔ ∀ x ∈ steps web s run, x.2.Spares x.1 := by
  induction run generalizing s with
  | nil => simpa using ha
  | cons e run ih =>
    rw [states_cons, steps_cons, List.forall_mem_cons, List.forall_mem_cons]
    constructor
    · rintro ⟨-, hrest⟩
      have hnext := available_of_mem_states hrest
      exact ⟨(next_available_iff hs ha).mp hnext,
        (ih (next_contentNamed hs ha) hnext).mp hrest⟩
    · rintro ⟨hspare, hrest⟩
      have hnext : (e.next web s).Available := (next_available_iff hs ha).mpr hspare
      exact ⟨ha, (ih (next_contentNamed hs ha) hnext).mpr hrest⟩

/-- The beginning of a ZIP archive, which is all that an upload looks at. -/
def zip : Bytes := [0x50, 0x4b]

/-- One content under two names, and the deletion of the first. -/
def twins : List Event := [
  ⟨.upload ⟨"1", "t1"⟩ ⟨"a.jar", zip⟩, fun _ => .answered⟩,
  ⟨.upload ⟨"2", "t2"⟩ ⟨"b.jar", zip⟩, fun _ => .answered⟩,
  ⟨.deleteArtifact "1", fun _ => .answered⟩]

theorem available_iff_spares_twins :
    (∀ t ∈ states (fun _ => none) {} twins, t.Available) ↔
      ∀ x ∈ steps (fun _ => none) {} twins, x.2.Spares x.1 :=
  available_iff_spares (by simp [State.ContentNamed]) (by simp [State.Available]) twins

def twinRow (id token name : String) : PluginArtifact := File.create ⟨name, zip⟩ ⟨id, token⟩

def twinState (rows : List PluginArtifact) (objects : List (String × Bytes)) : State where
  db := { artifacts := rows }
  bucket := some objects

theorem states_twins : states web {} twins = [
    {}, twinState [twinRow "1" "t1" "a.jar"] [(objectKeyOf (Sha256.hexDigest zip), zip)],
    twinState [twinRow "1" "t1" "a.jar", twinRow "2" "t2" "b.jar"]
      [(objectKeyOf (Sha256.hexDigest zip), zip)],
    twinState [twinRow "2" "t2" "b.jar"] []] := by
  have hzip : isZip zip := by decide
  have hsize : ¬ maxUploadBytes < zip.length := by decide
  have hne : zip ≠ [] := by decide
  have ha : hasJarSuffix "a.jar" := by decide
  have hb : hasJarSuffix "b.jar" := by decide
  have hk := objectKeyOf_ne_empty (Sha256.hexDigest zip)
  simp [twins, twinState, twinRow, Event.next, answer, perform, ha, hb, hzip, hsize, hne,
    upload, ensureBucket, setEntry, upsertArtifact, Database.findByKey, File.create, File.key,
    PluginArtifact.key, deleteArtifact, Database.findArtifact, deleteStored,
    PluginArtifact.storedKey, hk, deletion, execAll, Statement.exec, Option.filter_some,
    -bind_pure_comp]

/-- The second plugin is still a row, and its bytes are gone. -/
theorem twins_unavailable :
    ¬ ∀ (run : List Event), ∀ t ∈ states (fun _ => none) {} run, t.Available := by
  intro h
  have hlast := h twins (twinState [twinRow "2" "t2" "b.jar"] []) (by rw [states_twins]; simp)
  obtain ⟨body, hbody, -⟩ := hlast (twinRow "2" "t2" "b.jar") (by simp [twinState])
    (objectKeyOf (Sha256.hexDigest zip))
    (by simp [twinRow, File.create, PluginArtifact.storedKey, Option.filter_some,
      objectKeyOf_ne_empty])
  simp [twinState, State.object] at hbody

/-- A stored plugin of an available state is downloaded with the content of its hash. -/
theorem download_of_available {s : State} (hs : s.Available) {a : PluginArtifact} {key : String}
    (ha : s.db.artifacts.find? (·.downloadToken = a.downloadToken) = some a)
    (hkey : a.storedKey = some key) :
    ∃ body, Sha256.hexDigest body = a.sha256 ∧
      (download a.downloadToken).eval (answer web fun _ => .answered) s =
        (.ok (a.attachment body), s) := by
  obtain ⟨body, hbody, hsha⟩ := hs a (List.mem_of_find?_eq_some ha) key hkey
  have hmode : a.storageMode = .s3 := by
    unfold PluginArtifact.storedKey at hkey
    split at hkey
    · assumption
    · cases hkey
  have hobject : a.objectKey.filter (· ≠ "") = some key := by
    rwa [PluginArtifact.storedKey, if_pos hmode] at hkey
  refine ⟨body, hsha, ?_⟩
  have hfind : answer web (fun _ => .answered) (.findByToken a.downloadToken) s =
      (.ok (some a), s) := by
    simp only [answer, perform, ha]
  have hget : answer web (fun _ => .answered) (.getObject key) s = (.ok body, s) := by
    simp only [answer, perform, hbody]
  simp only [download, Async.eval_bind, eval_await, hfind, hmode, hobject, hget, Async.eval_pure]

end Minikura.Registry
