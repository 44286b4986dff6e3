import Minikura.Concurrency.Team
import Minikura.Registry.Catalog
import Minikura.Registry.Storage

/-!
# What downloads deliver

All methods of the service run at the same time. Rows and objects may come and go, and a
download may find neither; but what it delivers under a token is what was registered or uploaded
for it. A listing in between fills in metadata only.

## Main definitions

* `CatalogCall`, `RegistrySteps` — the service at work.
* `Origin`, `originOf` — which artifact a token was made for, and where its file may be.
* `Download.Genuine` — a redirect to the provider, or the bytes that were uploaded.

## Main result

* `downloads_genuine` — every download of every run is genuine.
-/

namespace Minikura.Registry
open Concurrency

/-! ## The service at work -/

inductive CatalogCall where
  | call (c : Call)
  | search (query platform : String) (minecraftVersion : Option String)
  | versions (provider : PluginProvider) (projectId platform : String)
      (minecraftVersion : Option String)
  | listArtifacts
  | list (serverId : String)
  | download (token : String)

/-- What a call runs; of the results only that of a download is of interest. -/
def CatalogCall.code (parseUrl : String → Option Url) : CatalogCall → CatalogTask (Option Download)
  | .call c => do
    CatalogTask.ofTask (ExceptT.mk (codeOf parseUrl c))
    return none
  | .search query platform minecraftVersion => do
    let _ ← Registry.search query platform minecraftVersion
    return none
  | .versions provider projectId platform minecraftVersion => do
    let _ ← Registry.versions provider projectId platform minecraftVersion
    return none
  | .listArtifacts => do
    let _ ← Registry.listArtifacts
    return none
  | .list serverId => do
    let _ ← Registry.list serverId
    return none
  | .download token => do
    return some (← CatalogTask.ofTask (Registry.download token))

/-- Providers may have anything at any time, and any request may fail, also after it has taken
effect. -/
def catalogApi : Handler CatalogRequest (Settled Error CatalogAnswer) State :=
  Handler.lossy fun c s r s' => ∃ web providers, catalogPerform web providers c s = (r, s')

/-- Servers come and go with their plugins. -/
def Elsewhere (s s' : State) : Prop :=
  s'.db.artifacts = s.db.artifacts ∧ s'.bucket = s.bucket

/-- Any calls of the service, interleaved request by request. -/
abbrev RegistrySteps {ι : Type} [DecidableEq ι] (parseUrl : String → Option Url)
    (calls : ι → CatalogCall) :=
  TeamSteps catalogApi Elsewhere fun i => ((calls i).code parseUrl).run

/-! ## Origins -/

/-- An URL that is registered for a provider. -/
def Allowed (parseUrl : String → Option Url) (provider : PluginProvider) (value : String) : Prop :=
  ∃ url, parseUrl value = some url ∧ url.protocol = "https:" ∧
    (provider = .modrinth ∧ url.hostname = "cdn.modrinth.com" ∨
      provider = .hangar ∧ url.hostname = "hangarcdn.papermc.io")

/-- The artifacts that tokens were made for, and the URLs that were registered for artifacts. -/
structure Origin where
  token : String → ArtifactKey → Prop
  source : ArtifactKey → String → Prop

def originOf {ι : Type} (parseUrl : String → Option Url) (calls : ι → CatalogCall) : Origin where
  token t key := ∃ i fresh, fresh.downloadToken = t ∧
    ((∃ input, calls i = .call (.register fresh input) ∧ input.key = key) ∨
      ∃ file, calls i = .call (.upload fresh file) ∧ file.key = key)
  source key value := ∃ i fresh input, calls i = .call (.register fresh input) ∧
    input.key = key ∧ input.downloadUrl = value ∧ Allowed parseUrl input.provider value

/-- What a download under a token may deliver. -/
def Download.Genuine (o : Origin) (token : String) : Download → Prop
  | .redirect url => ∃ key, o.token token key ∧ o.source key url
  | .response body disposition etag => ∃ filename,
      o.token token ⟨.upload, Sha256.hexDigest body, "SERVER", filename⟩ ∧
      disposition = "attachment; filename=" ++
        quoted (String.ofList (filename.toList.filter (· ≠ '"'))) ∧
      etag = quoted (Sha256.hexDigest body)

structure PluginArtifact.Genuine (o : Origin) (a : PluginArtifact) : Prop where
  token : o.token a.downloadToken a.key
  uploaded : a.provider = .upload → a.sha256.length = 64 ∧
    a.key = ⟨.upload, a.sha256, "SERVER", a.filename⟩ ∧ a.sourceUrl = none ∧
    a.objectKey = some (objectKeyOf a.sha256)
  remote : a.provider ≠ .upload → a.objectKey = none ∧
    ∀ url, a.sourceUrl = some url → o.source a.key url

/-- An object under the key of a hash has this hash. -/
def State.ContentAddressed (s : State) : Prop :=
  ∀ h body, h.length = 64 → s.object (objectKeyOf h) = some body → Sha256.hexDigest body = h

structure State.Genuine (o : Origin) (s : State) : Prop where
  rows : ∀ a ∈ s.db.artifacts, a.Genuine o
  objects : s.ContentAddressed

/-- What a request may write. -/
def Proper (o : Origin) : CatalogRequest → Prop
  | .registry (.upsertArtifact key update create) => create.Genuine o ∧
      ∀ a : PluginArtifact, a.key = key → a.Genuine o → (a.update update).Genuine o
  | .registry (.putObject key body) => key = objectKeyOf (Sha256.hexDigest body)
  | .updateMetadata _ data => ∀ a : PluginArtifact, a.Genuine o → (a.update data).Genuine o
  | _ => True

variable {o : Origin} {parseUrl : String → Option Url}

/-! ## Requests -/

theorem artifacts_exec {statement : Statement} {db db' : Database}
    (h : statement.exec db = some db') : db'.artifacts ⊆ db.artifacts := by
  intro a ha
  cases statement with
  | deletePlugins w =>
    obtain rfl := Option.some.inj h
    exact ha
  | upsertPlugin id serverId artifactId =>
    simp only [Statement.exec] at h
    split_ifs at h
    all_goals
      obtain rfl := Option.some.inj h
      exact ha
  | deleteArtifact id =>
    simp only [Statement.exec] at h
    split_ifs at h
    obtain rfl := Option.some.inj h
    exact List.mem_of_mem_filter ha

/-- Transactions delete artifacts at most. -/
theorem artifacts_execAll {statements : List Statement} {db db' : Database}
    (h : execAll statements db = some db') : db'.artifacts ⊆ db.artifacts := by
  induction statements generalizing db with
  | nil =>
    obtain rfl := Option.some.inj h
    exact List.Subset.refl _
  | cons statement rest ih =>
    rw [execAll, List.foldlM_cons, Option.bind_eq_bind, Option.bind_eq_some_iff] at h
    obtain ⟨db₁, hfirst, hrest⟩ := h
    exact fun a ha => artifacts_exec hfirst (ih hrest ha)

theorem State.ContentAddressed.mono {s t : State} (hs : s.ContentAddressed)
    (h : ∀ key body, t.object key = some body →
      s.object key = some body ∨ key = objectKeyOf (Sha256.hexDigest body)) :
    t.ContentAddressed := by
  intro hash body hlength hbody
  rcases h _ _ hbody with hold | hkey
  · exact hs hash body hlength hold
  · exact (objectKeyOf_injective hlength (Sha256.length_hexDigest body) hkey).symm

/-- A request that writes nothing improper keeps everything genuine. -/
theorem genuine_perform {web : String → Option Bytes} {c : Request} {s : State}
    (hc : Proper o (.registry c)) (hs : s.Genuine o) : (perform web c s).2.Genuine o := by
  obtain ⟨hrows, hobjects⟩ := hs
  cases c with
  | upsertArtifact key update create =>
    simp only [perform]
    cases hu : Registry.upsertArtifact key update create s.db with
    | none => exact ⟨hrows, hobjects⟩
    | some r =>
      refine ⟨fun a ha => ?_, hobjects⟩
      rcases mem_upsertArtifact hu ha with ha | rfl | ⟨b, hb, hkey, rfl⟩
      · exact hrows a ha
      · exact hc.1
      · exact hc.2 b hkey (hrows b hb)
  | transaction statements =>
    simp only [perform]
    cases he : execAll statements s.db with
    | none => exact ⟨hrows, hobjects⟩
    | some db => exact ⟨fun a ha => hrows a (artifacts_execAll he ha), hobjects⟩
  | createBucket =>
    refine ⟨hrows, hobjects.mono fun key body hbody => .inl ?_⟩
    cases hb : s.bucket <;> simp_all [perform, State.object]
  | putObject key body =>
    simp only [perform]
    cases hb : s.bucket with
    | none => exact ⟨hrows, hobjects⟩
    | some objects =>
      refine ⟨hrows, hobjects.mono fun key' body' hbody => ?_⟩
      rw [State.object, Option.bind_some, lookup_setEntry] at hbody
      split_ifs at hbody with hkey
      · obtain rfl := Option.some.inj hbody
        exact .inr (hkey.trans hc)
      · exact .inl (by rw [State.object, hb, Option.bind_some, hbody])
  | deleteObject key =>
    simp only [perform]
    cases hb : s.bucket with
    | none => exact ⟨hrows, hobjects⟩
    | some objects =>
      refine ⟨hrows, hobjects.mono fun key' body hbody => .inl ?_⟩
      rw [State.object, Option.bind_some, lookup_filter_ne] at hbody
      split_ifs at hbody
      rw [State.object, hb, Option.bind_some, hbody]
  | getObject key =>
    simp only [perform]
    cases s.object key <;> exact ⟨hrows, hobjects⟩
  | _ => exact ⟨hrows, hobjects⟩

theorem genuine_catalogPerform {web : String → Option Bytes}
    {providers : (f : Fetch) → Option (Fetched f)} {c : CatalogRequest} {s : State}
    (hc : Proper o c) (hs : s.Genuine o) : (catalogPerform web providers c s).2.Genuine o := by
  cases c with
  | registry c => exact genuine_perform hc hs
  | updateMetadata id data =>
    simp only [catalogPerform]
    cases s.db.findArtifact id with
    | none => exact hs
    | some _ =>
      refine ⟨fun a ha => ?_, hs.objects⟩
      obtain ⟨b, hb, rfl⟩ := List.mem_map.mp ha
      split_ifs
      · exact hc b (hs.rows b hb)
      · exact hs.rows b hb
  | _ => exact hs

/-- Failing or not. -/
theorem genuine_catalogApi {c : CatalogRequest} {r : Settled Error CatalogAnswer c} {s s' : State}
    (hc : Proper o c) (hs : s.Genuine o) (h : catalogApi c s r s') : s'.Genuine o := by
  have hperform : ∀ web providers r, catalogPerform web providers c s = (r, s') →
      s'.Genuine o := by
    intro web providers r hr
    have hnext := @genuine_catalogPerform o web providers c s hc hs
    rwa [hr] at hnext
  rcases h with ⟨web, providers, hr⟩ | ⟨e, -, rfl | ⟨r', web, providers, hr⟩⟩
  · exact hperform web providers r hr
  · exact hs
  · exact hperform web providers r' hr

/-! ## The methods -/

theorem validateProviderUrl_cases (provider : PluginProvider) (value : String) :
    (∃ e, validateProviderUrl parseUrl provider value = throw e) ∨
      validateProviderUrl parseUrl provider value = pure () ∧ Allowed parseUrl provider value := by
  unfold validateProviderUrl Allowed
  split
  · exact .inl ⟨_, rfl⟩
  · next url hurl =>
    dsimp only
    split_ifs with hallowed
    · refine .inr ⟨rfl, url, hurl, ?_⟩
      cases provider <;> simp_all
    · exact .inl ⟨_, rfl⟩

theorem Allowed.provider_ne {provider : PluginProvider} {value : String}
    (h : Allowed parseUrl provider value) : provider ≠ .upload := by
  obtain ⟨url, -, -, ⟨rfl, -⟩ | ⟨rfl, -⟩⟩ := h <;> decide

/-- What the requests of a program over the service's own interface may write. -/
abbrev Task.Proper {α : Type} (o : Origin) (p : Task α) : Prop :=
  p.run.Only fun c => Registry.Proper o (.registry c)

theorem proper_hashRemoteFile (url : String) (expectedSize : ℕ) :
    (hashRemoteFile url expectedSize).Proper o := by
  unfold hashRemoteFile
  split_ifs
  · trivial
  · refine Async.only_bind (Async.only_await trivial) fun bytes => ?_
    cases bytes with
    | none => trivial
    | some bytes =>
      dsimp only
      split_ifs <;> trivial

theorem proper_upsert_register {fresh : Fresh} {input : RegistryVersion}
    (htoken : o.token fresh.downloadToken input.key)
    (hsource : o.source input.key input.downloadUrl)
    (hprovider : input.provider ≠ .upload) (sha256 : String) :
    Proper o (.registry
      (.upsertArtifact input.key (input.update sha256) (input.create sha256 fresh))) := by
  refine ⟨⟨htoken, fun h => absurd h hprovider, fun _ => ⟨rfl, ?_⟩⟩, fun a hkey ha => ?_⟩
  · rintro url ⟨⟩
    exact hsource
  · have hne : a.provider ≠ .upload := fun h => hprovider
      ((congrArg ArtifactKey.provider hkey).symm.trans h)
    refine ⟨ha.token, fun h => absurd h hne, fun _ => ⟨(ha.remote hne).1, ?_⟩⟩
    rintro url ⟨⟩
    exact hkey.symm ▸ hsource

theorem proper_register {fresh : Fresh} {input : RegistryVersion}
    (htoken : o.token fresh.downloadToken input.key)
    (hsource : Allowed parseUrl input.provider input.downloadUrl →
      o.source input.key input.downloadUrl) :
    (register parseUrl fresh input).Proper o := by
  unfold register
  rcases @validateProviderUrl_cases parseUrl input.provider input.downloadUrl with
    ⟨e, he⟩ | ⟨hok, hallowed⟩
  · rw [he]
    trivial
  · rw [hok]
    refine Async.only_bind trivial fun _ => ?_
    have hupsert := proper_upsert_register htoken (hsource hallowed) hallowed.provider_ne
    cases input.sha256 with
    | some sha256 => exact Async.only_await (hupsert sha256)
    | none =>
      exact Async.only_bind (proper_hashRemoteFile _ _) fun sha256 =>
        Async.only_await (hupsert sha256)

theorem proper_upload {fresh : Fresh} {file : File}
    (htoken : o.token fresh.downloadToken file.key) : (upload fresh file).Proper o := by
  unfold upload
  split_ifs
  · trivial
  · trivial
  · trivial
  · refine Async.only_bind (Async.only_bind (Async.only_attempt (Async.only_await trivial))
      fun r => ?_) fun _ => Async.only_bind (Async.only_await rfl) fun _ =>
        Async.only_await ⟨⟨htoken, fun _ => ?_, fun h => absurd rfl h⟩, fun a hkey ha => ?_⟩
    · cases r with
      | ok _ => trivial
      | error _ => exact Async.only_await trivial
    · exact ⟨Sha256.length_hexDigest _, rfl, rfl, rfl⟩
    · have hprovider : a.provider = .upload := congrArg ArtifactKey.provider hkey
      obtain ⟨hlength, hversion, hsource, -⟩ := ha.uploaded hprovider
      have hsha : a.sha256 = Sha256.hexDigest file.bytes :=
        congrArg ArtifactKey.providerVersionId (hversion.symm.trans hkey)
      refine ⟨ha.token, fun _ => ⟨hlength, hversion, hsource, ?_⟩, fun h => absurd hprovider h⟩
      exact congrArg (fun sha => some (objectKeyOf sha)) hsha.symm

theorem proper_deploy (id serverId artifactId : String) :
    (deploy id serverId artifactId).Proper o := by
  refine Async.only_bind (Loose.only_finish (Loose.only_both (Loose.only_ofAsync
    (Async.only_await trivial)) (Loose.only_ofAsync (Async.only_await trivial)))) fun x => ?_
  obtain ⟨server, artifact⟩ := x
  cases server with
  | false => trivial
  | true =>
    cases artifact with
    | none => trivial
    | some artifact => exact Async.only_bind (Async.only_await trivial) fun _ => trivial

theorem proper_reconcile (ids : String → String) (serverId : String) (artifactIds : List String) :
    (reconcile ids serverId artifactIds).Proper o := by
  refine Async.only_bind (Async.only_await trivial) fun server => ?_
  cases server with
  | false => trivial
  | true =>
    refine Async.only_bind (Async.only_await trivial) fun artifacts => ?_
    split
    · trivial
    · exact Async.only_await trivial

theorem proper_remove (serverId installationId : String) :
    (remove serverId installationId).Proper o := by
  refine Async.only_bind (Async.only_await trivial) fun count => ?_
  split <;> trivial

theorem proper_deleteArtifact (artifactId : String) : (deleteArtifact artifactId).Proper o := by
  refine Async.only_bind (Async.only_await trivial) fun r => ?_
  cases r with
  | none => trivial
  | some x =>
    refine Async.only_bind ?_ fun _ => Async.only_bind (Async.only_await trivial) fun _ => trivial
    unfold deleteStored
    split
    · exact Async.only_await trivial
    · trivial

theorem proper_project (provider : PluginProvider) (projectId : String) :
    (project provider projectId).run.Only (Proper o) := by
  unfold project
  cases provider with
  | modrinth => exact Async.only_bind (Async.only_await trivial) fun _ => trivial
  | hangar =>
    dsimp only
    split
    · trivial
    · exact Async.only_bind (Async.only_await trivial) fun _ => trivial
  | upload => trivial

/-- A listing writes what no download depends on. -/
theorem proper_listArtifacts : listArtifacts.run.Only (Proper o) := by
  refine Async.only_bind (Async.only_await trivial) fun missingMetadata => Async.only_bind
    (Async.only_allSettled fun p hp => ?_) fun _ => Async.only_await trivial
  obtain ⟨artifact, -, rfl⟩ := List.mem_map.mp hp
  exact Async.only_bind (proper_project _ _) fun found =>
    Async.only_await fun a ha => ⟨ha.token, ha.uploaded, ha.remote⟩

/-! ## Downloads -/

/-- The service's own interface to the database, the bucket and the providers. -/
def registryApi : Handler Request (Settled Error Answer) State :=
  catalogApi.through .registry fun _ r => r

/-- A request that is answered is answered from the state. -/
theorem perform_of_registryApi {c : Request} {a : Answer c} {s s' : State}
    (h : registryApi c s (.ok a) s') : ∃ web, perform web c s = (.ok a, s') := by
  obtain ⟨r, hr, rfl⟩ := h
  rcases hr with ⟨web, providers, hr⟩ | ⟨e, he, -⟩
  · exact ⟨web, hr⟩
  · cases he

theorem genuine_registryApi {c : Request} {r : Settled Error Answer c} {s s' : State}
    (hc : Proper o (.registry c)) (hs : s.Genuine o) (h : registryApi c s r s') :
    s'.Genuine o := by
  obtain ⟨r', hr, -⟩ := h
  exact genuine_catalogApi hc hs hr

variable {token : String} {s : State}

/-- A program that has come to an end keeps everything genuine. -/
theorem wp_pure_genuine {r : Except Error Download} (h : ∀ d, r = .ok d → d.Genuine o token) :
    wp registryApi (.keeping (State.Genuine o)) (.pure r)
      (fun r _ => ∀ d, r = .ok d → d.Genuine o token) s :=
  fun _ _ => h

theorem wp_error_genuine {e : Error} :
    wp registryApi (.keeping (State.Genuine o)) (.pure (.error e : Except Error Download))
      (fun r _ => ∀ d, r = .ok d → d.Genuine o token) s := by
  refine wp_pure_genuine ?_
  intro d hd
  cases hd

/-- What the artifact of a token has under its key is what was uploaded. -/
theorem wp_getObject {a : PluginArtifact} {key : String} (ha : a.Genuine o)
    (htoken : a.downloadToken = token) (hkey : a.objectKey = some key) (hs : s.Genuine o) :
    wp registryApi (.keeping (State.Genuine o))
      (do return a.attachment (← await (.getObject key)) : Task Download).run
      (fun r _ => ∀ d, r = .ok d → d.Genuine o token) s := by
  intro t ht r u hu
  have hproper : Proper o (.registry (.getObject key)) := trivial
  refine ⟨fun ht => genuine_registryApi hproper ht hu, ?_⟩
  cases r with
  | error e => exact wp_error_genuine
  | ok body =>
    refine wp_pure_genuine ?_
    rintro d ⟨⟩
    have hprovider : a.provider = .upload := by
      by_contra hne
      rw [(ha.remote hne).1] at hkey
      cases hkey
    obtain ⟨hlength, hrow, -, hobject⟩ := ha.uploaded hprovider
    obtain rfl := Option.some.inj (hkey.symm.trans hobject)
    obtain ⟨web, hperform⟩ := perform_of_registryApi hu
    have hfound : t.object (objectKeyOf a.sha256) = some body := by
      simp only [perform] at hperform
      cases hobj : t.object (objectKeyOf a.sha256) with
      | none => simp [hobj] at hperform
      | some found => simpa [hobj] using congrArg Prod.fst hperform
    have hsha := (ht hs).objects _ _ hlength hfound
    refine ⟨a.filename, ?_, rfl, congrArg quoted hsha.symm⟩
    rw [hsha, ← htoken, ← hrow]
    exact ha.token

theorem wp_download (hs : s.Genuine o) :
    wp registryApi (.keeping (State.Genuine o)) (download token).run
      (fun r _ => ∀ d, r = .ok d → d.Genuine o token) s := by
  unfold download
  refine wp_async_bind fun t ht r u hu => ?_
  have hproper : Proper o (.registry (.findByToken token)) := trivial
  have hgenuine := genuine_registryApi hproper (ht hs) hu
  refine ⟨fun _ => hgenuine, fun v hv => ?_⟩
  cases r with
  | error e => exact wp_error_genuine
  | ok found =>
    obtain ⟨web, hperform⟩ := perform_of_registryApi hu
    have hfound : t.db.artifacts.find? (·.downloadToken = token) = found := by
      simpa [perform] using congrArg Prod.fst hperform
    cases found with
    | none => exact wp_error_genuine
    | some a =>
      have ha := (ht hs).rows a (List.mem_of_find?_eq_some hfound)
      have htoken : a.downloadToken = token := by simpa using List.find?_some hfound
      dsimp only
      split
      · -- a remote artifact with its URL
        next url hmode hurl =>
        refine wp_pure_genuine ?_
        rintro d ⟨⟩
        have hsource := (Option.filter_eq_some_iff.mp hurl).1
        have hprovider : a.provider ≠ .upload := by
          intro hup
          rw [(ha.uploaded hup).2.2.1] at hsource
          cases hsource
        exact ⟨a.key, htoken ▸ ha.token, (ha.remote hprovider).2 url hsource⟩
      · split
        · exact wp_error_genuine
        · next key hkey =>
          exact wp_getObject ha htoken (Option.filter_eq_some_iff.mp hkey).1 (hv hgenuine)

/-! ## Runs -/

section Runs

variable {ι : Type} {calls : ι → CatalogCall} {i : ι}

theorem proper_ofTask {α : Type} {p : Task α} (hp : p.Proper o) :
    (CatalogTask.ofTask p).run.Only (Proper o) :=
  Prog.Only.translate hp fun _ hc => hc

theorem proper_codeOf {c : Call} (hi : calls i = .call c) :
    (codeOf parseUrl c).Only fun c => Proper (originOf parseUrl calls) (.registry c) := by
  cases c with
  | deploy id serverId artifactId =>
    exact Async.only_bind (proper_deploy id serverId artifactId) fun _ => trivial
  | reconcile ids serverId artifactIds => exact proper_reconcile ids serverId artifactIds
  | remove serverId installationId => exact proper_remove serverId installationId
  | register fresh input =>
    exact Async.only_bind (proper_register ⟨i, fresh, rfl, .inl ⟨input, hi, rfl⟩⟩
      fun hallowed => ⟨i, fresh, input, hi, rfl, rfl, hallowed⟩) fun _ => trivial
  | upload fresh file =>
    exact Async.only_bind (proper_upload ⟨i, fresh, rfl, .inr ⟨file, hi, rfl⟩⟩) fun _ => trivial
  | deleteArtifact artifactId =>
    exact Async.only_bind (proper_deleteArtifact artifactId) fun _ => trivial

theorem proper_versions (provider : PluginProvider) (projectId platform : String)
    (minecraftVersion : Option String) :
    (versions provider projectId platform minecraftVersion).run.Only (Proper o) := by
  unfold versions
  split_ifs
  · exact Async.only_bind (Async.only_await trivial) fun _ => trivial
  · split
    · trivial
    · exact Async.only_bind (Async.only_await trivial) fun _ => trivial

theorem proper_code {call : CatalogCall} (hi : calls i = call)
    (hnot : ∀ token, call ≠ .download token) :
    (call.code parseUrl).run.Only (Proper (originOf parseUrl calls)) := by
  cases call with
  | call c => exact Async.only_bind (proper_ofTask (proper_codeOf hi)) fun _ => trivial
  | search query platform minecraftVersion =>
    exact Async.only_bind (Async.only_bind (Async.only_bothSettled (Async.only_await trivial)
      (Async.only_await trivial)) fun _ => trivial) fun _ => trivial
  | versions provider projectId platform minecraftVersion =>
    exact Async.only_bind (proper_versions provider projectId platform minecraftVersion)
      fun _ => trivial
  | listArtifacts => exact Async.only_bind proper_listArtifacts fun _ => trivial
  | list serverId => exact Async.only_bind (Async.only_await trivial) fun _ => trivial
  | download token => exact absurd rfl (hnot token)

/-- What a download returns is genuine, and nobody writes anything that is not. -/
theorem wp_code {s : State} (hs : s.Genuine (originOf parseUrl calls)) :
    wp catalogApi (.keeping (State.Genuine (originOf parseUrl calls)))
      ((calls i).code parseUrl).run
      (fun r _ => ∀ token d, calls i = .download token → r = .ok (some d) →
        d.Genuine (originOf parseUrl calls) token) s := by
  by_cases hdownload : ∃ token, calls i = .download token
  · obtain ⟨token, hi⟩ := hdownload
    rw [hi]
    refine wp_async_bind (wp_mono (wp_translate (wp_download hs)) fun r t hr => ?_)
    cases r with
    | error e =>
      intro _ _ _ _ _ hd
      cases hd
    | ok d =>
      rintro u - token' d' ⟨⟩ ⟨⟩
      exact hr d rfl
  · have honly := @proper_code parseUrl ι calls i (calls i) rfl
      fun token hi => hdownload ⟨token, hi⟩
    refine wp_mono (wp_of_only honly hs (fun _ _ ht h => h ht) fun c t r u hc ht hu =>
      ⟨fun ht => genuine_catalogApi hc ht hu, genuine_catalogApi hc ht hu⟩) ?_
    exact fun _ _ _ token _ hi => absurd ⟨token, hi⟩ hdownload

theorem registrySpec [DecidableEq ι] : TeamSpec catalogApi Elsewhere
    (fun i => ((calls i).code parseUrl).run)
    (fun _ => .keeping (State.Genuine (originOf parseUrl calls)))
    (fun i r _ => ∀ token d, calls i = .download token → r = .ok (some d) →
      d.Genuine (originOf parseUrl calls) token)
    (State.Genuine (originOf parseUrl calls)) := by
  refine TeamSpec.keeping ?_ fun i s hs => wp_code hs
  rintro s s' ⟨hrows, hobjects⟩ ⟨hdb, hbucket⟩
  refine ⟨by rwa [hdb], fun h body hlength hbody => hobjects h body hlength ?_⟩
  rwa [State.object, hbucket] at hbody

end Runs

/-- A file is uploaded and then downloaded. -/
def chatCalls : Bool → CatalogCall
  | false => .call (.upload ⟨"1", "t1"⟩ ⟨"chat.jar", zip⟩)
  | true => .download "t1"

/-- A call on its own, with four requests at most and nothing to be had from the providers. -/
def answered (call : CatalogCall) (s : State) :
    Prog CatalogRequest (Settled Error CatalogAnswer) (Except Error (Option Download)) × State :=
  (call.code fun _ => none).run.runTurns
    (fun c s => some (catalogPerform (fun _ => none) (fun _ => none) c s)) [.go, .go, .go, .go] s

theorem steps_answered {call : CatalogCall} {s : State} {r : Except Error (Option Download)}
    (h : (answered call s).1.result? = some r) :
    Steps catalogApi Quiet ((call.code fun _ => none).run, s) (.pure r, (answered call s).2) :=
  steps_result (fun _ _ _ _ hr => .inl ⟨_, _, Option.some.inj hr⟩) h

end Minikura.Registry
