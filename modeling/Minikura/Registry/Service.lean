import Minikura.Concurrency.Loose
import Minikura.Data.Sha256
import Minikura.Registry.Tables

/-!
# The plugin registry service

`PluginRegistryService`, as programs over the requests it awaits: Prisma queries and
transactions, requests to the object store, and downloads. Ids and tokens of new rows
are arguments. The database and the bucket are only changed by the requests.

## Main definitions

* `Request`, `Answer`, `perform` — the requests and what they do when they succeed.
* `answer` — the same for requests that may fail, before or after taking effect.
* `register`, `upload`, `deploy`, `reconcile`, `remove`, `deleteArtifact`, `download` —
  the methods of the service.
-/

namespace Minikura.Registry
open Concurrency

abbrev Bytes := List UInt8

inductive Error where
  | notFound (resource : String) (identifier : Option String)
  | validation (message : String)
  | invalidUrl
  /-- A request to the database, the object store or a registry failed. -/
  | rejected
deriving Repr, DecidableEq

/-! ## Requests -/

inductive Request where
  | findServer (id : String)
  | findArtifact (id : String)
  | findArtifactWithServers (id : String)
  | findArtifacts (ids : List String)
  | findByToken (downloadToken : String)
  | upsertArtifact (key : ArtifactKey) (update : ArtifactUpdate) (create : PluginArtifact)
  | deletePlugins (w : PluginWhere)
  | transaction (statements : List Statement)
  | headBucket
  | createBucket
  | putObject (key : String) (body : Bytes)
  | deleteObject (key : String)
  | getObject (key : String)
  | fetch (url : String)

abbrev Answer : Request → Type
  | .findServer _ => Bool
  | .findArtifact _ => Option PluginArtifact
  | .findArtifactWithServers _ => Option (PluginArtifact × List String)
  | .findArtifacts _ => List PluginArtifact
  | .findByToken _ => Option PluginArtifact
  | .upsertArtifact .. => PluginArtifact
  | .deletePlugins _ => Nat
  | .getObject _ => Bytes
  -- no bytes when the status is not a success
  | .fetch _ => Option Bytes
  | _ => Unit

abbrev Task (α : Type) := Async Error Answer α

/-- Make a request. -/
def await (c : Request) : Task (Answer c) := Async.await c

/-- The database and the objects of the bucket, if there is a bucket. -/
structure State where
  db : Database := {}
  bucket : Option (List (String × Bytes)) := none

def State.object (s : State) (key : String) : Option Bytes := s.bucket.bind (·.lookup key)

/-- What a request does, given what the registries of other providers serve. -/
def perform (web : String → Option Bytes) :
    (c : Request) → State → Except Error (Answer c) × State
  | .findServer id, s => (.ok (s.db.servers.contains id), s)
  | .findArtifact id, s => (.ok (s.db.findArtifact id), s)
  | .findArtifactWithServers id, s =>
    (.ok ((s.db.findArtifact id).map fun a => (a, s.db.serversOf id)), s)
  | .findArtifacts ids, s => (.ok (s.db.artifacts.filter fun a => ids.contains a.id), s)
  | .findByToken token, s => (.ok (s.db.artifacts.find? (·.downloadToken = token)), s)
  | .upsertArtifact key update create, s =>
    match upsertArtifact key update create s.db with
    | some (a, db) => (.ok a, { s with db })
    | none => (.error .rejected, s)
  | .deletePlugins w, s =>
    (.ok (s.db.plugins.countP (w.matches s.db)),
      { s with db := { s.db with plugins := s.db.plugins.filter (!w.matches s.db ·) } })
  | .transaction statements, s =>
    match execAll statements s.db with
    | some db => (.ok (), { s with db })
    | none => (.error .rejected, s)
  | .headBucket, s => (if s.bucket.isSome then .ok () else .error .rejected, s)
  | .createBucket, s => (.ok (), { s with bucket := s.bucket.or (some []) })
  | .putObject key body, s =>
    match s.bucket with
    | some objects => (.ok (), { s with bucket := some (setEntry objects key body) })
    | none => (.error .rejected, s)
  | .deleteObject key, s =>
    match s.bucket with
    | some objects => (.ok (), { s with bucket := some (objects.filter (·.1 ≠ key)) })
    | none => (.error .rejected, s)
  | .getObject key, s =>
    match s.object key with
    | some body => (.ok body, s)
    | none => (.error .rejected, s)
  | .fetch url, s => (.ok (web url), s)

/-- The fate of a request: a lost one takes effect and is never answered. -/
inductive Fate where
  | answered
  | lost
  | failed
deriving Repr, DecidableEq

def Fate.applied : Fate → Bool
  | .failed => false
  | _ => true

def answer (web : String → Option Bytes) (fates : Request → Fate) (c : Request) (s : State) :
    Except Error (Answer c) × State :=
  match fates c with
  | .answered => perform web c s
  | .lost => (.error .rejected, (perform web c s).2)
  | .failed => (.error .rejected, s)

/-! ## Registering -/

/-- The parts of a parsed `URL` that are checked. -/
structure Url where
  protocol : String
  hostname : String

structure RegistryVersion where
  provider : PluginProvider
  projectId : String
  projectName : Option String := none
  versionId : String
  version : String
  platform : String
  minecraftVersions : List String
  filename : String
  size : Nat
  sha256 : Option String
  downloadUrl : String
  license : Option String
  description : Option String := none
  author : Option String := none
  iconUrl : Option (Option String) := none
  projectUrl : Option String := none
  categories : Option (List String) := none
  updatedAt : Option (Option String) := none

/-- The `cuid()`s of a row that is created. -/
structure Fresh where
  id : String
  downloadToken : String

def maxUploadBytes : Nat := 100 * 1024 * 1024

def validateProviderUrl (parseUrl : String → Option Url) (provider : PluginProvider)
    (value : String) : Task Unit :=
  match parseUrl value with
  | none => throw .invalidUrl
  | some url =>
    let allowed := match provider with
      | .modrinth => url.protocol == "https:" && url.hostname == "cdn.modrinth.com"
      | .hangar => url.protocol == "https:" && url.hostname == "hangarcdn.papermc.io"
      | .upload => false
    if allowed then return ()
    else throw (.validation "Plugin artifact URL is not from the selected provider")

def hashRemoteFile (url : String) (expectedSize : Nat) : Task String := do
  if maxUploadBytes < expectedSize then throw (.validation "Plugin artifact is too large")
  else
    match ← await (.fetch url) with
    | none => throw (.validation "Unable to download plugin artifact")
    | some bytes =>
      if bytes.length ≠ expectedSize then throw (.validation "Plugin artifact size changed")
      else return Sha256.hexDigest bytes

def RegistryVersion.key (input : RegistryVersion) : ArtifactKey :=
  ⟨input.provider, input.versionId, input.platform, input.filename⟩

/-- `input.updatedAt ? new Date(input.updatedAt) : null` -/
def RegistryVersion.providerUpdatedAt (input : RegistryVersion) : Option String :=
  (input.updatedAt.getD none).filter (· ≠ "")

def RegistryVersion.update (input : RegistryVersion) (sha256 : String) : ArtifactUpdate where
  sourceUrl := some (some input.downloadUrl)
  sha256 := some sha256
  size := some input.size
  name := some (input.projectName.getD input.projectId)
  license := some input.license
  description := input.description.map some
  author := input.author.map some
  iconUrl := input.iconUrl
  projectUrl := input.projectUrl.map some
  categories := some (input.categories.getD [])
  providerUpdatedAt := some input.providerUpdatedAt

def RegistryVersion.create (input : RegistryVersion) (sha256 : String) (fresh : Fresh) :
    PluginArtifact where
  id := fresh.id
  provider := input.provider
  providerProjectId := input.projectId
  providerVersionId := input.versionId
  name := input.projectName.getD input.projectId
  version := input.version
  platform := input.platform
  minecraftVersions := input.minecraftVersions
  filename := input.filename
  size := input.size
  sha256 := sha256
  sourceUrl := some input.downloadUrl
  downloadToken := fresh.downloadToken
  license := input.license
  description := input.description
  author := input.author
  iconUrl := input.iconUrl.getD none
  projectUrl := input.projectUrl
  categories := input.categories.getD []
  providerUpdatedAt := input.providerUpdatedAt

def register (parseUrl : String → Option Url) (fresh : Fresh) (input : RegistryVersion) :
    Task PluginArtifact := do
  validateProviderUrl parseUrl input.provider input.downloadUrl
  let sha256 ← match input.sha256 with
    | some sha256 => pure sha256
    | none => hashRemoteFile input.downloadUrl input.size
  await (.upsertArtifact input.key (input.update sha256) (input.create sha256 fresh))

/-! ## Uploading -/

structure File where
  name : String
  bytes : Bytes

/-- `name.toLowerCase().endsWith(".jar")`; no other characters become these letters. -/
def hasJarSuffix (name : String) : Bool :=
  (name.toList.reverse.take 4).map Char.toLower == ['r', 'a', 'j', '.']

/-- `name.replace(/\.jar$/i, "")` -/
def withoutJarSuffix (name : String) : String :=
  if hasJarSuffix name then String.ofList (name.toList.take (name.length - 4)) else name

/-- The first two bytes of a ZIP archive. -/
def isZip (bytes : Bytes) : Bool := bytes[0]? == some 0x50 && bytes[1]? == some 0x4b

def objectKeyOf (sha256 : String) : String :=
  "artifacts/sha256/" ++ String.ofList (sha256.toList.take 2) ++ "/" ++ sha256 ++ ".jar"

def ensureBucket : Task Unit := do
  match ← (await .headBucket).attempt with
  | .ok _ => return ()
  | .error _ => await .createBucket

def File.key (file : File) : ArtifactKey :=
  ⟨.upload, Sha256.hexDigest file.bytes, "SERVER", file.name⟩

def File.create (file : File) (fresh : Fresh) : PluginArtifact where
  id := fresh.id
  provider := .upload
  providerProjectId := Sha256.hexDigest file.bytes
  providerVersionId := Sha256.hexDigest file.bytes
  name := withoutJarSuffix file.name
  version := "uploaded"
  platform := "SERVER"
  minecraftVersions := []
  filename := file.name
  size := file.bytes.length
  sha256 := Sha256.hexDigest file.bytes
  storageMode := .s3
  objectKey := some (objectKeyOf (Sha256.hexDigest file.bytes))
  downloadToken := fresh.downloadToken

def upload (fresh : Fresh) (file : File) : Task PluginArtifact :=
  if !hasJarSuffix file.name then throw (.validation "Plugin upload must be a JAR file")
  else if file.bytes.length = 0 ∨ maxUploadBytes < file.bytes.length then
    throw (.validation "Plugin upload must be between 1 byte and 100 MiB")
  else if !isZip file.bytes then throw (.validation "Plugin upload is not a valid JAR archive")
  else do
    ensureBucket
    let objectKey := objectKeyOf (Sha256.hexDigest file.bytes)
    await (.putObject objectKey file.bytes)
    await (.upsertArtifact file.key { objectKey := some (some objectKey) } (file.create fresh))

/-! ## Installing -/

/-- `id` is the id of a new installation. -/
def deploy (id serverId artifactId : String) : Task PluginArtifact := do
  let (server, artifact) ← (Loose.both (.ofAsync (await (.findServer serverId)))
    (.ofAsync (await (.findArtifact artifactId)))).finish
  if !server then throw (.notFound "Server" serverId)
  else
    match artifact with
    | none => throw (.notFound "Plugin artifact" artifactId)
    | some artifact =>
      await (.transaction [
        .deletePlugins (.otherVersions serverId artifact),
        .upsertPlugin id serverId artifact.id])
      return artifact

/-- `ids` are the ids of the new installations, by artifact. -/
def reconcile (ids : String → String) (serverId : String) (artifactIds : List String) :
    Task Unit := do
  if !(← await (.findServer serverId)) then throw (.notFound "Server" serverId)
  else
    let uniqueIds := artifactIds.eraseDups
    let artifacts ← await (.findArtifacts uniqueIds)
    if artifacts.length ≠ uniqueIds.length then
      throw (.validation "One or more plugin artifacts do not exist")
    else
      await (.transaction (.deletePlugins (.notIn serverId uniqueIds) ::
        uniqueIds.map fun artifactId => .upsertPlugin (ids artifactId) serverId artifactId))

def remove (serverId installationId : String) : Task Unit := do
  let count ← await (.deletePlugins (.installation installationId serverId))
  if count = 0 then throw (.notFound "Server plugin" installationId)

/-! ## Deleting and downloading -/

/-- An empty string counts as no key. -/
def PluginArtifact.storedKey (a : PluginArtifact) : Option String :=
  if a.storageMode = .s3 then a.objectKey.filter (· ≠ "") else none

/-- Delete the object of an artifact, if it has one. -/
def deleteStored (artifact : PluginArtifact) : Task Unit :=
  match artifact.storedKey with
  | some key => await (.deleteObject key)
  | none => return ()

def deletion (artifactId : String) : List Statement :=
  [.deletePlugins (.ofArtifact artifactId), .deleteArtifact artifactId]

def deleteArtifact (artifactId : String) : Task (List String) := do
  match ← await (.findArtifactWithServers artifactId) with
  | none => throw (.notFound "Plugin artifact" artifactId)
  | some (artifact, servers) =>
    deleteStored artifact
    await (.transaction (deletion artifactId))
    return servers.eraseDups

/-- The answer to a download; the other headers are constants. -/
inductive Download where
  | redirect (url : String)
  | response (body : Bytes) (disposition etag : String)
deriving DecidableEq

def quoted (s : String) : String := "\"" ++ s ++ "\""

def PluginArtifact.attachment (a : PluginArtifact) (body : Bytes) : Download :=
  .response body
    ("attachment; filename=" ++ quoted (String.ofList (a.filename.toList.filter (· ≠ '"'))))
    (quoted a.sha256)

def download (token : String) : Task Download := do
  match ← await (.findByToken token) with
  | none => throw (.notFound "Plugin artifact" none)
  | some artifact =>
    match artifact.storageMode, artifact.sourceUrl.filter (· ≠ "") with
    | .remote, some url => return .redirect url
    | _, _ =>
      match artifact.objectKey.filter (· ≠ "") with
      | none => throw (.notFound "Plugin artifact object" none)
      | some key =>
        return artifact.attachment (← await (.getObject key))

end Minikura.Registry
