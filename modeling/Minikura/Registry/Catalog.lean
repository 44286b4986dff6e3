import Minikura.Concurrency.Observation
import Minikura.Data.NumberText
import Minikura.Registry.Transactions

/-!
# The catalog

What Modrinth and Hangar have, and what the registry makes of it: the results of a search, the
versions of a project, and the metadata that a listing fills in for artifacts without an icon.
Of a request to a provider there are the parameters; what it answers has the declared type.

## Main definitions

* `Fetch`, `Fetched` — the requests to the providers.
* `search`, `versions`, `project`, `listArtifacts` — the methods of the service.
* `CatalogRequest`, `catalogPerform` — all requests of the service.

## Main result

* `byDownloads_sorted` — the order of the results of a search.
-/

namespace Minikura.Registry
open Concurrency

/-! ## The providers -/

structure RegistryProject where
  provider : PluginProvider
  projectId : String
  name : String
  description : String
  iconUrl : Option String
  downloads : ℕ
  license : Option String
  author : String
  categories : List String
  minecraftVersions : List String
  updatedAt : Option String
  projectUrl : String
deriving Repr, DecidableEq

structure ModrinthHit where
  projectId : String
  title : String
  description : String
  iconUrl : Option String := none
  downloads : ℕ
  license : Option String := none
  author : String
  categories : List String
  versions : List String
  dateModified : String
  slug : Option String := none

structure ModrinthFile where
  filename : String
  size : ℕ
  url : String
  primary : Bool

structure ModrinthVersion where
  id : String
  versionNumber : String
  versionType : String
  gameVersions : List String
  files : List ModrinthFile

structure ModrinthProject where
  title : String
  description : String
  iconUrl : Option String := none
  licenseId : Option String := none
  licenseName : Option String := none
  categories : List String
  updated : Option String := none
  slug : Option String := none

structure HangarProject where
  owner : String
  slug : String
  name : String
  description : String
  avatarUrl : Option String := none
  downloads : ℕ
  licenseType : Option String := none
  licenseName : Option String := none
  category : Option String := none
  lastUpdated : Option String := none
  memberNames : Option (List String) := none
  supportedPlatforms : Option (List (String × List String)) := none

structure HangarDownload where
  name : String
  sizeBytes : ℕ
  sha256Hash : String
  downloadUrl : Option String
  externalUrl : Option String

structure HangarVersion where
  id : ℕ
  name : String
  channel : String
  downloads : List (String × HangarDownload)
  platformDependencies : List (String × List String)

inductive Fetch where
  | modrinthSearch (query : String) (facets : List (List String))
  | hangarSearch (query : Option String) (platform : String)
  | modrinthVersions (projectId : String) (loaders : List String)
      (gameVersions : Option (List String))
  | hangarVersions (owner slug : String)
  | modrinthProject (projectId : String)
  | hangarProject (owner slug : String)

abbrev Fetched : Fetch → Type
  | .modrinthSearch .. => List ModrinthHit
  | .hangarSearch .. => List HangarProject
  | .modrinthVersions .. => List ModrinthVersion
  | .hangarVersions .. => List HangarVersion
  | .modrinthProject _ => ModrinthProject
  | .hangarProject .. => HangarProject

/-! ## Requests -/

inductive CatalogRequest where
  | registry (c : Request)
  /-- `registryFetch` -/
  | fetch (f : Fetch)
  /-- The artifacts of a provider that have no icon. -/
  | findMissingMetadata
  | updateMetadata (id : String) (data : ArtifactUpdate)
  | findArtifactsWithServers
  | findPlugins (serverId : String)

abbrev CatalogAnswer : CatalogRequest → Type
  | .registry c => Answer c
  | .fetch f => Fetched f
  | .findMissingMetadata => List PluginArtifact
  | .updateMetadata .. => Unit
  | .findArtifactsWithServers => List (PluginArtifact × List String)
  | .findPlugins _ => List (ServerPlugin × PluginArtifact)

abbrev CatalogTask (α : Type) := Async Error CatalogAnswer α

def ask (c : CatalogRequest) : CatalogTask (CatalogAnswer c) := Async.await c

/-- One of the other methods of the service. -/
def CatalogTask.ofTask {α : Type} (p : Task α) : CatalogTask α :=
  ExceptT.mk (p.run.translate .registry fun _ r => r)

def PluginArtifact.lacksMetadata (a : PluginArtifact) : Bool :=
  (a.provider == .modrinth || a.provider == .hangar) && a.iconUrl.isNone

/-- Rows are kept in the order in which they were created. -/
def Database.artifactsWithServers (db : Database) : List (PluginArtifact × List String) :=
  db.artifacts.reverse.map fun a => (a, db.serversOf a.id)

def Database.pluginsOf (db : Database) (serverId : String) :
    List (ServerPlugin × PluginArtifact) :=
  (db.plugins.filter (·.serverId = serverId)).filterMap fun p =>
    (db.findArtifact p.artifactId).map (p, ·)

/-- What a request does, given what the providers have. -/
def catalogPerform (web : String → Option Bytes) (providers : (f : Fetch) → Option (Fetched f)) :
    (c : CatalogRequest) → State → Except Error (CatalogAnswer c) × State
  | .registry c, s => perform web c s
  | .fetch f, s => (((providers f).map Except.ok).getD (.error .rejected), s)
  | .findMissingMetadata, s => (.ok (s.db.artifacts.filter (·.lacksMetadata)), s)
  | .updateMetadata id data, s =>
    match s.db.findArtifact id with
    | none => (.error .rejected, s)
    | some _ => (.ok (), { s with
        db := { s.db with
          artifacts := s.db.artifacts.map fun a => if a.id = id then a.update data else a } })
  | .findArtifactsWithServers, s => (.ok s.db.artifactsWithServers, s)
  | .findPlugins serverId, s => (.ok (s.db.pluginsOf serverId), s)

/-! ## Searching -/

def modrinthLoader (platform : String) : String :=
  if platform = "VELOCITY" then "velocity"
  else if platform = "FOLIA" then "folia"
  else "paper"

/-- Hangar knows no platform of its own for Folia. -/
def hangarPlatform (platform : String) : String :=
  if platform = "FOLIA" then "PAPER" else platform

/-- `LATEST`, like no version, stands for any. -/
def wantedVersion (minecraftVersion : Option String) : Option String :=
  minecraftVersion.filter fun v => v ≠ "" && v ≠ "LATEST"

def ModrinthHit.project (hit : ModrinthHit) : RegistryProject where
  provider := .modrinth
  projectId := hit.projectId
  name := hit.title
  description := hit.description
  iconUrl := hit.iconUrl
  downloads := hit.downloads
  license := hit.license
  author := hit.author
  categories := hit.categories
  minecraftVersions := hit.versions
  updatedAt := some hit.dateModified
  projectUrl := "https://modrinth.com/plugin/" ++ hit.slug.getD hit.projectId

/-- The parts that are the same in a search and in a request for one project. -/
def HangarProject.project (p : HangarProject) (projectId owner slug : String) :
    RegistryProject where
  provider := .hangar
  projectId := projectId
  name := p.name
  description := p.description
  iconUrl := p.avatarUrl
  downloads := p.downloads
  license := p.licenseType.or p.licenseName
  author := (p.memberNames.bind (·.head?)).getD owner
  categories := (p.category.filter (· ≠ "")).toList
  minecraftVersions := (p.supportedPlatforms.getD []).flatMap (·.2)
  updatedAt := p.lastUpdated
  projectUrl := "https://hangar.papermc.io/" ++ owner ++ "/" ++ slug

def HangarProject.hit (p : HangarProject) : RegistryProject :=
  p.project (p.owner ++ "/" ++ p.slug) p.owner p.slug

def facets (platform : String) (minecraftVersion : Option String) : List (List String) :=
  [["project_type:plugin"], ["categories:" ++ modrinthLoader platform]] ++
    ((wantedVersion minecraftVersion).map fun v => ["versions:" ++ v]).toList

/-- What is left of two answers of which either may be missing. -/
def foundProjects (modrinth : Except Error (List ModrinthHit))
    (hangar : Except Error (List HangarProject)) : List RegistryProject :=
  (modrinth.toOption.getD []).map (·.project) ++ (hangar.toOption.getD []).map (·.hit)

def byDownloads (projects : List RegistryProject) : List RegistryProject :=
  projects.mergeSort fun a b => b.downloads ≤ a.downloads

/-- Everything is there once, by downloads, and what was downloaded equally often stays in its
order. -/
theorem byDownloads_sorted (projects : List RegistryProject) :
    (byDownloads projects).Perm projects ∧
    (byDownloads projects).Pairwise (fun a b => b.downloads ≤ a.downloads) ∧
    ∀ a b, [a, b].Sublist projects → b.downloads = a.downloads →
      [a, b].Sublist (byDownloads projects) := by
  have htrans : ∀ a b c : RegistryProject, decide (b.downloads ≤ a.downloads) = true →
      decide (c.downloads ≤ b.downloads) = true → decide (c.downloads ≤ a.downloads) = true := by
    grind
  have htotal : ∀ a b : RegistryProject,
      (decide (b.downloads ≤ a.downloads) || decide (a.downloads ≤ b.downloads)) = true := by
    grind
  refine ⟨List.mergeSort_perm _ _, ?_, fun a b hab hle => ?_⟩
  · exact (List.pairwise_mergeSort htrans htotal projects).imp of_decide_eq_true
  · exact List.pair_sublist_mergeSort htrans htotal (by simp [hle]) hab

def search (query platform : String) (minecraftVersion : Option String) :
    CatalogTask (List RegistryProject) := do
  let (modrinth, hangar) ← Async.bothSettled
    (ask (.fetch (.modrinthSearch query (facets platform minecraftVersion))))
    (ask (.fetch (.hangarSearch (if trim query ≠ "" then some query else none)
      (hangarPlatform platform))))
  return byDownloads (foundProjects modrinth hangar)

/-! ## Versions -/

/-- `projectId.split("/", 2)`, if both parts are there and not empty. -/
def hangarId (projectId : String) : Option (String × String) :=
  match projectId.toList.splitOn '/' with
  | owner :: slug :: _ =>
    if owner ≠ [] && slug ≠ [] then some (String.ofList owner, String.ofList slug) else none
  | _ => none

def ModrinthVersion.offer (projectId platform : String) (version : ModrinthVersion) :
    List RegistryVersion :=
  match (version.files.find? (·.primary)).or version.files.head? with
  | none => []
  | some file => [{
      provider := .modrinth
      projectId
      versionId := version.id
      version := version.versionNumber
      platform
      minecraftVersions := version.gameVersions
      filename := file.filename
      size := file.size
      sha256 := none
      downloadUrl := file.url
      license := none }]

def HangarVersion.runsOn (version : HangarVersion) (platform : String)
    (minecraftVersion : Option String) : Bool :=
  (wantedVersion minecraftVersion).all fun v =>
    (version.platformDependencies.lookup (hangarPlatform platform)).any (·.contains v)

def HangarVersion.offer (projectId platform : String) (version : HangarVersion) :
    List RegistryVersion :=
  match version.downloads.lookup (hangarPlatform platform) with
  | none => []
  | some download =>
    match (download.downloadUrl.or download.externalUrl).filter (· ≠ "") with
    | none => []
    | some downloadUrl => [{
        provider := .hangar
        projectId
        versionId := toString version.id
        version := version.name
        platform
        minecraftVersions :=
          (version.platformDependencies.lookup (hangarPlatform platform)).getD []
        filename := download.name
        size := download.sizeBytes
        sha256 := some download.sha256Hash
        downloadUrl
        license := none }]

def HangarVersion.isRelease (version : HangarVersion) : Bool :=
  version.channel.toList.map Char.toLower == "release".toList

/-- The provider is one of the two with a catalog; others have no route. -/
def versions (provider : PluginProvider) (projectId platform : String)
    (minecraftVersion : Option String) : CatalogTask (List RegistryVersion) :=
  if provider = .modrinth then do
    let found ← ask (.fetch (.modrinthVersions projectId [modrinthLoader platform]
      ((wantedVersion minecraftVersion).map ([·]))))
    return (found.filter (·.versionType = "release")).flatMap (·.offer projectId platform)
  else
    match hangarId projectId with
    | none => throw (.validation "Invalid Hangar project ID")
    | some (owner, slug) => do
      let found ← ask (.fetch (.hangarVersions owner slug))
      return ((found.filter (·.isRelease)).filter (·.runsOn platform minecraftVersion)).flatMap
        (·.offer projectId platform)

/-! ## Listing -/

def ModrinthProject.project (p : ModrinthProject) (projectId : String) : RegistryProject where
  provider := .modrinth
  projectId := projectId
  name := p.title
  description := p.description
  iconUrl := p.iconUrl
  downloads := 0
  license := p.licenseId.or p.licenseName
  author := ""
  categories := p.categories
  minecraftVersions := []
  updatedAt := p.updated
  projectUrl := "https://modrinth.com/plugin/" ++ p.slug.getD projectId

def project (provider : PluginProvider) (projectId : String) : CatalogTask RegistryProject :=
  match provider with
  | .modrinth => do return (← ask (.fetch (.modrinthProject projectId))).project projectId
  | .hangar =>
    match hangarId projectId with
    | none => throw (.validation "Invalid Hangar project ID")
    | some (owner, slug) => do
      return (← ask (.fetch (.hangarProject owner slug))).project projectId owner slug
  | .upload => throw (.validation "Uploaded plugins do not have provider metadata")

/-- An empty author leaves the one there is. -/
def RegistryProject.metadata (p : RegistryProject) (artifact : PluginArtifact) :
    ArtifactUpdate where
  name := some p.name
  description := some (some p.description)
  author := some (if p.author ≠ "" then some p.author else artifact.author)
  iconUrl := some p.iconUrl
  projectUrl := some (some p.projectUrl)
  license := some p.license
  categories := some p.categories
  providerUpdatedAt := some (p.updatedAt.filter (· ≠ ""))

def fillIn (artifact : PluginArtifact) : CatalogTask Unit := do
  let found ← project artifact.provider artifact.providerProjectId
  ask (.updateMetadata artifact.id (found.metadata artifact))

def listArtifacts : CatalogTask (List (PluginArtifact × List String)) := do
  let missingMetadata ← ask .findMissingMetadata
  let _ ← Async.allSettled (missingMetadata.map fillIn)
  ask .findArtifactsWithServers

def list (serverId : String) : CatalogTask (List (ServerPlugin × PluginArtifact)) :=
  ask (.findPlugins serverId)

end Minikura.Registry
