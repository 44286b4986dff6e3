import Minikura.Data.OrderedMap

/-!
# The tables of the plugin registry

The rows of `PluginArtifact` and `ServerPlugin` and the statements that write them.
A statement is refused when it breaks a constraint of the schema; then the database
stays as it was. Nullable columns are options, and of the `Server` table only the ids
are kept.

## Main definitions

* `Database`, `Statement.exec` — the tables and the statements of a transaction.
* `upsertArtifact` — the upsert of an artifact by its unique key.
-/

namespace Minikura.Registry

inductive PluginProvider where
  | modrinth
  | hangar
  | upload
deriving Repr, DecidableEq

inductive PluginStorageMode where
  | remote
  | s3
deriving Repr, DecidableEq

structure PluginArtifact where
  id : String
  provider : PluginProvider
  providerProjectId : String
  providerVersionId : String
  name : String
  version : String
  platform : String
  minecraftVersions : List String
  filename : String
  size : Nat
  sha256 : String
  sourceUrl : Option String := none
  storageMode : PluginStorageMode := .remote
  objectKey : Option String := none
  downloadToken : String
  license : Option String := none
  description : Option String := none
  author : Option String := none
  iconUrl : Option String := none
  projectUrl : Option String := none
  categories : List String := []
  providerUpdatedAt : Option String := none
deriving Repr, DecidableEq

structure ServerPlugin where
  id : String
  serverId : String
  artifactId : String
  enabled : Bool := true
deriving Repr, DecidableEq

/-- `@@unique([provider, provider_version_id, platform, filename])` -/
structure ArtifactKey where
  provider : PluginProvider
  providerVersionId : String
  platform : String
  filename : String
deriving Repr, DecidableEq

def PluginArtifact.key (a : PluginArtifact) : ArtifactKey :=
  ⟨a.provider, a.providerVersionId, a.platform, a.filename⟩

/-- The project an artifact is a version of. -/
def PluginArtifact.project (a : PluginArtifact) : PluginProvider × String :=
  (a.provider, a.providerProjectId)

/-- The columns an upsert may update; a column that is not given keeps its value. -/
structure ArtifactUpdate where
  sourceUrl : Option (Option String) := none
  sha256 : Option String := none
  size : Option Nat := none
  name : Option String := none
  objectKey : Option (Option String) := none
  license : Option (Option String) := none
  description : Option (Option String) := none
  author : Option (Option String) := none
  iconUrl : Option (Option String) := none
  projectUrl : Option (Option String) := none
  categories : Option (List String) := none
  providerUpdatedAt : Option (Option String) := none

def PluginArtifact.update (a : PluginArtifact) (u : ArtifactUpdate) : PluginArtifact :=
  { a with
    sourceUrl := u.sourceUrl.getD a.sourceUrl
    sha256 := u.sha256.getD a.sha256
    size := u.size.getD a.size
    name := u.name.getD a.name
    objectKey := u.objectKey.getD a.objectKey
    license := u.license.getD a.license
    description := u.description.getD a.description
    author := u.author.getD a.author
    iconUrl := u.iconUrl.getD a.iconUrl
    projectUrl := u.projectUrl.getD a.projectUrl
    categories := u.categories.getD a.categories
    providerUpdatedAt := u.providerUpdatedAt.getD a.providerUpdatedAt }

@[simp] theorem PluginArtifact.id_update (a : PluginArtifact) (u : ArtifactUpdate) :
    (a.update u).id = a.id := rfl

@[simp] theorem PluginArtifact.key_update (a : PluginArtifact) (u : ArtifactUpdate) :
    (a.update u).key = a.key := rfl

@[simp] theorem PluginArtifact.project_update (a : PluginArtifact) (u : ArtifactUpdate) :
    (a.update u).project = a.project := rfl

structure Database where
  servers : List String := []
  artifacts : List PluginArtifact := []
  plugins : List ServerPlugin := []

namespace Database

def findArtifact (db : Database) (id : String) : Option PluginArtifact :=
  db.artifacts.find? (·.id = id)

def findByKey (db : Database) (key : ArtifactKey) : Option PluginArtifact :=
  db.artifacts.find? (·.key = key)

theorem mem_of_findArtifact {db : Database} {id : String} {a : PluginArtifact}
    (h : db.findArtifact id = some a) : a ∈ db.artifacts ∧ a.id = id :=
  ⟨List.mem_of_find?_eq_some h, by simpa using List.find?_some h⟩

/-- The ids of the servers an artifact is installed on. -/
def serversOf (db : Database) (artifactId : String) : List String :=
  (db.plugins.filter (·.artifactId = artifactId)).map (·.serverId)

end Database

/-! ## Statements -/

/-- The conditions under which `serverPlugin.deleteMany` is called. -/
inductive PluginWhere where
  | otherVersions (serverId : String) (artifact : PluginArtifact)
  | notIn (serverId : String) (artifactIds : List String)
  | ofArtifact (artifactId : String)
  | installation (id serverId : String)

def PluginWhere.matches (db : Database) : PluginWhere → ServerPlugin → Bool
  | .otherVersions serverId artifact, p =>
    p.serverId == serverId && (db.findArtifact p.artifactId).any fun a =>
      a.project == artifact.project && a.id != artifact.id
  | .notIn serverId artifactIds, p => p.serverId == serverId && !artifactIds.contains p.artifactId
  | .ofArtifact artifactId, p => p.artifactId == artifactId
  | .installation id serverId, p => p.id == id && p.serverId == serverId

/-- The statements of the transactions; `id` is the id of the row to create. -/
inductive Statement where
  | deletePlugins (w : PluginWhere)
  | upsertPlugin (id serverId artifactId : String)
  | deleteArtifact (id : String)

def Statement.exec : Statement → Database → Option Database
  | .deletePlugins w, db => some { db with plugins := db.plugins.filter (!w.matches db ·) }
  | .upsertPlugin id serverId artifactId, db =>
    if db.plugins.any fun p => p.serverId = serverId ∧ p.artifactId = artifactId then
      some { db with
        plugins := db.plugins.map fun p =>
          if p.serverId = serverId ∧ p.artifactId = artifactId then { p with enabled := true }
          else p }
    -- the primary key and the two foreign keys
    else if db.plugins.any (·.id = id) ∨ serverId ∉ db.servers ∨
        db.findArtifact artifactId = none then none
    else some { db with plugins := db.plugins ++ [{ id, serverId, artifactId }] }
  | .deleteArtifact id, db =>
    -- `onDelete: Restrict` of the installations
    if db.findArtifact id = none ∨ db.plugins.any (·.artifactId = id) then none
    else some { db with artifacts := db.artifacts.filter (·.id ≠ id) }

/-- The statements one after the other, all or none of them. -/
def execAll (statements : List Statement) (db : Database) : Option Database :=
  statements.foldlM (fun db s => s.exec db) db

/-- `pluginArtifact.upsert`, with the row it returns. -/
def upsertArtifact (key : ArtifactKey) (update : ArtifactUpdate) (create : PluginArtifact)
    (db : Database) : Option (PluginArtifact × Database) :=
  match db.findByKey key with
  | some a =>
    some (a.update update, { db with
      artifacts := db.artifacts.map fun b => if b.key = key then b.update update else b })
  | none =>
    if db.artifacts.any fun b => b.id = create.id ∨ b.downloadToken = create.downloadToken then none
    else some (create, { db with artifacts := db.artifacts ++ [create] })

theorem mem_upsertArtifact {key : ArtifactKey} {update : ArtifactUpdate}
    {create : PluginArtifact} {db : Database} {r : PluginArtifact × Database}
    (h : upsertArtifact key update create db = some r) {b : PluginArtifact}
    (hb : b ∈ r.2.artifacts) :
    b ∈ db.artifacts ∨ b = create ∨ ∃ a ∈ db.artifacts, a.key = key ∧ b = a.update update := by
  unfold upsertArtifact at h
  split at h
  · cases h
    obtain ⟨a, ha, rfl⟩ := List.mem_map.mp hb
    by_cases hk : a.key = key
    · exact .inr (.inr ⟨a, ha, hk, by simp [hk]⟩)
    · exact .inl (by simpa [hk] using ha)
  · split at h
    · cases h
    · cases h
      rcases List.mem_append.mp hb with hb | hb
      · exact .inl hb
      · exact .inr (.inl (List.mem_singleton.mp hb))

end Minikura.Registry
