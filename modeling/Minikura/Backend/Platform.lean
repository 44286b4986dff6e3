import Minikura.Backend.Schema
import Minikura.Concurrency.Async
import Minikura.Data.Json
import Minikura.Data.VersionedStore

/-!
# The database and the cluster

Everything the backend awaits is one of the calls below: a Prisma query, a request
to the Kubernetes API in the backend's own namespace, or the `syncing` flag of the
synchronizer, which is tested and set between two awaits. Each call is atomic. A deletion has
taken effect when it is answered; `Deletions` has those that go on after that.

## Main definitions

* `Database` — the rows, unique by primary key.
* `Resource`, `Cluster` — Secrets and custom resources with their versions.
* `Call`, `Answer`, `handle` — the calls and what they do.
-/

namespace Minikura.Backend
open Concurrency

/-! ## The database -/

structure Database where
  servers : List Server
  proxies : List ReverseProxy
  serverKeys : (servers.map (·.id)).Nodup
  proxyKeys : (proxies.map (·.id)).Nodup

namespace Database

def empty : Database := ⟨[], [], .nil, .nil⟩

def findServer (db : Database) (id : String) : Option Server :=
  db.servers.find? (·.id = id)

def findProxy (db : Database) (id : String) : Option ReverseProxy :=
  db.proxies.find? (·.id = id)

def insertServer (db : Database) (row : Server) (h : db.findServer row.id = none) :
    Database :=
  { db with
    servers := db.servers ++ [row]
    serverKeys := by
      have h' : ∀ s ∈ db.servers, s.id ≠ row.id := by
        simpa [findServer] using h
      rw [List.map_append, List.nodup_append]
      exact ⟨db.serverKeys, by simp, by simpa using fun s hs => h' s hs⟩ }

def insertProxy (db : Database) (row : ReverseProxy) (h : db.findProxy row.id = none) :
    Database :=
  { db with
    proxies := db.proxies ++ [row]
    proxyKeys := by
      have h' : ∀ p ∈ db.proxies, p.id ≠ row.id := by
        simpa [findProxy] using h
      rw [List.map_append, List.nodup_append]
      exact ⟨db.proxyKeys, by simp, by simpa using fun p hp => h' p hp⟩ }

/-- Put a row in the place of the one with its id. -/
def setServer (db : Database) (row : Server) : Database :=
  { db with
    servers := db.servers.map fun s => if s.id = row.id then row else s
    serverKeys := by
      have h : (db.servers.map fun s => if s.id = row.id then row else s).map (·.id) =
          db.servers.map (·.id) := by
        rw [List.map_map]
        refine List.map_congr_left fun s _ => ?_
        by_cases hs : s.id = row.id <;> simp [hs]
      rw [h]
      exact db.serverKeys }

end Database

/-! ## The cluster -/

inductive Kind where
  | secret
  | minecraftservers
  | reverseproxyservers
deriving Repr, DecidableEq

structure Key where
  kind : Kind
  name : String
deriving Repr, DecidableEq

inductive Content where
  | secret (type : String) (stringData : List (String × String))
  | custom (apiVersion kind : String) (spec : Json)

/-- The parts of an object the backend writes or reads; the version is the store's. -/
structure Resource where
  labels : List (String × String)
  content : Content

abbrev Cluster := VersionedStore Key Resource

def managedBy : String × String := ("app.kubernetes.io/managed-by", "minikura-backend")

/-- The label selector `app.kubernetes.io/managed-by=minikura-backend`. -/
def Resource.managed (r : Resource) : Bool := r.labels.lookup managedBy.1 == some managedBy.2

/-! ## Errors -/

/-- The parts of a thrown value the code looks at. -/
structure Error where
  message : String
  code : Option Nat := none
  responseStatusCode : Option Nat := none
deriving Repr, DecidableEq

def Error.isNotFound (e : Error) : Bool :=
  e.code == some 404 || e.responseStatusCode == some 404

def Error.ofRefusal : Refusal → Error
  | .notFound => { message := "not found", code := some 404 }
  | .alreadyExists => { message := "already exists", code := some 409 }
  | .conflict => { message := "the object has been modified", code := some 409 }
  | .invalid => { message := "invalid resource version", code := some 422 }

def conflictError (resource id : String) : Error :=
  { message := resource ++ " already exists: " ++ id }

def notFoundError (resource id : String) : Error :=
  { message := resource ++ " not found: " ++ id }

def businessRuleError (message : String) : Error := { message }

/-- A request the database turns down. -/
def Error.ofConstraint (message : String) : Error := { message }

@[simp] theorem Error.isNotFound_ofRefusal (r : Refusal) :
    (Error.ofRefusal r).isNotFound = decide (r = .notFound) := by cases r <;> rfl

/-! ## Calls -/

inductive Call where
  -- Prisma
  | findServers
  | findServer (id : String)
  | createServer (row : Server)
  | updateServer (id : String) (input : UpdateServerInput)
  | deleteEnvVariables (id : String)
  | createEnvVariables (id : String) (vars : List EnvVariable)
  | upsertEnvVariable (id key value : String)
  | deleteEnvVariable (id key : String)
  | findProxies
  | findProxy (id : String)
  | createProxy (row : ReverseProxy)
  -- Kubernetes
  | read (key : Key)
  | replace (key : Key) (version : Option Nat) (body : Resource)
  | create (key : Key) (version : Option Nat) (body : Resource)
  | delete (key : Key)
  | list (kind : Kind)
  -- the `syncing` flag
  | claimSync
  | releaseSync

def Call.requestsCluster : Call → Bool
  | .read _ | .replace _ _ _ | .create _ _ _ | .delete _ | .list _ => true
  | _ => false

abbrev Answer : Call → Type
  | .findServers => List Server
  | .findServer _ => Option Server
  | .createServer _ => Server
  | .updateServer _ _ => Server
  | .createProxy _ => ReverseProxy
  | .findProxies => List ReverseProxy
  | .findProxy _ => Option ReverseProxy
  | .read _ => Versioned Resource
  | .list _ => List String
  | .claimSync => Bool
  | _ => Unit

/-- Computations of the backend. -/
abbrev Task (α : Type) := Async Error Answer α

/-- Make a call. -/
def await (c : Call) : Task (Answer c) := Async.await c

structure State where
  db : Database
  cluster : Cluster
  syncing : Bool

namespace State

/-- Edit a row, if there is one. -/
def editServer (s : State) (id : String) (f : Server → Server) : State :=
  match s.db.findServer id with
  | none => s
  | some row => { s with db := s.db.setServer (f row) }

/-- Edit a row, and refuse what the database cannot hold. -/
def updateServer (s : State) (id : String) (f : Server → Server) :
    Except Error Server × State :=
  match s.db.findServer id with
  | none => (.error (.ofConstraint "record not found"), s)
  | some row =>
    if (f row).storable then (.ok (f row), { s with db := s.db.setServer (f row) })
    else (.error (.ofConstraint "constraint violation"), s)

/-- The same, when the row is not asked for. -/
def updateServer' (s : State) (id : String) (f : Server → Server) :
    Except Error Unit × State :=
  ((s.updateServer id f).1.map fun _ => (), (s.updateServer id f).2)

def request (s : State) (r : Except Refusal Cluster) : Except Error Unit × State :=
  match r with
  | .ok c => (.ok (), { s with cluster := c })
  | .error e => (.error (.ofRefusal e), s)

end State

/-- A custom resource is replaced only at a version; a Secret also without one. -/
def Kind.unconditionalUpdate : Kind → Bool
  | .secret => true
  | _ => false

/-- A resource that is deleted goes at once. Where it matters that a custom resource waits for its
dependents, `performForeground` takes the place of this. -/
def handle : (c : Call) → State → Settled Error Answer c × State
  | .findServers, s => (.ok s.db.servers, s)
  | .findServer id, s => (.ok (s.db.findServer id), s)
  | .createServer row, s =>
    if h : s.db.findServer row.id = none then
      if row.storable && s.db.servers.all (·.apiKey ≠ row.apiKey) then
        (.ok row, { s with db := s.db.insertServer row h })
      else (.error (.ofConstraint "constraint violation"), s)
    else (.error (.ofConstraint "unique constraint violation"), s)
  | .updateServer id input, s => s.updateServer id (·.update input)
  | .deleteEnvVariables id, s =>
    (.ok (), s.editServer id fun row => { row with envVariables := [] })
  | .createEnvVariables id vars, s =>
    s.updateServer' id fun row => { row with envVariables := row.envVariables ++ vars }
  | .upsertEnvVariable id key value, s =>
    s.updateServer' id fun row => { row with
      envVariables :=
        if row.envVariables.any (·.key = key) then
          row.envVariables.map fun v => if v.key = key then { v with value } else v
        else row.envVariables ++ [⟨key, value⟩] }
  | .deleteEnvVariable id key, s =>
    (.ok (), s.editServer id fun row =>
      { row with envVariables := row.envVariables.filter (·.key ≠ key) })
  | .findProxies, s => (.ok s.db.proxies, s)
  | .findProxy id, s => (.ok (s.db.findProxy id), s)
  | .createProxy row, s =>
    if h : s.db.findProxy row.id = none then
      if row.storable && s.db.proxies.all (·.apiKey ≠ row.apiKey) then
        (.ok row, { s with db := s.db.insertProxy row h })
      else (.error (.ofConstraint "constraint violation"), s)
    else (.error (.ofConstraint "unique constraint violation"), s)
  | .read key, s =>
    match s.cluster.lookup key with
    | some o => (.ok o, s)
    | none => (.error (.ofRefusal .notFound), s)
  | .replace key version body, s =>
    if version.isNone && !key.kind.unconditionalUpdate then
      (.error (.ofRefusal .invalid), s)
    else s.request (s.cluster.replace key version body)
  | .create key version body, s => s.request (s.cluster.create key version body)
  | .delete key, s => s.request (s.cluster.delete key)
  | .list kind, s =>
    (.ok ((s.cluster.select fun k r => k.kind = kind && r.managed).map (·.name)), s)
  | .claimSync, s => (.ok !s.syncing, { s with syncing := true })
  | .releaseSync, s => (.ok (), { s with syncing := false })

end Minikura.Backend
