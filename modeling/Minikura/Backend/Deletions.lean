import Minikura.Backend.Requests
import Minikura.Backend.Routes
import Minikura.Concurrency.Observation

/-!
# Deletions

A request that deletes a server or a proxy removes the row first. What the row has in the
cluster is left to the handler of the event, and what a handler throws is logged. Deletions run
beside the other requests on rows and beside `syncAll`.

## Main definitions

* `Action`, `perform` — the calls, with the queries that delete rows or edit proxies.
* `Installation`, `performForeground`, `Collects` — the same with foreground deletion.
* `RowRequest`, `serveRequests` — the requests on rows, interleaved in every way.
-/

namespace Minikura.Backend
open Concurrency

/-! ## Rows -/

namespace Database

def removeServer (db : Database) (id : String) : Database :=
  { db with
    servers := db.servers.filter (·.id ≠ id)
    serverKeys := db.serverKeys.sublist (List.filter_sublist.map _) }

def removeProxy (db : Database) (id : String) : Database :=
  { db with
    proxies := db.proxies.filter (·.id ≠ id)
    proxyKeys := db.proxyKeys.sublist (List.filter_sublist.map _) }

theorem map_id_setProxy (rows : List ReverseProxy) (row : ReverseProxy) :
    (rows.map fun p => if p.id = row.id then row else p).map (·.id) = rows.map (·.id) := by
  rw [List.map_map]
  refine List.map_congr_left fun p _ => ?_
  by_cases hp : p.id = row.id <;> simp [hp]

/-- Put a row in the place of the one with its id. -/
def setProxy (db : Database) (row : ReverseProxy) : Database :=
  { db with
    proxies := db.proxies.map fun p => if p.id = row.id then row else p
    proxyKeys := (map_id_setProxy db.proxies row).symm ▸ db.proxyKeys }

end Database

/-- Edit a proxy's row, if there is one. -/
def State.editProxy (s : State) (id : String) (f : ReverseProxy → ReverseProxy) : State :=
  match s.db.findProxy id with
  | none => s
  | some row => { s with db := s.db.setProxy (f row) }

/-- Edit a proxy's row, and refuse what the database cannot hold. -/
def State.updateProxy (s : State) (id : String) (f : ReverseProxy → ReverseProxy) :
    Except Error ReverseProxy × State :=
  match s.db.findProxy id with
  | none => (.error (.ofConstraint "record not found"), s)
  | some row =>
    if (f row).storable then (.ok (f row), { s with db := s.db.setProxy (f row) })
    else (.error (.ofConstraint "constraint violation"), s)

/-! ## Calls -/

inductive Action where
  | call (c : Call)
  | deleteServer (id : String)
  | deleteProxy (id : String)
  | updateProxy (id : String) (input : Routes.UpdateReverseProxyInput)
  | upsertProxyEnvVariable (id key value : String)
  | deleteProxyEnvVariable (id key : String)

abbrev Action.Answer : Action → Type
  | .call c => Backend.Answer c
  | .updateProxy _ _ => ReverseProxy
  | _ => Unit

def perform : (a : Action) → State → Settled Error Action.Answer a × State
  | .call c, s => handle c s
  | .deleteServer id, s =>
    if (s.db.findServer id).isSome then (.ok (), { s with db := s.db.removeServer id })
    else (.error (.ofConstraint "record not found"), s)
  | .deleteProxy id, s =>
    if (s.db.findProxy id).isSome then (.ok (), { s with db := s.db.removeProxy id })
    else (.error (.ofConstraint "record not found"), s)
  | .updateProxy id input, s => s.updateProxy id (Routes.ReverseProxy.update · input)
  | .upsertProxyEnvVariable id key value, s =>
    let r := s.updateProxy id fun row => { row with
      envVariables :=
        if row.envVariables.any (·.key = key) then
          row.envVariables.map fun v => if v.key = key then { v with value } else v
        else row.envVariables ++ [⟨key, value⟩] }
    (r.1.map fun _ => (), r.2)
  | .deleteProxyEnvVariable id key, s =>
    (.ok (), s.editProxy id fun row =>
      { row with envVariables := row.envVariables.filter (·.key ≠ key) })

/-! ## Foreground deletion -/

/-- The state, and the custom resources that are being deleted. -/
structure Installation extends State where
  terminating : List Key

namespace Installation

/-- There is such a resource, and nobody deletes it. -/
def Live (s : Installation) (key : Key) : Prop :=
  (s.cluster.lookup key).isSome ∧ key ∉ s.terminating

/-- What is done to the rest leaves the resources that are being deleted as they are. -/
def withState {α : Type} (s : Installation) (x : α × State) : α × Installation :=
  (x.1, ⟨x.2, s.terminating⟩)

end Installation

/-- `propagationPolicy: "Foreground"`: the answer does not wait for the resource to go. Until it
goes, it is read, replaced and listed like any other. A Secret goes at once. -/
def performForeground : (a : Action) → Installation → Settled Error Action.Answer a × Installation
  | .call (.delete key), s =>
    if key.kind ≠ .secret ∧ (s.cluster.lookup key).isSome then
      (.ok (), { s with terminating := key :: s.terminating })
    else s.withState (perform (.call (.delete key)) s.toState)
  | a, s => s.withState (perform a s.toState)

/-- The garbage collector is done with the dependents of a resource that is being deleted. -/
def Collects (s s' : Installation) : Prop :=
  ∃ key ∈ s.terminating, s' = { s with
    cluster := s.cluster.remove key
    terminating := s.terminating.filter (· ≠ key) }

/-- Computations that may also make the queries on rows. -/
abbrev RowTask (α : Type) := Async Error Action.Answer α

/-- A computation that makes calls only. -/
def Task.onRows {α : Type} (p : Task α) : RowTask α :=
  ExceptT.mk (p.run.translate .call fun _ r => r)

/-- Make a query on rows. -/
def query (a : Action) : RowTask a.Answer := Async.await a

/-! ## Requests -/

namespace OperatorResourceSync

variable (o : OperatorResourceSync)

def deleteServer (id : String) : Task Unit := do
  o.requireClients
  o.deleteResource .minecraftservers (← Task.ofExcept (operatorResourceName id))

def deleteReverseProxy (id : String) : Task Unit := do
  o.requireClients
  o.deleteResource .reverseproxyservers (← Task.ofExcept (operatorResourceName id))

end OperatorResourceSync

/-- `PrismaReverseProxyRepository.update` -/
def PrismaReverseProxyRepository.update (id : String) (input : Routes.UpdateReverseProxyInput) :
    RowTask ReverseProxy := do
  match ← (await (.findProxy id)).onRows with
  | none => throw (notFoundError "ReverseProxyServer" id)
  | some _ => query (.updateProxy id input)

namespace ServerService

/-- `BaseCrudService.delete` for servers. -/
def delete (o : OperatorResourceSync) (id : String) : RowTask Unit := do
  query (.deleteServer id)
  (publish (o.deleteServer id)).onRows

end ServerService

namespace ReverseProxyService

variable (o : OperatorResourceSync)

/-- `BaseCrudService.update` for proxies. -/
def update (id : String) (input : Routes.UpdateReverseProxyInput) : RowTask ReverseProxy := do
  let entity ← PrismaReverseProxyRepository.update id input
  (publish (o.syncReverseProxyById id)).onRows
  return entity

/-- `BaseCrudService.delete` for proxies. -/
def delete (id : String) : RowTask Unit := do
  query (.deleteProxy id)
  (publish (o.deleteReverseProxy id)).onRows

def setEnvVariable (id key value : String) : RowTask Unit := do
  query (.upsertProxyEnvVariable id key value)
  (publish (o.syncReverseProxyById id)).onRows

def deleteEnvVariable (id key : String) : RowTask Unit := do
  query (.deleteProxyEnvVariable id key)
  (publish (o.syncReverseProxyById id)).onRows

end ReverseProxyService

/-- The requests on rows, and the synchronization started by the timer. -/
inductive RowRequest where
  | createServer (input : CreateServerInput) (token : String)
  | createReverseProxy (input : CreateReverseProxyInput) (token : String)
  | updateServer (id : String) (input : UpdateServerInput)
  | updateReverseProxy (id : String) (input : Routes.UpdateReverseProxyInput)
  | setServerEnvVariable (id key value : String)
  | deleteServerEnvVariable (id key : String)
  | setProxyEnvVariable (id key value : String)
  | deleteProxyEnvVariable (id key : String)
  | deleteServer (id : String)
  | deleteReverseProxy (id : String)
  | syncAll

/-- The computation of a request; what it answers is not looked at. -/
def RowRequest.task (o : OperatorResourceSync) : RowRequest → RowTask Unit
  | .createServer input token => do let _ ← (o.createServer input token).onRows
  | .createReverseProxy input token => do let _ ← (o.createReverseProxy input token).onRows
  | .updateServer id input => do let _ ← (o.updateServer id input).onRows
  | .updateReverseProxy id input => do let _ ← ReverseProxyService.update o id input
  | .setServerEnvVariable id key value => (o.setEnvVariable id key value).onRows
  | .deleteServerEnvVariable id key => (o.deleteEnvVariable id key).onRows
  | .setProxyEnvVariable id key value => ReverseProxyService.setEnvVariable o id key value
  | .deleteProxyEnvVariable id key => ReverseProxyService.deleteEnvVariable o id key
  | .deleteServer id => ServerService.delete o id
  | .deleteReverseProxy id => ReverseProxyService.delete o id
  | .syncAll => do let _ ← o.syncAll.onRows

/-- All requests run concurrently. -/
def serveRequests (o : OperatorResourceSync) (requests : List RowRequest) :
    Prog Action (Settled Error Action.Answer) (List (Except Error Unit)) :=
  Prog.allSettled (requests.map fun request => (request.task o).run)

end Minikura.Backend
