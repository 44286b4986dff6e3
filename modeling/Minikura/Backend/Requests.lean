import Minikura.Backend.OperatorResourceSync

/-!
# Requests on servers and proxies

The create and update requests: the repository's queries, then the event, whose
handler synchronizes the row. The event bus logs what a handler throws, so a failed
synchronization never fails the request.

## Main definitions

* `createServer`, `createReverseProxy` — the create requests.
* `updateServer`, `setEnvVariable`, `deleteEnvVariable` — the update requests.
-/

namespace Minikura.Backend
open Concurrency

/-- `EventBus.publish` of an event with one handler. -/
def publish (handler : Task Unit) : Task Unit := do
  let _ ← handler.attempt
  return ()

/-! ## Repositories -/

namespace PrismaServerRepository

/-- `exists` -/
def rowExists (id : String) : Task Bool := do
  return (← await (.findServer id)).isSome

/-- `create`, with the API key the generator came up with. -/
def create (input : CreateServerInput) (token : String) : Task Server := do
  if ← rowExists input.id then throw (conflictError "Server" input.id)
  await (.createServer (.ofInput input token))

def replaceEnvVariables (id : String) (vars : List EnvVariable) : Task Unit := do
  await (.deleteEnvVariables id)
  if !vars.isEmpty then await (.createEnvVariables id vars) else return ()

def update (id : String) (input : UpdateServerInput) : Task Server := do
  match ← await (.findServer id) with
  | none => throw (notFoundError "Server" id)
  | some _ =>
    match input.envVariables with
    | some vars => replaceEnvVariables id vars
    | none => pure ()
    await (.updateServer id input)

end PrismaServerRepository

namespace PrismaReverseProxyRepository

/-- `exists` -/
def rowExists (id : String) : Task Bool := do
  return (← await (.findProxy id)).isSome

def create (input : CreateReverseProxyInput) (token : String) : Task ReverseProxy := do
  if ← rowExists input.id then throw (conflictError "ReverseProxyServer" input.id)
  await (.createProxy (.ofInput input token))

end PrismaReverseProxyRepository

/-! ## Services -/

namespace OperatorResourceSync

variable (o : OperatorResourceSync)

/-- `BaseCrudService.create` for servers. -/
def createServer (input : CreateServerInput) (token : String) : Task Server := do
  if ← PrismaServerRepository.rowExists input.id then
    throw (conflictError "Server" input.id)
  let entity ← PrismaServerRepository.create input token
  publish (o.syncServerById input.id)
  return entity

/-- `BaseCrudService.create` for proxies. -/
def createReverseProxy (input : CreateReverseProxyInput) (token : String) :
    Task ReverseProxy := do
  if ← PrismaReverseProxyRepository.rowExists input.id then
    throw (conflictError "ReverseProxyServer" input.id)
  let entity ← PrismaReverseProxyRepository.create input token
  publish (o.syncReverseProxyById input.id)
  return entity

/-- `BaseCrudService.update` for servers. -/
def updateServer (id : String) (input : UpdateServerInput) : Task Server := do
  let entity ← PrismaServerRepository.update id input
  publish (o.syncServerById id)
  return entity

def setEnvVariable (id key value : String) : Task Unit := do
  await (.upsertEnvVariable id key value)
  publish (o.syncServerById id)

def deleteEnvVariable (id key : String) : Task Unit := do
  await (.deleteEnvVariable id key)
  publish (o.syncServerById id)

end OperatorResourceSync
end Minikura.Backend
