import Minikura.Backend.OperatorResourceSync
import Minikura.Backend.UserService
import Minikura.Data.TwoRuns

/-!
# The server and reverse proxy routes

The routes behind `requireAuth`, from the session's user to the response. Servers and
proxies share a service and most of a repository, so both are written for a `Model`; what
comes from outside of the database is passed in with every request. The handlers of
events write to the cluster only, and what they throw is logged.

## Main definitions

* `Model` — a Prisma model whose rows have an API key and environment variables.
* `BaseCrudService` — what both services do with their repositories.
* `serverRoutes`, `reverseProxyRoutes`, `handleRequest` — the routes and their responses.
-/

namespace Minikura.Backend.Routes

/-! ## Errors and responses -/

inductive Failure where
  /-- A `DomainError`. -/
  | domain (code : String) (statusCode : Nat) (message : String)
  /-- A `ZodError`. -/
  | validation (message : String)
  | unexpected
deriving Repr, DecidableEq

def identified (resource middle id : String) : String :=
  if id = "" then resource ++ middle else resource ++ middle ++ ": " ++ id

def notFoundError (resource id : String) : Failure :=
  .domain "NOT_FOUND" 404 (identified resource " not found" id)

def conflictError (resource id : String) : Failure :=
  .domain "CONFLICT" 409 (identified resource " already exists" id)

def unauthorizedError : Failure := .domain "UNAUTHORIZED" 401 "Unauthorized access"

def forbiddenError (message : String) : Failure := .domain "FORBIDDEN" 403 message

/-! ## Tables -/

/-- A row with its `created_at` and `updated_at`. -/
structure Stamped (Row : Type) where
  row : Row
  createdAt : Time
  updatedAt : Time
deriving Repr, DecidableEq

structure Tables where
  servers : List (Stamped Server)
  proxies : List (Stamped ReverseProxy)

abbrev Handler (α : Type) := Stateful Failure Tables α

/-- A Prisma model whose rows have an API key and environment variables. -/
structure Model (Row : Type) where
  id : Row → String
  apiKey : Row → String
  envVariables : Row → List EnvVariable
  withEnvVariables : Row → List EnvVariable → Row
  /-- What `include: { env_variables: true }` reads of a row. -/
  included : Row → Row
  /-- `{ ...rest, api_key: "", env_variables: [] }` -/
  omitSensitive : Row → Row
  storable : Row → Bool
  rows : Tables → List (Stamped Row)
  setRows : Tables → List (Stamped Row) → Tables

def serverModel : Model Server where
  id s := s.id
  apiKey s := s.apiKey
  envVariables s := s.envVariables
  withEnvVariables s vars := { s with envVariables := vars }
  included s := { s with plugins := [] }
  omitSensitive s := { s with apiKey := "", envVariables := [] }
  storable := Server.storable
  rows t := t.servers
  setRows t rows := { t with servers := rows }

def reverseProxyModel : Model ReverseProxy where
  id p := p.id
  apiKey p := p.apiKey
  envVariables p := p.envVariables
  withEnvVariables p vars := { p with envVariables := vars }
  included p := p
  omitSensitive p := { p with apiKey := "", envVariables := [] }
  storable := ReverseProxy.storable
  rows t := t.proxies
  setRows t rows := { t with proxies := rows }

namespace Model

variable {Row : Type} (m : Model Row)

/-! ### Queries -/

def read (x : Stamped Row) : Stamped Row := { x with row := m.included x.row }

def findMany : Handler (List (Stamped Row)) := do
  return (m.rows (← get)).map m.read

def findUnique (id : String) : Handler (Option (Stamped Row)) := do
  return ((m.rows (← get)).find? fun x => m.id x.row = id).map m.read

def insert (now : Time) (row : Row) : Handler (Stamped Row) := do
  let rows := m.rows (← get)
  if rows.any (fun x => m.id x.row = m.id row || m.apiKey x.row = m.apiKey row) ||
      !m.storable row then
    throw .unexpected
  else
    modify fun t => m.setRows t (rows ++ [⟨row, now, now⟩])
    return ⟨row, now, now⟩

/-- Write an edited row; a row that is not there, or does not fit, is an error. -/
def edit (id : String) (f : Stamped Row → Stamped Row) : Handler (Stamped Row) := do
  match ← m.findUnique id with
  | none => throw .unexpected
  | some x =>
    if !m.storable (f x).row then throw .unexpected
    else
      modify fun t => m.setRows t
        ((m.rows t).map fun y => if m.id y.row = id then f y else y)
      return m.read (f x)

def editEnvVariables (id : String) (f : List EnvVariable → List EnvVariable) :
    Handler Unit := do
  let _ ← m.edit id fun x => { x with row := m.withEnvVariables x.row (f (m.envVariables x.row)) }
  return ()

def deleteManyEnvVariables (id : String) (p : EnvVariable → Bool) : Handler Unit := do
  match ← m.findUnique id with
  | none => return ()
  | some _ => m.editEnvVariables id (·.filter fun v => !p v)

/-! ### Methods the two repositories have in common -/

def findById (id : String) (omitSensitive : Bool) : Handler (Option (Stamped Row)) := do
  match ← m.findUnique id with
  | none => return none
  | some x => return some (if omitSensitive then { x with row := m.omitSensitive x.row } else x)

def findAll (omitSensitive : Bool) : Handler (List (Stamped Row)) := do
  let rows ← m.findMany
  return if omitSensitive then rows.map fun x => { x with row := m.omitSensitive x.row } else rows

def rowExists (id : String) : Handler Bool := do
  return (← m.findUnique id).isSome

def delete (id : String) : Handler Unit := do
  match ← m.findUnique id with
  | none => throw .unexpected
  | some _ => modify fun t => m.setRows t ((m.rows t).filter fun y => m.id y.row ≠ id)

def setEnvVariable (id key value : String) : Handler Unit :=
  m.editEnvVariables id fun vars =>
    if vars.any (·.key = key) then vars.map fun v => if v.key = key then { v with value } else v
    else vars ++ [⟨key, value⟩]

def getEnvVariables (resource id : String) : Handler (List EnvVariable) := do
  match ← m.findUnique id with
  | none => throw (notFoundError resource id)
  | some x => return m.envVariables x.row

def deleteEnvVariable (id key : String) : Handler Unit :=
  m.deleteManyEnvVariables id (·.key = key)

end Model

/-! ## Repositories -/

structure UpdateReverseProxyInput where
  description : Option (Option String) := none
  externalAddress : Option String := none
  externalPort : Option Int := none
  listenPort : Option Int := none
  type : Option ReverseProxyServerType := none
  serviceType : Option ServiceType := none
  nodePort : Option (Option Int) := none
  memory : Option Int := none
  cpuRequest : Option String := none
  cpuLimit : Option String := none
deriving Repr, DecidableEq

/-- The `data` of `PrismaReverseProxyRepository.update`. -/
def ReverseProxy.update (p : ReverseProxy) (i : UpdateReverseProxyInput) : ReverseProxy :=
  { p with
    description := i.description.getD p.description
    externalAddress := i.externalAddress.getD p.externalAddress
    externalPort := i.externalPort.getD p.externalPort
    listenPort := i.listenPort.getD p.listenPort
    type := i.type.getD p.type
    serviceType := i.serviceType.getD p.serviceType
    nodePort := i.nodePort.getD p.nodePort
    memory := i.memory.getD p.memory
    cpuRequest := i.cpuRequest.or p.cpuRequest
    cpuLimit := i.cpuLimit.or p.cpuLimit }

/-- The methods `BaseCrudService` asks of a repository. -/
structure Repository (Entity CreateInput UpdateInput : Type) where
  findAll : Bool → Handler (List Entity)
  findById : String → Bool → Handler (Option Entity)
  rowExists : String → Handler Bool
  create : CreateInput → Handler Entity
  update : String → UpdateInput → Handler Entity
  delete : String → Handler Unit
  setEnvVariable : String → String → String → Handler Unit
  getEnvVariables : String → Handler (List EnvVariable)
  deleteEnvVariable : String → String → Handler Unit

namespace PrismaServerRepository

def replaceEnvVariables (id : String) (vars : List EnvVariable) : Handler Unit := do
  serverModel.deleteManyEnvVariables id fun _ => true
  if !vars.isEmpty then serverModel.editEnvVariables id (· ++ vars) else return ()

def create (now : Time) (token : String) (input : CreateServerInput) :
    Handler (Stamped Server) := do
  if ← serverModel.rowExists input.id then throw (conflictError "Server" input.id)
  else serverModel.insert now (.ofInput input token)

def update (now : Time) (id : String) (input : UpdateServerInput) : Handler (Stamped Server) := do
  match ← serverModel.findUnique id with
  | none => throw (notFoundError "Server" id)
  | some _ =>
    match input.envVariables with
    | some vars => replaceEnvVariables id vars
    | none => pure ()
    serverModel.edit id fun x => { x with row := x.row.update input, updatedAt := now }

end PrismaServerRepository

def prismaServerRepository (now : Time) (token : String) :
    Repository (Stamped Server) CreateServerInput UpdateServerInput where
  findAll := serverModel.findAll
  findById := serverModel.findById
  rowExists := serverModel.rowExists
  create := PrismaServerRepository.create now token
  update := PrismaServerRepository.update now
  delete := serverModel.delete
  setEnvVariable := serverModel.setEnvVariable
  getEnvVariables := serverModel.getEnvVariables "Server"
  deleteEnvVariable := serverModel.deleteEnvVariable

namespace PrismaReverseProxyRepository

def create (now : Time) (token : String) (input : CreateReverseProxyInput) :
    Handler (Stamped ReverseProxy) := do
  if ← reverseProxyModel.rowExists input.id then
    throw (conflictError "ReverseProxyServer" input.id)
  else reverseProxyModel.insert now (.ofInput input token)

/-- Unlike that of servers, it leaves the environment variables alone. -/
def update (now : Time) (id : String) (input : UpdateReverseProxyInput) :
    Handler (Stamped ReverseProxy) := do
  match ← reverseProxyModel.findUnique id with
  | none => throw (notFoundError "ReverseProxyServer" id)
  | some _ =>
    reverseProxyModel.edit id fun x =>
      { x with row := ReverseProxy.update x.row input, updatedAt := now }

end PrismaReverseProxyRepository

def prismaReverseProxyRepository (now : Time) (token : String) :
    Repository (Stamped ReverseProxy) CreateReverseProxyInput UpdateReverseProxyInput where
  findAll := reverseProxyModel.findAll
  findById := reverseProxyModel.findById
  rowExists := reverseProxyModel.rowExists
  create := PrismaReverseProxyRepository.create now token
  update := PrismaReverseProxyRepository.update now
  delete := reverseProxyModel.delete
  setEnvVariable := reverseProxyModel.setEnvVariable
  getEnvVariables := reverseProxyModel.getEnvVariables "ReverseProxyServer"
  deleteEnvVariable := reverseProxyModel.deleteEnvVariable

/-! ## Kubernetes -/

structure ServicePort where
  port : Int
  nodePort : Option Int
deriving Repr, DecidableEq

structure ServiceInfo where
  type : Option String
  clusterIP : Option String
  loadBalancerIP : Option String
  loadBalancerHostname : Option String
  ports : List ServicePort
deriving Repr, DecidableEq

structure Node where
  externalIP : Option String
  internalIP : Option String
deriving Repr, DecidableEq

structure ConnectionInfo where
  type : Option String
  ip : Option String := none
  nodeIP : Option String := none
  externalIP : Option String := none
  port : Option Int := none
  nodePort : Option Int := none
  connectionString : Option String := none
  note : Option String := none
deriving Repr, DecidableEq

/-- What a request gets from outside of the database. -/
structure Outside where
  now : Time
  /-- A key from the generator. -/
  apiKey : String
  /-- `K8sService.getServiceInfo` -/
  serviceInfo : String → Except Failure ServiceInfo
  nodes : Except Failure (List Node)
  podsByLabel : String → Except Failure (List String)
  restartPod : String → Except Failure Unit

/-- A text that is not falsy. -/
def truthy (s : Option String) : Option String := s.filter (· ≠ "")

def address (host : Option String) (port : Option Int) : Option String := do
  return (← truthy host) ++ ":" ++ toString (← port.filter (· ≠ 0))

/-- `K8sService.getServerConnectionInfo` -/
def getServerConnectionInfo (outside : Outside) (serviceName : String) :
    Except Failure ConnectionInfo := do
  let service ← outside.serviceInfo serviceName
  let nodes ← outside.nodes
  let port := (service.ports.head?.map (·.port)).filter (· ≠ 0)
  if service.type = some "ClusterIP" then
    return {
      type := service.type
      ip := service.clusterIP
      port
      connectionString := address service.clusterIP port
      note := some "Only accessible within the cluster" }
  else if service.type = some "NodePort" then
    let externalIP := truthy (nodes.head?.bind (·.externalIP))
    let nodeIP := externalIP.or (nodes.head?.bind (·.internalIP))
    let nodePort := service.ports.head?.bind (·.nodePort)
    return {
      type := service.type
      nodeIP
      nodePort
      port
      connectionString := address nodeIP nodePort
      note := some <|
        if (truthy nodeIP).isSome && externalIP.isNone then
          "Using internal IP (may not be accessible from outside the cluster network)"
        else "Accessible from any node in the cluster" }
  else if service.type = some "LoadBalancer" then
    let externalIP := (truthy service.loadBalancerIP).or service.loadBalancerHostname
    return {
      type := service.type
      externalIP
      port
      connectionString := address externalIP port
      note := if (truthy externalIP).isNone then some "LoadBalancer IP pending" else none }
  else return { type := service.type, note := some "Unknown service type" }

/-! ## Services -/

namespace BaseCrudService

variable {Entity CreateInput UpdateInput : Type}
  (repository : Repository Entity CreateInput UpdateInput) (entityName : String)

def getAll (omitSensitive : Bool) : Handler (List Entity) := repository.findAll omitSensitive

def getById (id : String) (omitSensitive : Bool) : Handler Entity := do
  match ← repository.findById id omitSensitive with
  | none => throw (notFoundError entityName id)
  | some entity => return entity

def create (id : String) (input : CreateInput) : Handler Entity := do
  if ← repository.rowExists id then throw (conflictError entityName id)
  else repository.create input

end BaseCrudService

/-- What is thrown or returned elsewhere. -/
def ofExcept {α : Type} (r : Except Failure α) : Handler α :=
  match r with
  | .ok a => return a
  | .error e => throw e

def resourceName (id : String) : Handler String :=
  match operatorResourceName id with
  | .ok name => return name
  | .error _ => throw .unexpected

/-- `ServerService.getConnectionInfo` -/
def serverConnectionInfo (outside : Outside) (id : String) : Handler ConnectionInfo := do
  let _ ← BaseCrudService.getById (prismaServerRepository outside.now outside.apiKey) "Server" id
    false
  let name ← resourceName id
  ofExcept (getServerConnectionInfo outside ("minecraft-" ++ name))

/-- `ReverseProxyService.getConnectionInfo` -/
def reverseProxyConnectionInfo (outside : Outside) (id : String) : Handler ConnectionInfo := do
  let proxy ← BaseCrudService.getById
    (prismaReverseProxyRepository outside.now outside.apiKey) "ReverseProxyServer" id false
  let name ← resourceName id
  ofExcept (getServerConnectionInfo outside (proxy.row.type.name.toLower ++ "-" ++ name))

/-! ## Routes -/

/-- `schema.parse(body)`, for each schema of the routes. -/
structure Schemas (Payload : Type) where
  createServer : Payload → Except Failure CreateServerInput
  updateServer : Payload → Except Failure UpdateServerInput
  createReverseProxy : Payload → Except Failure CreateReverseProxyInput
  updateReverseProxy : Payload → Except Failure UpdateReverseProxyInput
  envVariable : Payload → Except Failure EnvVariable

/-- The routes both resources have, below their own path. -/
inductive CrudRoute (Payload : Type) where
  | list
  | get (id : String)
  | connectionInfo (id : String)
  | create (body : Payload)
  | update (id : String) (body : Payload)
  | delete (id : String)
  | getEnv (id : String)
  | setEnv (id : String) (body : Payload)
  | deleteEnv (id key : String)

inductive ServerRoute (Payload : Type) where
  | crud (route : CrudRoute Payload)
  | start (id : String)
  | stop (id : String)
  | restart (id : String)

inductive Body where
  | servers (rows : List (Stamped Server))
  | server (row : Stamped Server)
  | reverseProxies (rows : List (Stamped ReverseProxy))
  | reverseProxy (row : Stamped ReverseProxy)
  | connectionInfo (info : ConnectionInfo)
  | envVariables (vars : List EnvVariable)
  /-- `{ success: true }` -/
  | success
  | failure (code message : String)
deriving Repr, DecidableEq

def assertAdmin (user : User) : Handler Unit :=
  if user.role ≠ "admin" then throw (forbiddenError "admin access required") else return ()

section

variable {Payload : Type} (schemas : Schemas Payload) (outside : Outside) (user : User)

def serverRoutes (route : ServerRoute Payload) : Handler Body :=
  let repository := prismaServerRepository outside.now outside.apiKey
  match route with
  | .crud .list =>
    return .servers (← BaseCrudService.getAll repository (user.role ≠ "admin"))
  | .crud (.get id) =>
    return .server (← BaseCrudService.getById repository "Server" id (user.role ≠ "admin"))
  | .crud (.connectionInfo id) => return .connectionInfo (← serverConnectionInfo outside id)
  | .crud (.create body) => do
    assertAdmin user
    let payload ← ofExcept (schemas.createServer body)
    return .server (← BaseCrudService.create repository "Server" payload.id payload)
  | .crud (.update id body) => do
    assertAdmin user
    let payload ← ofExcept (schemas.updateServer body)
    return .server (← repository.update id payload)
  | .crud (.delete id) => do
    assertAdmin user
    repository.delete id
    return .success
  | .crud (.getEnv id) => do
    assertAdmin user
    return .envVariables (← repository.getEnvVariables id)
  | .crud (.setEnv id body) => do
    assertAdmin user
    let payload ← ofExcept (schemas.envVariable body)
    repository.setEnvVariable id payload.key payload.value
    return .success
  | .crud (.deleteEnv id key) => do
    assertAdmin user
    repository.deleteEnvVariable id key
    return .success
  | .start id => do
    assertAdmin user
    return .server (← repository.update id { running := some true })
  | .stop id => do
    assertAdmin user
    return .server (← repository.update id { running := some false })
  | .restart id => do
    assertAdmin user
    let server ← BaseCrudService.getById repository "Server" id false
    if !server.row.running then
      let _ ← repository.update id { running := some true }
      return .success
    else
      let name ← resourceName id
      let pods ← ofExcept (outside.podsByLabel ("minikura.kirameki.cafe/server-id=" ++ name))
      let _ ← ofExcept (pods.mapM outside.restartPod)
      return .success

def reverseProxyRoutes (route : CrudRoute Payload) : Handler Body :=
  let repository := prismaReverseProxyRepository outside.now outside.apiKey
  match route with
  | .list =>
    return .reverseProxies (← BaseCrudService.getAll repository (user.role ≠ "admin"))
  | .get id =>
    return .reverseProxy
      (← BaseCrudService.getById repository "ReverseProxyServer" id (user.role ≠ "admin"))
  | .connectionInfo id => return .connectionInfo (← reverseProxyConnectionInfo outside id)
  | .create body => do
    assertAdmin user
    let payload ← ofExcept (schemas.createReverseProxy body)
    return .reverseProxy
      (← BaseCrudService.create repository "ReverseProxyServer" payload.id payload)
  | .update id body => do
    assertAdmin user
    let payload ← ofExcept (schemas.updateReverseProxy body)
    return .reverseProxy (← repository.update id payload)
  | .delete id => do
    assertAdmin user
    repository.delete id
    return .success
  | .getEnv id => do
    assertAdmin user
    return .envVariables (← repository.getEnvVariables id)
  | .setEnv id body => do
    assertAdmin user
    let payload ← ofExcept (schemas.envVariable body)
    repository.setEnvVariable id payload.key payload.value
    return .success
  | .deleteEnv id key => do
    assertAdmin user
    repository.deleteEnvVariable id key
    return .success

end

inductive Route (Payload : Type) where
  | servers (route : ServerRoute Payload)
  | reverseProxy (route : CrudRoute Payload)

/-- What `authPlugin` makes of the session. -/
structure Session where
  user : Option User
  isSuspended : Bool

structure Request (Payload : Type) where
  session : Session
  route : Route Payload
  outside : Outside

/-- `requireAuth` -/
def authenticatedUser (session : Session) : Handler User :=
  if session.isSuspended then throw (forbiddenError "Account is suspended")
  else match session.user with
    | none => throw unauthorizedError
    | some user => return user

def handleRequest {Payload : Type} (schemas : Schemas Payload) (request : Request Payload) :
    Handler Body := do
  let user ← authenticatedUser request.session
  match request.route with
  | .servers route => serverRoutes schemas request.outside user route
  | .reverseProxy route => reverseProxyRoutes schemas request.outside user route

structure Response where
  status : Nat
  body : Body
deriving Repr, DecidableEq

/-- `errorHandler` -/
def respond : Except Failure Body → Response
  | .ok body => ⟨200, body⟩
  | .error (.domain code statusCode message) => ⟨statusCode, .failure code message⟩
  | .error (.validation message) => ⟨400, .failure "VALIDATION_ERROR" message⟩
  | .error .unexpected =>
    ⟨500, .failure "INTERNAL_SERVER_ERROR" "An unexpected error occurred"⟩

/-- The responses to requests one after another, and the tables in the end. -/
def serve {Payload : Type} (schemas : Schemas Payload) (requests : List (Request Payload))
    (tables : Tables) : List Response × Tables :=
  respondAll respond (requests.map (handleRequest schemas)) tables

end Minikura.Backend.Routes
