import Minikura.Backend.Routes

/-!
# What other users than administrators learn

API keys and environment variables are secrets. From tables that differ in nothing else,
requests of users who are not administrators get the same responses: most routes turn them
down, the queries of the others are blanked, and the connection information takes only the
type of a proxy from its row.

## Main results

* `two_runs_handleRequest` — one request.
* `serve_eq` — the responses to any requests, and the tables in the end.
-/

namespace Minikura.Backend.Routes

/-! ## Rows without their secrets -/

def serverWithoutSecrets (x : Stamped Server) : Stamped Server :=
  { x with row := { x.row with apiKey := "", envVariables := [] } }

def reverseProxyWithoutSecrets (x : Stamped ReverseProxy) : Stamped ReverseProxy :=
  { x with row := { x.row with apiKey := "", envVariables := [] } }

/-- The tables differ only in API keys and environment variables. -/
structure Tables.SameButSecrets (s t : Tables) : Prop where
  servers : s.servers.map serverWithoutSecrets = t.servers.map serverWithoutSecrets
  proxies : s.proxies.map reverseProxyWithoutSecrets = t.proxies.map reverseProxyWithoutSecrets

/-- How the rows of a model hide their secrets. -/
structure Model.Hides {Row : Type} (m : Model Row) (hide : Stamped Row → Stamped Row) : Prop where
  id : ∀ x, m.id (hide x).row = m.id x.row
  read : ∀ x, hide (m.read x) = m.read (hide x)
  omitted : ∀ x, { x with row := m.omitSensitive x.row } = hide x
  rows : ∀ s t, s.SameButSecrets t → (m.rows s).map hide = (m.rows t).map hide

theorem serverModel_hides : serverModel.Hides serverWithoutSecrets where
  id _ := rfl
  read _ := rfl
  omitted _ := rfl
  rows _ _ h := h.servers

theorem reverseProxyModel_hides : reverseProxyModel.Hides reverseProxyWithoutSecrets where
  id _ := rfl
  read _ := rfl
  omitted _ := rfl
  rows _ _ h := h.proxies

/-! ## Queries -/

section Queries

variable {Row : Type} {m : Model Row} {hide : Stamped Row → Stamped Row} (hm : m.Hides hide)
include hm

theorem hide_find? (rows : List (Stamped Row)) (id : String) :
    (rows.find? fun x => m.id x.row = id).map hide =
      (rows.map hide).find? fun x => m.id x.row = id := by
  rw [List.find?_map]
  simp only [Function.comp_def, hm.id]

theorem two_runs_findMany :
    TwoRuns Tables.SameButSecrets (fun xs ys => xs.map hide = ys.map hide)
      m.findMany m.findMany := by
  refine TwoRuns.get.bind fun s t hst => .pure ?_
  have hread : hide ∘ m.read = m.read ∘ hide := funext hm.read
  rw [List.map_map, List.map_map, hread, ← List.map_map, hm.rows s t hst, List.map_map]

theorem two_runs_findUnique (id : String) :
    TwoRuns Tables.SameButSecrets (fun x y => x.map hide = y.map hide)
      (m.findUnique id) (m.findUnique id) := by
  refine TwoRuns.get.bind fun s t hst => .pure ?_
  have hread : hide ∘ m.read = m.read ∘ hide := funext hm.read
  rw [Option.map_map, Option.map_map, hread, ← Option.map_map, hide_find? hm, hm.rows s t hst,
    ← hide_find? hm, Option.map_map]

/-- With `omitSensitive` the rows found are the same. -/
theorem two_runs_findAll : TwoRuns Tables.SameButSecrets Eq (m.findAll true) (m.findAll true) := by
  refine (two_runs_findMany hm).bind fun xs ys h => .pure ?_
  have homitted : (fun x : Stamped Row => { x with row := m.omitSensitive x.row }) = hide :=
    funext hm.omitted
  simpa only [if_true, homitted] using h

theorem two_runs_findById (id : String) :
    TwoRuns Tables.SameButSecrets Eq (m.findById id true) (m.findById id true) := by
  refine (two_runs_findUnique hm id).bind fun x y h => ?_
  rcases x with _ | x <;> rcases y with _ | y
  · exact .pure rfl
  · cases h
  · cases h
  · refine .pure ?_
    simpa only [if_true, hm.omitted, Option.map_some] using h

/-- Without it they are the same but for their secrets. -/
theorem two_runs_findById_false (id : String) :
    TwoRuns Tables.SameButSecrets (fun x y => x.map hide = y.map hide)
      (m.findById id false) (m.findById id false) := by
  refine (two_runs_findUnique hm id).bind fun x y h => ?_
  rcases x with _ | x <;> rcases y with _ | y
  · exact .pure rfl
  · cases h
  · cases h
  · exact .pure h

end Queries

/-! ## Services -/

section Services

variable {R : Tables → Tables → Prop} {Entity CreateInput UpdateInput β : Type}
  {repository : Repository Entity CreateInput UpdateInput} {entityName id : String}

theorem two_runs_getById {omitSensitive : Bool} {f : Entity → β}
    (h : TwoRuns R (fun x y => x.map f = y.map f) (repository.findById id omitSensitive)
      (repository.findById id omitSensitive)) :
    TwoRuns R (fun x y => f x = f y)
      (BaseCrudService.getById repository entityName id omitSensitive)
      (BaseCrudService.getById repository entityName id omitSensitive) := by
  refine h.bind fun x y hxy => ?_
  rcases x with _ | x <;> rcases y with _ | y
  · exact .throw _
  · cases hxy
  · cases hxy
  · exact .pure (Option.some.inj hxy)

theorem two_runs_getById_omitted
    (h : TwoRuns R Eq (repository.findById id true) (repository.findById id true)) :
    TwoRuns R Eq (BaseCrudService.getById repository entityName id true)
      (BaseCrudService.getById repository entityName id true) := by
  refine h.bind fun x y hxy => ?_
  subst hxy
  cases x with
  | none => exact .throw _
  | some x => exact .pure rfl

theorem two_runs_ofExcept {α : Type} (r : Except Failure α) :
    TwoRuns R Eq (ofExcept r) (ofExcept r) := by
  cases r with
  | ok a => exact .pure rfl
  | error e => exact .throw e

theorem two_runs_resourceName (id : String) : TwoRuns R Eq (resourceName id) (resourceName id) := by
  unfold resourceName
  cases operatorResourceName id with
  | ok name => exact .pure rfl
  | error e => exact .throw Failure.unexpected

variable (outside : Outside)

theorem two_runs_serverConnectionInfo (id : String) :
    TwoRuns Tables.SameButSecrets Eq (serverConnectionInfo outside id)
      (serverConnectionInfo outside id) := by
  refine (two_runs_getById (two_runs_findById_false serverModel_hides id)).bind fun _ _ _ => ?_
  refine (two_runs_resourceName id).bind fun name name' h => ?_
  subst h
  exact two_runs_ofExcept _

/-- The type of a proxy is not a secret. -/
theorem two_runs_reverseProxyConnectionInfo (id : String) :
    TwoRuns Tables.SameButSecrets Eq (reverseProxyConnectionInfo outside id)
      (reverseProxyConnectionInfo outside id) := by
  refine (two_runs_getById (two_runs_findById_false reverseProxyModel_hides id)).bind
    fun x y hxy => ?_
  have htype : x.row.type = y.row.type := congrArg (fun z => z.row.type) hxy
  refine (two_runs_resourceName id).bind fun name name' h => ?_
  subst h
  rw [htype]
  exact two_runs_ofExcept _

end Services

/-! ## Routes -/

section Routes

variable {Payload : Type} (schemas : Schemas Payload) (outside : Outside) {user : User}

/-- What only administrators may do ends before it starts. -/
theorem two_runs_assertAdmin {α : Type} (hrole : user.role ≠ "admin") (f : Unit → Handler α) :
    TwoRuns Tables.SameButSecrets Eq (assertAdmin user >>= f) (assertAdmin user >>= f) := by
  rw [assertAdmin, if_pos hrole]
  exact TwoRuns.throw_bind _ f f

theorem TwoRuns.respondWith {α β : Type} {R : Tables → Tables → Prop} {p : Handler α}
    (h : TwoRuns R Eq p p) (f : α → β) :
    TwoRuns R Eq (do return f (← p)) (do return f (← p)) :=
  h.bind fun _ _ hab => .pure (congrArg f hab)

theorem two_runs_serverRoutes (hrole : user.role ≠ "admin") (route : ServerRoute Payload) :
    TwoRuns Tables.SameButSecrets Eq (serverRoutes schemas outside user route)
      (serverRoutes schemas outside user route) := by
  have homit : decide (user.role ≠ "admin") = true := decide_eq_true hrole
  cases route with
  | crud route =>
    cases route with
    | list =>
      simp only [serverRoutes, homit]
      exact TwoRuns.respondWith (two_runs_findAll serverModel_hides) Body.servers
    | get id =>
      simp only [serverRoutes, homit]
      exact TwoRuns.respondWith
        (two_runs_getById_omitted (two_runs_findById serverModel_hides id)) Body.server
    | connectionInfo id =>
      exact TwoRuns.respondWith (two_runs_serverConnectionInfo outside id) Body.connectionInfo
    | _ => exact two_runs_assertAdmin hrole _
  | _ => exact two_runs_assertAdmin hrole _

theorem two_runs_reverseProxyRoutes (hrole : user.role ≠ "admin") (route : CrudRoute Payload) :
    TwoRuns Tables.SameButSecrets Eq (reverseProxyRoutes schemas outside user route)
      (reverseProxyRoutes schemas outside user route) := by
  have homit : decide (user.role ≠ "admin") = true := decide_eq_true hrole
  cases route with
  | list =>
    simp only [reverseProxyRoutes, homit]
    exact TwoRuns.respondWith (two_runs_findAll reverseProxyModel_hides) Body.reverseProxies
  | get id =>
    simp only [reverseProxyRoutes, homit]
    exact TwoRuns.respondWith
      (two_runs_getById_omitted (two_runs_findById reverseProxyModel_hides id)) Body.reverseProxy
  | connectionInfo id =>
    exact TwoRuns.respondWith (two_runs_reverseProxyConnectionInfo outside id)
      Body.connectionInfo
  | _ => exact two_runs_assertAdmin hrole _

theorem two_runs_handleRequest (request : Request Payload)
    (hrole : ∀ user ∈ request.session.user, user.role ≠ "admin") :
    TwoRuns Tables.SameButSecrets Eq (handleRequest schemas request)
      (handleRequest schemas request) := by
  unfold handleRequest authenticatedUser
  split_ifs
  · exact TwoRuns.throw_bind _ _ _
  · cases huser : request.session.user with
    | none => exact TwoRuns.throw_bind _ _ _
    | some user =>
      have hsame : TwoRuns Tables.SameButSecrets (fun u v => u = v ∧ u.role ≠ "admin")
          (pure user : Handler User) (pure user) := .pure ⟨rfl, hrole user huser⟩
      refine hsame.bind fun u v huv => ?_
      obtain ⟨rfl, hu⟩ := huv
      cases request.route with
      | servers route => exact two_runs_serverRoutes schemas request.outside hu route
      | reverseProxy route => exact two_runs_reverseProxyRoutes schemas request.outside hu route

/-- From tables that differ only in their secrets, requests of others than administrators
get the same responses and leave tables that differ only in their secrets. -/
theorem serve_eq {requests : List (Request Payload)}
    (hroles : ∀ request ∈ requests, ∀ user ∈ request.session.user, user.role ≠ "admin")
    {s t : Tables} (h : s.SameButSecrets t) :
    (serve schemas requests s).1 = (serve schemas requests t).1 ∧
      (serve schemas requests s).2.SameButSecrets (serve schemas requests t).2 := by
  refine respondAll_eq (fun p hp => ?_) h
  obtain ⟨request, hmem, rfl⟩ := List.mem_map.mp hp
  exact two_runs_handleRequest schemas request (hroles request hmem)

end Routes

def survival : Stamped Server where
  row := .ofInput { id := "survival", listenPort := 25565, type := .stateful } "mk_1"
  createdAt := 0
  updatedAt := 0

/-- The same server with another key and a variable. -/
def survivalRekeyed : Stamped Server :=
  { survival with
    row := { survival.row with apiKey := "mk_2", envVariables := [⟨"DB_PASSWORD", "hunter2"⟩] } }

def member : Session where
  user := some ⟨"u1", "Ann", "user", false, none, false⟩
  isSuspended := false

def noCluster : Outside where
  now := 0
  apiKey := "mk_3"
  serviceInfo _ := .error .unexpected
  nodes := .error .unexpected
  podsByLabel _ := .error .unexpected
  restartPod _ := .error .unexpected

def noSchemas : Schemas Unit where
  createServer _ := .error (.validation "")
  updateServer _ := .error (.validation "")
  createReverseProxy _ := .error (.validation "")
  updateReverseProxy _ := .error (.validation "")
  envVariable _ := .error (.validation "")

/-- Reading a server, its connection information and its environment variables. -/
def reads : List (Request Unit) := [
  ⟨member, .servers (.crud (.get "survival")), noCluster⟩,
  ⟨member, .servers (.crud (.connectionInfo "survival")), noCluster⟩,
  ⟨member, .servers (.crud (.getEnv "survival")), noCluster⟩]

theorem serve_eq_reads :
    (serve noSchemas reads ⟨[survival], []⟩).1 =
        (serve noSchemas reads ⟨[survivalRekeyed], []⟩).1 ∧
      (serve noSchemas reads ⟨[survival], []⟩).2.SameButSecrets
        (serve noSchemas reads ⟨[survivalRekeyed], []⟩).2 :=
  serve_eq noSchemas (by simp [reads, member]) ⟨rfl, rfl⟩

example : (serve noSchemas reads ⟨[survivalRekeyed], []⟩).1 = [
    ⟨200, .server { survival with row := { survival.row with apiKey := "" } }⟩,
    ⟨500, .failure "INTERNAL_SERVER_ERROR" "An unexpected error occurred"⟩,
    ⟨403, .failure "FORBIDDEN" "admin access required"⟩] := by decide +kernel

end Minikura.Backend.Routes
