import Minikura.Backend.Routes
import Minikura.Data.Purge

/-!
# What administrators alone can do

Users, servers and proxies behind their guards, with the user of every session looked up in the
table that the requests of administrators change: who may do what is decided anew by each request.

## Main definitions

* `authPlugin`, `requireAdmin` — from a session to a user who may go on.
* `userRoutes` — the routes of the users.
* `handle` — a request, over users, servers and proxies.

## Main results

* `requests_of_administrators` — without the requests of others every run is the same.
* `access_lost_through_another` — no administrator loses access through own requests.
-/

namespace Minikura.Backend.Access
open Routes Purge

/-! ## Sessions -/

/-- What the guards look at: everything that the routes read and write. -/
structure Store where
  users : UserTable
  tables : Tables

abbrev StoreTask (α : Type) := Stateful Failure Store α

/-- The session of a request, for the user that its cookie stands for. -/
def authPlugin (users : UserTable) (userId : Option String) (now : Time) : Session :=
  match userId.bind users.find with
  | some user =>
    if user.banned || isUserSuspended user now then { user := none, isSuspended := true }
    else { user := some user, isSuspended := false }
  | none => { user := none, isSuspended := false }

/-- A handler of servers and proxies, in the store. -/
def onTables {α : Type} (p : Handler α) : StoreTask α :=
  ExceptT.mk fun store =>
    let (r, tables) := p.exec store.tables
    (r, { store with tables })

def requireAdmin (session : Session) : StoreTask User := do
  let user ← onTables (authenticatedUser session)
  if user.role ≠ "admin" then throw (forbiddenError "admin access required")
  else return user

/-! ## Users -/

/-- The body of `PATCH /users/:id/suspension`: a field that is not there, `null` or a date. -/
structure SuspensionPayload where
  isSuspended : Bool
  suspendedUntil : Option (Option Time)

structure UserSchemas (Payload : Type) where
  updateUser : Payload → Except Failure UpdateUserInput
  updateSuspension : Payload → Except Failure SuspensionPayload

inductive UserRoute (Payload : Type) where
  | list
  | get (id : String)
  | update (id : String) (body : Payload)
  | updateSuspension (id : String) (body : Payload)
  | delete (id : String)

inductive Answer where
  | resource (body : Body)
  | users (users : List User)
  | user (user : User)
  | success
  /-- What the service of the users throws. -/
  | thrown (e : Error)

/-- A call of `UserService` that writes. -/
def callUserService {α : Type} (call : UserTable → Except Error α × UserTable)
    (answer : α → Answer) : StoreTask Answer := do
  let store ← get
  let (r, users) := call store.users
  set { store with users }
  match r with
  | .ok a => return answer a
  | .error e => return .thrown e

section

variable {Payload : Type} (schemas : UserSchemas Payload) (env : Circumstances) (user : User)

def userRoutes (route : UserRoute Payload) : StoreTask Answer :=
  match route with
  | .list => do return .users (← get).users.users
  | .get id => do
    match (← get).users.find id with
    | none => throw (Routes.notFoundError "User" id)
    | some found => return .user found
  | .update id body => do
    let input ← onTables (Routes.ofExcept (schemas.updateUser body))
    callUserService (fun users => UserService.updateUser user.id id env users input) .user
  | .updateSuspension id body => do
    let payload ← onTables (Routes.ofExcept (schemas.updateSuspension body))
    let input : UpdateSuspensionInput :=
      { isSuspended := payload.isSuspended, suspendedUntil := some payload.suspendedUntil.join }
    callUserService (fun users => UserService.updateSuspension user.id id env users input) .user
  | .delete id =>
    callUserService (fun users => UserService.deleteUser user.id id env users) fun _ => .success

end

/-! ## Requests -/

inductive Action (Payload : Type) where
  | users (route : UserRoute Payload)
  | resource (route : Route Payload)

/-- A request, with the user its cookie stands for, and what it meets outside. -/
structure Request (Payload : Type) where
  userId : Option String
  now : Time
  env : Circumstances
  outside : Outside
  action : Action Payload

section

variable {Payload : Type} (schemas : Schemas Payload) (userSchemas : UserSchemas Payload)

def handle (request : Request Payload) : StoreTask Answer := do
  let session := authPlugin (← get).users request.userId request.now
  match request.action with
  | .users route => do
    let user ← requireAdmin session
    userRoutes userSchemas request.env user route
  | .resource route =>
    return .resource (← onTables (handleRequest schemas ⟨session, route, request.outside⟩))

def step (store : Store) (request : Request Payload) : Except Failure Answer × Store :=
  (handle schemas userSchemas request).exec store

end

section

variable {Payload : Type}

/-- The request is one of an active administrator. -/
def byAdministrator (store : Store) (request : Request Payload) : Bool :=
  (authPlugin store.users request.userId request.now).user.any (·.role == "admin")

/-- What a resource offers to everybody who has signed in. -/
def CrudRoute.isOpen : CrudRoute Payload → Bool
  | .list | .get _ | .connectionInfo _ => true
  | _ => false

/-- What administrators alone may ask for. -/
def Action.isReserved : Action Payload → Bool
  | .users _ => true
  | .resource (.servers (.crud route)) => !CrudRoute.isOpen route
  | .resource (.servers _) => true
  | .resource (.reverseProxy route) => !CrudRoute.isOpen route

/-- What the guards throw. -/
def refusals : List Failure := [forbiddenError "Account is suspended", unauthorizedError,
  forbiddenError "admin access required"]

end

/-! ## Servers and proxies -/

section Resources

variable {Payload : Type} (schemas : Schemas Payload) (outside : Outside) {user : User}

section Queries

variable {Row : Type} (m : Model Row)

theorem readOnly_findUnique (id : String) : ReadOnly (m.findUnique id) :=
  .bind .get fun _ => .pure _

theorem readOnly_findById (id : String) (omitSensitive : Bool) :
    ReadOnly (m.findById id omitSensitive) := by
  refine .bind (readOnly_findUnique m id) fun x => ?_
  cases x with
  | none => exact .pure _
  | some x => exact .pure _

theorem readOnly_findAll (omitSensitive : Bool) : ReadOnly (m.findAll omitSensitive) :=
  .bind (.bind .get fun _ => .pure _) fun _ => .pure _

end Queries

theorem readOnly_getById {Entity CreateInput UpdateInput : Type}
    {repository : Repository Entity CreateInput UpdateInput} {id : String} {omitSensitive : Bool}
    (h : ReadOnly (repository.findById id omitSensitive)) (entityName : String) :
    ReadOnly (BaseCrudService.getById repository entityName id omitSensitive) := by
  refine .bind h fun x => ?_
  cases x with
  | none => exact .throw _
  | some x => exact .pure _

theorem readOnly_ofExcept {α : Type} (r : Except Failure α) : ReadOnly (Routes.ofExcept r) := by
  cases r with
  | ok a => exact .pure a
  | error e => exact .throw e

theorem readOnly_resourceName (id : String) : ReadOnly (resourceName id) := by
  unfold resourceName
  cases operatorResourceName id with
  | ok name => exact .pure name
  | error e => exact .throw _

theorem exec_assertAdmin {α : Type} (hrole : user.role ≠ "admin") (f : Unit → Handler α)
    (tables : Tables) : (assertAdmin user >>= f).exec tables =
      (.error (forbiddenError "admin access required"), tables) := by
  rw [assertAdmin, if_pos hrole, Stateful.exec_bind, Stateful.exec_throw]

theorem readOnly_assertAdmin {α : Type} (hrole : user.role ≠ "admin") (f : Unit → Handler α) :
    ReadOnly (assertAdmin user >>= f) := by
  intro tables
  rw [exec_assertAdmin hrole]

theorem readOnly_serverRoutes (hrole : user.role ≠ "admin") (route : ServerRoute Payload) :
    ReadOnly (serverRoutes schemas outside user route) := by
  cases route with
  | crud route =>
    cases route with
    | list => exact .bind (readOnly_findAll serverModel _) fun _ => .pure _
    | get id =>
      exact .bind (readOnly_getById (readOnly_findById serverModel id _) _) fun _ => .pure _
    | connectionInfo id =>
      refine .bind (.bind (readOnly_getById (readOnly_findById serverModel id _) _) fun _ => ?_)
        fun _ => .pure _
      exact .bind (readOnly_resourceName id) fun _ => readOnly_ofExcept _
    | _ => exact readOnly_assertAdmin hrole _
  | _ => exact readOnly_assertAdmin hrole _

theorem readOnly_reverseProxyRoutes (hrole : user.role ≠ "admin") (route : CrudRoute Payload) :
    ReadOnly (reverseProxyRoutes schemas outside user route) := by
  cases route with
  | list => exact .bind (readOnly_findAll reverseProxyModel _) fun _ => .pure _
  | get id =>
    exact .bind (readOnly_getById (readOnly_findById reverseProxyModel id _) _) fun _ => .pure _
  | connectionInfo id =>
    refine .bind (.bind (readOnly_getById (readOnly_findById reverseProxyModel id _) _) fun _ => ?_)
      fun _ => .pure _
    exact .bind (readOnly_resourceName id) fun _ => readOnly_ofExcept _
  | _ => exact readOnly_assertAdmin hrole _

/-- What is reserved ends at the guard. -/
theorem exec_serverRoutes_reserved (hrole : user.role ≠ "admin") {route : ServerRoute Payload}
    (h : (Action.resource (.servers route)).isReserved = true) (tables : Tables) :
    (serverRoutes schemas outside user route).exec tables =
      (.error (forbiddenError "admin access required"), tables) := by
  cases route with
  | crud route =>
    cases route with
    | list => cases h
    | get id => cases h
    | connectionInfo id => cases h
    | _ => exact exec_assertAdmin hrole _ tables
  | _ => exact exec_assertAdmin hrole _ tables

theorem exec_reverseProxyRoutes_reserved (hrole : user.role ≠ "admin")
    {route : CrudRoute Payload} (h : (Action.resource (.reverseProxy route)).isReserved = true)
    (tables : Tables) :
    (reverseProxyRoutes schemas outside user route).exec tables =
      (.error (forbiddenError "admin access required"), tables) := by
  cases route with
  | list => cases h
  | get id => cases h
  | connectionInfo id => cases h
  | _ => exact exec_assertAdmin hrole _ tables

end Resources

/-! ## One request -/

section Request

variable {Payload : Type} {schemas : Schemas Payload} {userSchemas : UserSchemas Payload}
  {store : Store} {request : Request Payload}

@[simp] theorem exec_onTables {α : Type} (p : Handler α) (store : Store) :
    (onTables p).exec store =
      ((p.exec store.tables).1, { store with tables := (p.exec store.tables).2 }) := rfl

theorem exec_authenticatedUser (session : Session) (tables : Tables) :
    (∃ e ∈ refusals, (authenticatedUser session).exec tables = (.error e, tables)) ∨
      ∃ user, session.user = some user ∧
        (authenticatedUser session).exec tables = (.ok user, tables) := by
  unfold authenticatedUser
  by_cases hsuspended : session.isSuspended = true
  · left
    rw [if_pos hsuspended]
    exact ⟨_, List.mem_cons_self .., rfl⟩
  · rw [if_neg hsuspended]
    cases huser : session.user with
    | none => exact .inl ⟨_, List.mem_cons_of_mem _ (List.mem_cons_self ..), rfl⟩
    | some user => exact .inr ⟨user, rfl, rfl⟩

theorem forbidden_mem_refusals : forbiddenError "admin access required" ∈ refusals :=
  List.mem_cons_of_mem _ (List.mem_cons_of_mem _ (List.mem_cons_self ..))

/-- The session of a request. -/
def Request.session (request : Request Payload) (store : Store) : Session :=
  authPlugin store.users request.userId request.now

theorem role_ne_admin (h : byAdministrator store request = false) {user : User}
    (huser : (request.session store).user = some user) : user.role ≠ "admin" := by
  intro hadmin
  rw [byAdministrator, ← Request.session, huser, Option.any_some, hadmin] at h
  exact absurd h (by decide)

/-- No one else gets past the guard of the users. -/
theorem exec_requireAdmin (h : byAdministrator store request = false) :
    ∃ e ∈ refusals, (requireAdmin (request.session store)).exec store = (.error e, store) := by
  unfold requireAdmin
  rw [Stateful.exec_bind, exec_onTables]
  rcases exec_authenticatedUser (request.session store) store.tables with
    ⟨e, he, hexec⟩ | ⟨user, huser, hexec⟩
  · rw [hexec]
    exact ⟨e, he, rfl⟩
  · have hrole := role_ne_admin h huser
    rw [hexec]
    refine ⟨_, forbidden_mem_refusals, ?_⟩
    simp only [if_pos hrole, Stateful.exec_throw]

/-- No one else changes servers and proxies, or gets past their guards. -/
theorem exec_handleRequest (h : byAdministrator store request = false) (route : Route Payload) :
    ((handleRequest schemas ⟨request.session store, route, request.outside⟩).exec
        store.tables).2 = store.tables ∧
      ((Action.resource route).isReserved = true → ∃ e ∈ refusals,
        ((handleRequest schemas ⟨request.session store, route, request.outside⟩).exec
          store.tables).1 = .error e) := by
  unfold handleRequest
  rw [Stateful.exec_bind]
  rcases exec_authenticatedUser (request.session store) store.tables with
    ⟨e, he, hexec⟩ | ⟨user, huser, hexec⟩
  · rw [hexec]
    exact ⟨rfl, fun _ => ⟨e, he, rfl⟩⟩
  · have hrole := role_ne_admin h huser
    rw [hexec]
    cases route with
    | servers route =>
      refine ⟨readOnly_serverRoutes schemas request.outside hrole route _, fun hreserved => ?_⟩
      exact ⟨_, forbidden_mem_refusals, congrArg Prod.fst
        (exec_serverRoutes_reserved schemas request.outside hrole hreserved store.tables)⟩
    | reverseProxy route =>
      refine ⟨readOnly_reverseProxyRoutes schemas request.outside hrole route _,
        fun hreserved => ?_⟩
      exact ⟨_, forbidden_mem_refusals, congrArg Prod.fst
        (exec_reverseProxyRoutes_reserved schemas request.outside hrole hreserved store.tables)⟩

theorem step_resource {route : Route Payload} (haction : request.action = .resource route) :
    step schemas userSchemas store request =
      let (r, tables) := (handleRequest schemas
        ⟨request.session store, route, request.outside⟩).exec store.tables
      (r.map .resource, { store with tables }) := by
  unfold step handle
  rw [Stateful.exec_bind, Stateful.exec_get]
  simp only [haction, Stateful.exec_bind, exec_onTables]
  rw [← Request.session]
  rcases (handleRequest schemas ⟨request.session store, route, request.outside⟩).exec
    store.tables with ⟨r, tables⟩
  cases r <;> rfl

theorem step_users {route : UserRoute Payload} (haction : request.action = .users route) :
    step schemas userSchemas store request =
      (requireAdmin (request.session store) >>= fun user =>
        userRoutes userSchemas request.env user route).exec store := by
  unfold step handle
  rw [Stateful.exec_bind, Stateful.exec_get]
  simp only [haction]
  rfl

/-- A request of anyone else than an administrator changes nothing, and what is reserved for
administrators is refused. -/
theorem step_of_other (h : byAdministrator store request = false) :
    (step schemas userSchemas store request).2 = store ∧
      (request.action.isReserved = true →
        ∃ e ∈ refusals, (step schemas userSchemas store request).1 = .error e) := by
  cases haction : request.action with
  | users route =>
    obtain ⟨e, he, hexec⟩ := exec_requireAdmin h
    rw [step_users haction, Stateful.exec_bind, hexec]
    exact ⟨rfl, fun _ => ⟨e, he, rfl⟩⟩
  | resource route =>
    obtain ⟨htables, hreserved⟩ := @exec_handleRequest Payload schemas store request h route
    rw [step_resource haction]
    refine ⟨congrArg (fun tables => { store with tables }) htables, fun hr => ?_⟩
    obtain ⟨e, he, hr⟩ := hreserved hr
    refine ⟨e, he, ?_⟩
    simp only [hr]
    rfl

theorem guarded_step : Guarded (step schemas userSchemas) byAdministrator :=
  fun _ _ h => (step_of_other h).1

end Request

/-! ## Requests of an administrator about users -/

/-- The user is an active administrator at the time. -/
def ActiveAdmin (id : String) (time : Time) (users : UserTable) : Prop :=
  ∃ user, users.find id = some user ∧ user.activeAdmin time

section Own

variable {users : UserTable} {id target : String} {now later : Time} {env : Circumstances}

theorem id_of_find {user : User} (h : users.find id = some user) : user.id = id := by
  have hfound := List.find?_some h
  simpa using hfound

theorem find_set_self {user : User} {data : UserData} (h : users.find id = some user) :
    (users.set id data).find id = some (user.set data) := by
  have hid := id_of_find h
  unfold UserTable.find UserTable.set at *
  rw [List.find?_map]
  have hkeep : ((fun u : User => decide (u.id = id)) ∘ fun u => if u.id = id then u.set data else u)
      = fun u => decide (u.id = id) := by
    funext u
    by_cases hu : u.id = id <;> simp [hu, User.set]
  rw [hkeep, h, Option.map_some, if_pos hid]

theorem find_set_of_ne {data : UserData} (h : id ≠ target) :
    (users.set target data).find id = users.find id := by
  unfold UserTable.find UserTable.set
  rw [List.find?_map]
  have hkeep : ((fun u : User => decide (u.id = id)) ∘
      fun u => if u.id = target then u.set data else u) = fun u => decide (u.id = id) := by
    funext u
    by_cases hu : u.id = target <;> simp [hu, User.set]
  rw [hkeep]
  cases hf : users.users.find? fun u => decide (u.id = id) with
  | none => rfl
  | some user =>
    have hid := id_of_find hf
    rw [Option.map_some, if_neg (hid ▸ h)]

theorem find_erase_of_ne (h : id ≠ target) : (users.erase target).find id = users.find id := by
  unfold UserTable.find UserTable.erase
  rw [List.find?_filter]
  congr 1
  funext u
  by_cases hu : u.id = id <;> simp [hu, h]

/-- What a transaction writes is what its body writes, if anything. -/
theorem transaction_table {α : Type} (users : UserTable) (tx : Tx α) (commit : Except Error Unit) :
    (transaction tx commit users).2 = users ∨
      ∃ a, tx users = .ok (a, (transaction tx commit users).2) := by
  unfold transaction
  split
  · exact .inr ⟨_, ‹_›⟩
  · exact .inl rfl
  · exact .inl rfl

theorem updateUser_table (env : Circumstances) (me : String) (input : UpdateUserInput) :
    (UserService.updateUser me target env users input).2 = users ∨
      (me = target → input.role ≠ some .user) ∧
        (UserService.updateUser me target env users input).2 = users.set target input.data := by
  unfold UserService.updateUser
  split_ifs with hself
  · exact .inl rfl
  rcases transaction_table users
    (PrismaUserRepository.updateWithAdminSafety target input env.filter) env.commit with h | ⟨a, h⟩
  · exact .inl h
  · obtain ⟨_, -, -, hw⟩ := withAdminSafety_ok h
    refine .inr ⟨fun hme hrole => hself ?_, update_ok hw⟩
    simp [hme, hrole]

theorem updateSuspension_table (env : Circumstances) (me : String) (input : UpdateSuspensionInput) :
    (UserService.updateSuspension me target env users input).2 = users ∨
      (me = target → input.suspensionIsActive env.service = false) ∧
        (UserService.updateSuspension me target env users input).2 =
          users.set target input.data := by
  unfold UserService.updateSuspension
  split_ifs with hself
  · exact .inl rfl
  rcases transaction_table users (PrismaUserRepository.updateSuspensionWithAdminSafety
    target input env.repository env.filter) env.commit with h | ⟨a, h⟩
  · exact .inl h
  · obtain ⟨_, -, -, hw⟩ := withAdminSafety_ok h
    refine .inr ⟨fun hme => ?_, update_ok hw⟩
    simpa [hme] using hself

theorem deleteUser_table (env : Circumstances) (me : String) :
    (UserService.deleteUser me target env users).2 = users ∨
      me ≠ target ∧ (UserService.deleteUser me target env users).2 = users.erase target := by
  unfold UserService.deleteUser
  split_ifs with hself
  · exact .inl rfl
  rcases transaction_table users
    (PrismaUserRepository.deleteWithAdminSafety target env.filter) env.commit with h | ⟨a, h⟩
  · exact .inl h
  · obtain ⟨_, -, -, hw⟩ := withAdminSafety_ok h
    exact .inr ⟨hself, delete_ok hw⟩

/-- A role that is not taken away stays. -/
theorem ActiveAdmin.update {input : UpdateUserInput} (h : ActiveAdmin id later users)
    (hrole : id = target → input.role ≠ some .user) :
    ActiveAdmin id later (users.set target input.data) := by
  obtain ⟨user, hfind, hactive⟩ := h
  by_cases hid : id = target
  · subst hid
    refine ⟨_, find_set_self hfind, ?_⟩
    simp only [User.activeAdmin, Bool.and_eq_true] at hactive ⊢
    refine ⟨⟨?_, hactive.1.2⟩, hactive.2⟩
    cases hr : input.role with
    | none => simpa [User.set, UpdateUserInput.data, hr] using hactive.1.1
    | some role =>
      cases role with
      | admin => simp [User.set, UpdateUserInput.data, hr, UserRole.name]
      | user => exact absurd hr (hrole rfl)
  · exact ⟨user, (find_set_of_ne hid).trans hfind, hactive⟩

/-- A suspension that is over is none. -/
theorem ActiveAdmin.updateSuspension {input : UpdateSuspensionInput}
    (h : ActiveAdmin id later users) (hservice : env.service ≤ later)
    (hover : id = target → input.suspensionIsActive env.service = false) :
    ActiveAdmin id later (users.set target input.data) := by
  obtain ⟨user, hfind, hactive⟩ := h
  by_cases hid : id = target
  · subst hid
    refine ⟨_, find_set_self hfind, ?_⟩
    have hend := hover rfl
    simp only [User.activeAdmin, Bool.and_eq_true] at hactive ⊢
    refine ⟨hactive.1, ?_⟩
    simp only [UpdateSuspensionInput.suspensionIsActive] at hend
    simp only [isUserSuspended, User.set, UpdateSuspensionInput.data, Option.getD_some]
    by_cases hs : input.isSuspended = true
    · obtain ⟨t, ht⟩ : ∃ t, input.suspendedUntil = some (some t) := by
        cases hu : input.suspendedUntil with
        | none => simp [hs, hu] at hend
        | some t =>
          cases t with
          | none => simp [hs, hu] at hend
          | some t => exact ⟨t, rfl⟩
      simp only [hs, ht, Option.join_some, Option.all_some, Bool.true_and,
        decide_eq_false_iff_not, Int.not_lt] at hend
      have hpast : t ≤ later := Int.le_trans hend hservice
      simp [ht, hpast]
    · simp [hs]
  · exact ⟨user, (find_set_of_ne hid).trans hfind, hactive⟩

theorem exec_callUserService {α : Type} (call : UserTable → Except Error α × UserTable)
    (answer : α → Answer) (store : Store) : ((callUserService call answer).exec store).2 =
      { store with users := (call store.users).2 } := by
  unfold callUserService
  rw [Stateful.exec_bind, Stateful.exec_get]
  rcases hcall : call store.users with ⟨r, table⟩
  cases r <;> simp only [hcall] <;> rfl

variable {Payload : Type} {userSchemas : UserSchemas Payload} {user : User} {store : Store}

/-- What an administrator asks for leaves the administrator one. -/
theorem activeAdmin_userRoutes (hservice : env.service ≤ later)
    (h : ActiveAdmin user.id later store.users) (route : UserRoute Payload) :
    ActiveAdmin user.id later ((userRoutes userSchemas env user route).exec store).2.users := by
  cases route with
  | list => exact h
  | get id =>
    rw [userRoutes, Stateful.exec_bind, Stateful.exec_get]
    simp only
    cases store.users.find id with
    | none => exact h
    | some found => exact h
  | update id body =>
    rw [userRoutes, Stateful.exec_bind, exec_onTables]
    cases userSchemas.updateUser body with
    | error e => exact h
    | ok input =>
      simp only [Routes.ofExcept, Stateful.exec_pure, exec_callUserService]
      rcases updateUser_table env user.id input with hsame | ⟨hrole, hset⟩
      · rw [hsame]
        exact h
      · rw [hset]
        exact h.update hrole
  | updateSuspension id body =>
    rw [userRoutes, Stateful.exec_bind, exec_onTables]
    cases userSchemas.updateSuspension body with
    | error e => exact h
    | ok payload =>
      simp only [Routes.ofExcept, Stateful.exec_pure, exec_callUserService]
      rcases updateSuspension_table env user.id _ with hsame | ⟨hover, hset⟩
      · rw [hsame]
        exact h
      · rw [hset]
        exact h.updateSuspension hservice hover
  | delete id =>
    rw [userRoutes, exec_callUserService]
    rcases deleteUser_table env user.id with hsame | ⟨hother, herase⟩
    · rw [hsame]
      exact h
    · obtain ⟨found, hfind, hactive⟩ := h
      rw [herase]
      exact ⟨found, (find_erase_of_ne hother).trans hfind, hactive⟩

end Own

/-! ## Runs -/

section Runs

variable {Payload : Type} (schemas : Schemas Payload) (userSchemas : UserSchemas Payload)

/-- The requests one after another, with their answers. -/
def serveRequests (requests : List (Request Payload)) (store : Store) :
    List (Served (Request Payload) (Except Failure Answer)) × Store :=
  serveAll (step schemas userSchemas) byAdministrator requests store

/-- The user who gets past the guard is the one of the session. -/
theorem userId_of_session {store : Store} {request : Request Payload} {user : User}
    (h : (request.session store).user = some user) : request.userId = some user.id := by
  unfold Request.session authPlugin at h
  cases hid : request.userId with
  | none => simp [hid] at h
  | some id =>
    rw [hid, Option.bind_some] at h
    cases hfind : store.users.find id with
    | none => simp [hfind] at h
    | some found =>
      simp only [hfind] at h
      split_ifs at h
      obtain rfl := Option.some.inj h
      rw [id_of_find hfind]

theorem activeAdmin_step {id : String} {later : Time} {store : Store} {request : Request Payload}
    (hown : request.userId = some id) (hservice : request.env.service ≤ later)
    (h : ActiveAdmin id later store.users) :
    ActiveAdmin id later (step schemas userSchemas store request).2.users := by
  cases haction : request.action with
  | resource route =>
    rw [step_resource haction]
    exact h
  | users route =>
    rw [step_users haction, Stateful.exec_bind]
    unfold requireAdmin
    rw [Stateful.exec_bind, exec_onTables]
    rcases exec_authenticatedUser (request.session store) store.tables with
      ⟨e, -, hexec⟩ | ⟨user, huser, hexec⟩
    · rw [hexec]
      exact h
    · rw [hexec]
      simp only
      obtain rfl : user.id = id := Option.some.inj ((userId_of_session huser).symm.trans hown)
      split_ifs
      · exact h
      · exact activeAdmin_userRoutes hservice h route

/-- An administrator who is none any more has lost access through a request that another one
made, as an administrator. -/
theorem access_lost_through_another {requests : List (Request Payload)} {store : Store}
    {id : String} {later : Time} (hactive : ActiveAdmin id later store.users)
    (hclock : ∀ request ∈ requests, request.env.service ≤ later)
    (hlost : ¬ActiveAdmin id later (serveRequests schemas userSchemas requests store).2.users) :
    ∃ e ∈ (serveRequests schemas userSchemas requests store).1,
      e.privileged = true ∧ e.input.userId ≠ some id := by
  by_contra hnone
  push Not at hnone
  refine hlost (serveAll_induction (Q := fun r => r.userId = some id ∧ r.env.service ≤ later)
    (I := fun store => ActiveAdmin id later store.users) guarded_step
    (fun _ _ _ hQ h => activeAdmin_step schemas userSchemas hQ.1 hQ.2 h) hactive
    fun e he hprivileged => ⟨hnone e he hprivileged, hclock e.input ?_⟩)
  have hmem : e.input ∈ (serveAll (step schemas userSchemas) byAdministrator requests
      store).1.map (·.input) := List.mem_map_of_mem he
  rwa [map_input_serveAll] at hmem

end Runs

/-! ## Two administrators -/

def ana : User := ⟨"a", "Ana", "admin", false, none, false⟩
def ben : User := ⟨"b", "Ben", "admin", false, none, false⟩
def cleo : User := ⟨"c", "Cleo", "user", false, none, false⟩

def team : Store where
  users := { users := [ana, ben, cleo], keys := by decide }
  tables := ⟨[], []⟩

def nowhere : Outside where
  now := 0
  apiKey := ""
  serviceInfo _ := .error .unexpected
  nodes := .error .unexpected
  podsByLabel _ := .error .unexpected
  restartPod _ := .error .unexpected

def nothingParses : Schemas (Option UserRole) where
  createServer _ := .error .unexpected
  updateServer _ := .error .unexpected
  createReverseProxy _ := .error .unexpected
  updateReverseProxy _ := .error .unexpected
  envVariable _ := .error .unexpected

def roles : UserSchemas (Option UserRole) where
  updateUser role := .ok { role }
  updateSuspension _ := .error .unexpected

def setRole (me target : String) (role : UserRole) : Request (Option UserRole) where
  userId := some me
  now := 5
  env := ⟨5, 5, 5, .ok ()⟩
  outside := nowhere
  action := .users (.update target (some role))

/-- The user tries to take over, the first administrator to give up, and the second one
demotes the first. -/
def demotions : List (Request (Option UserRole)) :=
  [setRole "c" "c" .admin, setRole "a" "a" .user, setRole "b" "a" .user]

theorem access_lost_through_another_demoted :
    ∃ e ∈ (serveRequests nothingParses roles demotions team).1,
      e.privileged = true ∧ e.input.userId ≠ some "a" := by
  have hactive : ActiveAdmin "a" 10 team.users := ⟨ana, by decide, by decide⟩
  have hclock : ∀ request ∈ demotions, request.env.service ≤ 10 := by decide
  refine access_lost_through_another nothingParses roles hactive hclock ?_
  rintro ⟨user, hfind, hlater⟩
  have hdemoted : (serveRequests nothingParses roles demotions team).2.users.find "a" =
      some { ana with role := "user" } := by decide
  obtain rfl := Option.some.inj (hfind.symm.trans hdemoted)
  exact absurd hlater (by decide)

end Minikura.Backend.Access
