import Minikura.Backend.Routes
import Minikura.Data.Preservation

/-!
# The rows that requests leave behind

Every request that writes a row checks what it is given, but only that: a row is put together
from what several requests have written, an update that fails may have replaced the variables
already, and ids and API keys are unique only by the indices of the tables. Still, whatever
the requests are, every row has what the schemas ask of one.

## Main definitions

* `ReverseProxy.Admitted` — what holds of every row written through the schemas.
* `Schemas.Checked` — the schemas turn down what they are to turn down.
* `Tables.Valid` — admitted rows, with ids and keys of their own.

## Main results

* `preserves_handleRequest` — every request keeps the tables valid.
* `serve_valid` — any requests do.
-/

set_option mvcgen.warning false

namespace Minikura.Backend

/-! ## Rows of proxies -/

/-- `updateReverseProxySchema` -/
def Routes.UpdateReverseProxyInput.accepted (i : Routes.UpdateReverseProxyInput) : Bool :=
  i.externalAddress.all (· ≠ "") && i.externalPort.all portAccepted &&
    i.listenPort.all portAccepted && i.nodePort.all nodePortAccepted && i.memory.all (256 ≤ ·)

/-- A row whose every column went through the schemas and into the database. -/
structure ReverseProxy.Admitted (p : ReverseProxy) : Prop where
  id : resourceIdAccepted p.id
  externalAddress : p.externalAddress ≠ ""
  externalPort : portAccepted p.externalPort
  listenPort : portAccepted p.listenPort
  nodePort : nodePortAccepted p.nodePort
  env : envAccepted p.envVariables
  memory : 256 ≤ p.memory
  storable : p.storable

theorem ReverseProxy.admitted_ofInput {i : CreateReverseProxyInput} {token : String}
    (h : i.accepted) (hs : (ReverseProxy.ofInput i token).storable) :
    (ReverseProxy.ofInput i token).Admitted := by
  simp only [CreateReverseProxyInput.accepted, Bool.and_eq_true, decide_eq_true_eq] at h
  obtain ⟨⟨⟨⟨⟨⟨hid, haddress⟩, hexternal⟩, hport⟩, hnode⟩, henv⟩, hmem⟩ := h
  refine ⟨hid, haddress, hexternal, ?_, ?_, ?_, ?_, hs⟩
  · cases hn : i.listenPort <;> simp_all [ReverseProxy.ofInput, portAccepted]
  · cases hn : i.nodePort <;> simp_all [ReverseProxy.ofInput, nodePortAccepted]
  · cases hn : i.envVariables <;> simp_all [ReverseProxy.ofInput, envAccepted]
  · cases hn : i.memory <;> simp_all [ReverseProxy.ofInput]

theorem ReverseProxy.Admitted.update {p : ReverseProxy} {i : Routes.UpdateReverseProxyInput}
    (hp : p.Admitted) (h : i.accepted) (hs : (Routes.ReverseProxy.update p i).storable) :
    (Routes.ReverseProxy.update p i).Admitted := by
  simp only [Routes.UpdateReverseProxyInput.accepted, Bool.and_eq_true] at h
  obtain ⟨⟨⟨⟨haddress, hexternal⟩, hport⟩, hnode⟩, hmem⟩ := h
  obtain ⟨pid, paddress, pexternal, pport, pnode, penv, pmem, -⟩ := hp
  refine ⟨pid, ?_, ?_, ?_, ?_, penv, ?_, hs⟩
  · cases hn : i.externalAddress <;> simp_all [Routes.ReverseProxy.update]
  · cases hn : i.externalPort <;> simp_all [Routes.ReverseProxy.update]
  · cases hn : i.listenPort <;> simp_all [Routes.ReverseProxy.update]
  · cases hn : i.nodePort <;> simp_all [Routes.ReverseProxy.update]
  · cases hn : i.memory <;> simp_all [Routes.ReverseProxy.update]

theorem ReverseProxy.Admitted.withEnv {p : ReverseProxy} {vars : List EnvVariable}
    (hp : p.Admitted) (h : envAccepted vars) (hn : (vars.map (·.key)).Nodup) :
    { p with envVariables := vars }.Admitted := by
  obtain ⟨pid, paddress, pexternal, pport, pnode, -, pmem, pstore⟩ := hp
  refine ⟨pid, paddress, pexternal, pport, pnode, h, pmem, ?_⟩
  simp only [ReverseProxy.storable, Bool.and_eq_true, decide_eq_true_eq] at pstore ⊢
  exact ⟨pstore.1, hn⟩

namespace Routes

/-! ## Tables -/

variable {Row : Type} {m : Model Row} {P : Row → Prop} {I : Tables → Prop}

/-- Rows that all have a property, with ids and API keys of their own. -/
structure Model.ValidRows (m : Model Row) (P : Row → Prop) (rows : List (Stamped Row)) :
    Prop where
  row : ∀ x ∈ rows, P x.row
  ids : (rows.map fun x => m.id x.row).Nodup
  apiKeys : (rows.map fun x => m.apiKey x.row).Nodup

structure Tables.Valid (t : Tables) : Prop where
  servers : serverModel.ValidRows Server.Admitted t.servers
  proxies : reverseProxyModel.ValidRows ReverseProxy.Admitted t.proxies

/-- A property of the tables that asks for valid rows of a model, and for nothing else that
its queries change. -/
structure Model.Guarded (m : Model Row) (P : Row → Prop) (I : Tables → Prop) : Prop where
  rows : ∀ t, I t → m.ValidRows P (m.rows t)
  setRows : ∀ t rows, I t → m.ValidRows P rows → I (m.setRows t rows)
  /-- The variables of a row may be any with keys that differ and are not empty. -/
  env : ∀ row, P row → envAccepted (m.envVariables row)
  withEnv : ∀ row vars, P row → envAccepted vars →
    m.storable (m.withEnvVariables (m.included row) vars) → P (m.withEnvVariables row vars)
  id : ∀ row vars, m.id (m.withEnvVariables row vars) = m.id row
  apiKey : ∀ row vars, m.apiKey (m.withEnvVariables row vars) = m.apiKey row
  included : ∀ row, m.envVariables (m.included row) = m.envVariables row

theorem serverModel_guarded : serverModel.Guarded Server.Admitted Tables.Valid where
  rows t ht := ht.servers
  setRows t rows ht hrows := ⟨hrows, ht.proxies⟩
  env row hrow := hrow.env
  withEnv row vars hrow hvars hstorable := by
    refine hrow.withEnv hvars ?_
    simp only [serverModel, Server.storable, Bool.and_eq_true, decide_eq_true_eq] at hstorable
    exact hstorable.2
  id _ _ := rfl
  apiKey _ _ := rfl
  included _ := rfl

theorem reverseProxyModel_guarded :
    reverseProxyModel.Guarded ReverseProxy.Admitted Tables.Valid where
  rows t ht := ht.proxies
  setRows t rows ht hrows := ⟨ht.servers, hrows⟩
  env row hrow := hrow.env
  withEnv row vars hrow hvars hstorable := by
    refine hrow.withEnv hvars ?_
    simp only [reverseProxyModel, ReverseProxy.storable, Bool.and_eq_true,
      decide_eq_true_eq] at hstorable
    exact hstorable.2
  id _ _ := rfl
  apiKey _ _ := rfl
  included _ := rfl

/-! ## Queries -/

theorem preserves_findUnique (id : String) : PreservesWith I (m.findUnique id) fun found t =>
    found = ((m.rows t).find? fun x => m.id x.row = id).map m.read := by
  mvcgen [Model.findUnique]

theorem preserves_findAll (omitSensitive : Bool) : Preserves I (m.findAll omitSensitive) := by
  mvcgen [Model.findAll, Model.findMany]

theorem preserves_findById (id : String) (omitSensitive : Bool) :
    Preserves I (m.findById id omitSensitive) := by
  have hfind := preserves_findUnique (m := m) (I := I) id
  mvcgen [Model.findById, hfind]
  all_goals grind

theorem preserves_rowExists (id : String) : Preserves I (m.rowExists id) := by
  have hfind := preserves_findUnique (m := m) (I := I) id
  mvcgen [Model.rowExists, hfind]
  all_goals grind

theorem preserves_getEnvVariables (resource id : String) :
    Preserves I (m.getEnvVariables resource id) := by
  have hfind := preserves_findUnique (m := m) (I := I) id
  mvcgen [Model.getEnvVariables, hfind]
  all_goals grind

/-- An edit that leaves a row with the property, if the database can hold what was read and
edited. -/
structure Model.Edits (m : Model Row) (P : Row → Prop) (f : Stamped Row → Stamped Row) : Prop where
  row : ∀ x, P x.row → m.storable (f (m.read x)).row → P (f x).row
  id : ∀ x, m.id (f x).row = m.id x.row
  apiKey : ∀ x, m.apiKey (f x).row = m.apiKey x.row

section Writes

variable {rows : List (Stamped Row)} {f : Stamped Row → Stamped Row} {id : String}

theorem map_field_edit {β : Type} (field : Row → β) (hf : ∀ x, field (f x).row = field x.row) :
    (rows.map fun y => if m.id y.row = id then f y else y).map (fun y => field y.row) =
      rows.map fun y => field y.row := by
  rw [List.map_map]
  refine List.map_congr_left fun y _ => ?_
  simp only [Function.comp_apply]
  split_ifs
  · exact hf y
  · rfl

theorem Model.ValidRows.edit (h : m.ValidRows P rows) (hf : m.Edits P f) {x : Stamped Row}
    (hx : rows.find? (fun y => m.id y.row = id) = some x)
    (hstorable : m.storable (f (m.read x)).row) :
    m.ValidRows P (rows.map fun y => if m.id y.row = id then f y else y) := by
  have hid : m.id x.row = id := by simpa using List.find?_some hx
  have hmem : x ∈ rows := List.mem_of_find?_eq_some hx
  refine ⟨?_, ?_, ?_⟩
  · intro z hz
    obtain ⟨y, hy, rfl⟩ := List.mem_map.mp hz
    split_ifs with hyid
    · -- ids differ, so the row is the one that was found
      obtain rfl : y = x := List.inj_on_of_nodup_map h.ids hy hmem (hyid.trans hid.symm)
      exact hf.row y (h.row y hy) hstorable
    · exact h.row y hy
  · rw [map_field_edit m.id hf.id]
    exact h.ids
  · rw [map_field_edit m.apiKey hf.apiKey]
    exact h.apiKeys

theorem Model.ValidRows.filter (h : m.ValidRows P rows) (p : Stamped Row → Bool) :
    m.ValidRows P (rows.filter p) where
  row x hx := h.row x (List.mem_of_mem_filter hx)
  ids := h.ids.sublist (List.filter_sublist.map _)
  apiKeys := h.apiKeys.sublist (List.filter_sublist.map _)

theorem Model.ValidRows.insert (h : m.ValidRows P rows) {row : Row} {now : Time} (hrow : P row)
    (hnew : rows.any (fun x => m.id x.row = m.id row || m.apiKey x.row = m.apiKey row) = false) :
    m.ValidRows P (rows ++ [⟨row, now, now⟩]) := by
  have hfresh : ∀ x ∈ rows, m.id x.row ≠ m.id row ∧ m.apiKey x.row ≠ m.apiKey row := by
    simpa using hnew
  refine ⟨?_, ?_, ?_⟩
  · intro x hx
    rcases List.mem_append.mp hx with hx | hx
    · exact h.row x hx
    · obtain rfl := List.mem_singleton.mp hx
      exact hrow
  · rw [List.map_append, List.nodup_append]
    refine ⟨h.ids, List.nodup_singleton _, ?_⟩
    grind
  · rw [List.map_append, List.nodup_append]
    refine ⟨h.apiKeys, List.nodup_singleton _, ?_⟩
    grind

variable (id) (h : m.Guarded P I)
include h

theorem preserves_edit (hf : m.Edits P f) : Preserves I (m.edit id f) := by
  have hfind := preserves_findUnique (m := m) (I := I) id
  mvcgen [Model.edit, hfind]
  · grind
  · grind
  · rename_i hstorable t ht _
    obtain ⟨hI, hfound⟩ := ht
    obtain ⟨y, hy, rfl⟩ := Option.map_eq_some_iff.mp hfound.symm
    exact h.setRows t _ hI ((h.rows t hI).edit hf hy (by simpa using hstorable))

theorem preserves_insert {row : Row} (now : Time) (hrow : m.storable row → P row) :
    Preserves I (m.insert now row) := by
  mvcgen [Model.insert]
  rename_i t hI _ hnew _
  simp only [Bool.or_eq_true, Bool.not_eq_true', not_or, Bool.not_eq_true,
    Bool.not_eq_false] at hnew
  exact h.setRows t _ hI ((h.rows t hI).insert (hrow hnew.2) hnew.1)

theorem preserves_delete : Preserves I (m.delete id) := by
  have hfind := preserves_findUnique (m := m) (I := I) id
  mvcgen [Model.delete, hfind]
  · grind
  · rename_i t ht _
    exact h.setRows t _ ht.1 ((h.rows t ht.1).filter _)

/-! ### Environment variables -/

theorem edits_envVariables {g : List EnvVariable → List EnvVariable}
    (hg : ∀ vars, envAccepted vars → envAccepted (g vars)) :
    m.Edits P fun x =>
      { x with row := m.withEnvVariables x.row (g (m.envVariables x.row)) } where
  row x hx hstorable := by
    have hsame : m.envVariables (m.read x).row = m.envVariables x.row := h.included x.row
    rw [hsame] at hstorable
    exact h.withEnv x.row _ hx (hg _ (h.env x.row hx)) hstorable
  id x := h.id x.row _
  apiKey x := h.apiKey x.row _

theorem preserves_editEnvVariables {g : List EnvVariable → List EnvVariable}
    (hg : ∀ vars, envAccepted vars → envAccepted (g vars)) :
    Preserves I (m.editEnvVariables id g) := by
  have hedit := preserves_edit id h (edits_envVariables h hg)
  mvcgen [Model.editEnvVariables, hedit]

theorem preserves_deleteManyEnvVariables (p : EnvVariable → Bool) :
    Preserves I (m.deleteManyEnvVariables id p) := by
  have hfind := preserves_findUnique (m := m) (I := I) id
  have hedit := preserves_editEnvVariables id h (g := fun vars => vars.filter fun v => !p v)
    fun vars hvars => by grind [envAccepted]
  mvcgen [Model.deleteManyEnvVariables, hfind, hedit]
  all_goals grind

theorem preserves_setEnvVariable {key : String} (hkey : key ≠ "") (value : String) :
    Preserves I (m.setEnvVariable id key value) := by
  refine preserves_editEnvVariables id h fun vars hvars => ?_
  split_ifs <;> grind [envAccepted]

theorem preserves_deleteEnvVariable (key : String) : Preserves I (m.deleteEnvVariable id key) :=
  preserves_deleteManyEnvVariables id h _

end Writes

/-! ## Repositories -/

section Repositories

variable (now : Time) (token id : String)

theorem edits_serverUpdate {input : UpdateServerInput} (h : input.accepted) :
    serverModel.Edits Server.Admitted fun x =>
      { x with row := x.row.update input, updatedAt := now } where
  row _ hx hstorable := hx.update h hstorable
  id _ := rfl
  apiKey _ := rfl

theorem edits_reverseProxyUpdate {input : UpdateReverseProxyInput} (h : input.accepted) :
    reverseProxyModel.Edits ReverseProxy.Admitted fun x =>
      { x with row := ReverseProxy.update x.row input, updatedAt := now } where
  row _ hx hstorable := hx.update h hstorable
  id _ := rfl
  apiKey _ := rfl

theorem preserves_createServer {input : CreateServerInput} (h : input.accepted) :
    Preserves Tables.Valid (PrismaServerRepository.create now token input) := by
  have hexists := preserves_rowExists (m := serverModel) (I := Tables.Valid) input.id
  have hadmitted : (Server.ofInput input token).storable →
      (Server.ofInput input token).Admitted := Server.admitted_ofInput h
  have hinsert := preserves_insert serverModel_guarded now hadmitted
  mvcgen [PrismaServerRepository.create, hexists, hinsert]

theorem preserves_replaceEnvVariables {vars : List EnvVariable} (h : envAccepted vars) :
    Preserves Tables.Valid (PrismaServerRepository.replaceEnvVariables id vars) := by
  have hdelete := preserves_deleteManyEnvVariables id serverModel_guarded fun _ => true
  have hedit := preserves_editEnvVariables id serverModel_guarded (g := (· ++ vars))
    fun vars' hvars' => by grind [envAccepted]
  mvcgen [PrismaServerRepository.replaceEnvVariables, hdelete, hedit]

theorem preserves_updateServer {input : UpdateServerInput} (h : input.accepted) :
    Preserves Tables.Valid (PrismaServerRepository.update now id input) := by
  have hfind := preserves_findUnique (m := serverModel) (I := Tables.Valid) id
  have hedit := preserves_edit id serverModel_guarded (edits_serverUpdate now h)
  have hreplace : ∀ vars, input.envVariables = some vars →
      Preserves Tables.Valid (PrismaServerRepository.replaceEnvVariables id vars) := by
    intro vars hvars
    refine preserves_replaceEnvVariables id ?_
    simp only [UpdateServerInput.accepted, ServerOptions.accepted, hvars, Bool.and_eq_true,
      Option.all_some] at h
    exact h.2.1.1.1.2
  unfold PrismaServerRepository.update
  cases hvars : input.envVariables with
  | none =>
    mvcgen [hfind, hedit]
    all_goals grind
  | some vars =>
    have hreplaced := hreplace vars hvars
    mvcgen [hfind, hedit, hreplaced]
    all_goals grind

theorem preserves_createReverseProxy {input : CreateReverseProxyInput} (h : input.accepted) :
    Preserves Tables.Valid (PrismaReverseProxyRepository.create now token input) := by
  have hexists := preserves_rowExists (m := reverseProxyModel) (I := Tables.Valid) input.id
  have hadmitted : (ReverseProxy.ofInput input token).storable →
      (ReverseProxy.ofInput input token).Admitted := ReverseProxy.admitted_ofInput h
  have hinsert := preserves_insert reverseProxyModel_guarded now hadmitted
  mvcgen [PrismaReverseProxyRepository.create, hexists, hinsert]

theorem preserves_updateReverseProxy {input : UpdateReverseProxyInput} (h : input.accepted) :
    Preserves Tables.Valid (PrismaReverseProxyRepository.update now id input) := by
  have hfind := preserves_findUnique (m := reverseProxyModel) (I := Tables.Valid) id
  have hedit := preserves_edit id reverseProxyModel_guarded (edits_reverseProxyUpdate now h)
  mvcgen [PrismaReverseProxyRepository.update, hfind, hedit]
  all_goals grind

end Repositories

/-! ## Routes -/

/-- Starting and stopping a server go past the schemas. -/
theorem accepted_running (running : Bool) :
    ({ running := some running } : UpdateServerInput).accepted := rfl

/-- What the schemas let through is what they accept. -/
structure Schemas.Checked {Payload : Type} (schemas : Schemas Payload) : Prop where
  createServer : ∀ body input, schemas.createServer body = .ok input → input.accepted
  updateServer : ∀ body input, schemas.updateServer body = .ok input → input.accepted
  createReverseProxy : ∀ body input, schemas.createReverseProxy body = .ok input → input.accepted
  updateReverseProxy : ∀ body input, schemas.updateReverseProxy body = .ok input → input.accepted
  envVariable : ∀ body input, schemas.envVariable body = .ok input → input.key ≠ ""

theorem preserves_ofExcept {α : Type} (r : Except Failure α) :
    PreservesWith I (ofExcept r) fun a _ => r = .ok a := by
  cases r <;> mvcgen [ofExcept]

section

variable {Entity CreateInput UpdateInput : Type}
  {repository : Repository Entity CreateInput UpdateInput} {entityName id : String}

theorem preserves_getById {omitSensitive : Bool}
    (h : Preserves I (repository.findById id omitSensitive)) :
    Preserves I (BaseCrudService.getById repository entityName id omitSensitive) := by
  mvcgen [BaseCrudService.getById, h]

variable (repository) in
theorem preserves_create {input : CreateInput} (hexists : Preserves I (repository.rowExists id))
    (hcreate : Preserves I (repository.create input)) :
    Preserves I (BaseCrudService.create repository entityName id input) := by
  mvcgen [BaseCrudService.create, hexists, hcreate]

end

section

variable {Payload : Type} {schemas : Schemas Payload} {outside : Outside} {user : User}

theorem preserves_assertAdmin {α : Type} {f : Unit → Handler α} (h : Preserves I (f ())) :
    Preserves I (assertAdmin user >>= f) := by
  mvcgen [assertAdmin, h]

theorem preserves_resourceName (id : String) : Preserves I (resourceName id) := by
  mvcgen [resourceName]

variable (outside)

theorem preserves_getServer (id : String) (omitSensitive : Bool) :
    Preserves I (BaseCrudService.getById (prismaServerRepository outside.now outside.apiKey)
      "Server" id omitSensitive) :=
  preserves_getById (preserves_findById id omitSensitive)

theorem preserves_getReverseProxy (id : String) (omitSensitive : Bool) :
    Preserves I (BaseCrudService.getById (prismaReverseProxyRepository outside.now outside.apiKey)
      "ReverseProxyServer" id omitSensitive) :=
  preserves_getById (preserves_findById id omitSensitive)

theorem preserves_newServer {input : CreateServerInput} (h : input.accepted) :
    Preserves Tables.Valid (BaseCrudService.create
      (prismaServerRepository outside.now outside.apiKey) "Server" input.id input) :=
  preserves_create (prismaServerRepository outside.now outside.apiKey)
    (preserves_rowExists (m := serverModel) input.id) (preserves_createServer _ _ h)

theorem preserves_newReverseProxy {input : CreateReverseProxyInput} (h : input.accepted) :
    Preserves Tables.Valid (BaseCrudService.create
      (prismaReverseProxyRepository outside.now outside.apiKey) "ReverseProxyServer" input.id
      input) :=
  preserves_create (prismaReverseProxyRepository outside.now outside.apiKey)
    (preserves_rowExists (m := reverseProxyModel) input.id) (preserves_createReverseProxy _ _ h)

theorem preserves_serverConnectionInfo (id : String) :
    Preserves I (serverConnectionInfo outside id) := by
  have hget := preserves_getServer (I := I) outside id false
  have hname := preserves_resourceName (I := I) id
  mvcgen [serverConnectionInfo, hget, hname, ofExcept]

theorem preserves_reverseProxyConnectionInfo (id : String) :
    Preserves I (reverseProxyConnectionInfo outside id) := by
  have hget := preserves_getReverseProxy (I := I) outside id false
  have hname := preserves_resourceName (I := I) id
  mvcgen [reverseProxyConnectionInfo, hget, hname, ofExcept]

variable (user)

theorem preserves_restart (id : String) : Preserves Tables.Valid
    (serverRoutes schemas outside user (.restart id)) := by
  have hget := preserves_getServer (I := Tables.Valid) outside id false
  have hname := preserves_resourceName (I := Tables.Valid) id
  have hupdate := preserves_updateServer outside.now id (accepted_running true)
  refine preserves_assertAdmin ?_
  mvcgen [hget, hname, hupdate, ofExcept, prismaServerRepository]

theorem preserves_serverRoutes (hschemas : schemas.Checked) (route : ServerRoute Payload) :
    Preserves Tables.Valid (serverRoutes schemas outside user route) := by
  cases route with
  | crud route =>
    cases route with
    | list => exact (preserves_findAll _).map _
    | get id => exact (preserves_getServer outside id _).map _
    | connectionInfo id => exact (preserves_serverConnectionInfo outside id).map _
    | create body =>
      refine preserves_assertAdmin (.bind (preserves_ofExcept _) fun input hinput => ?_)
      have haccepted := hschemas.createServer body input hinput
      exact (preserves_newServer outside haccepted).map _
    | update id body =>
      refine preserves_assertAdmin (.bind (preserves_ofExcept _) fun input hinput => ?_)
      have haccepted := hschemas.updateServer body input hinput
      exact (preserves_updateServer _ id haccepted).map _
    | delete id => exact preserves_assertAdmin ((preserves_delete id serverModel_guarded).map _)
    | getEnv id => exact preserves_assertAdmin ((preserves_getEnvVariables _ id).map _)
    | setEnv id body =>
      refine preserves_assertAdmin (.bind (preserves_ofExcept _) fun input hinput => ?_)
      have hkey := hschemas.envVariable body input hinput
      exact (preserves_setEnvVariable id serverModel_guarded hkey input.value).map _
    | deleteEnv id key =>
      exact preserves_assertAdmin ((preserves_deleteEnvVariable id serverModel_guarded key).map _)
  | start id =>
    exact preserves_assertAdmin ((preserves_updateServer _ id (accepted_running true)).map _)
  | stop id =>
    exact preserves_assertAdmin ((preserves_updateServer _ id (accepted_running false)).map _)
  | restart id => exact preserves_restart outside user id

theorem preserves_reverseProxyRoutes (hschemas : schemas.Checked) (route : CrudRoute Payload) :
    Preserves Tables.Valid (reverseProxyRoutes schemas outside user route) := by
  cases route with
  | list => exact (preserves_findAll _).map _
  | get id => exact (preserves_getReverseProxy outside id _).map _
  | connectionInfo id => exact (preserves_reverseProxyConnectionInfo outside id).map _
  | create body =>
    refine preserves_assertAdmin (.bind (preserves_ofExcept _) fun input hinput => ?_)
    have haccepted := hschemas.createReverseProxy body input hinput
    exact (preserves_newReverseProxy outside haccepted).map _
  | update id body =>
    refine preserves_assertAdmin (.bind (preserves_ofExcept _) fun input hinput => ?_)
    have haccepted := hschemas.updateReverseProxy body input hinput
    exact (preserves_updateReverseProxy _ id haccepted).map _
  | delete id => exact preserves_assertAdmin ((preserves_delete id reverseProxyModel_guarded).map _)
  | getEnv id => exact preserves_assertAdmin ((preserves_getEnvVariables _ id).map _)
  | setEnv id body =>
    refine preserves_assertAdmin (.bind (preserves_ofExcept _) fun input hinput => ?_)
    have hkey := hschemas.envVariable body input hinput
    exact (preserves_setEnvVariable id reverseProxyModel_guarded hkey input.value).map _
  | deleteEnv id key =>
    exact preserves_assertAdmin
      ((preserves_deleteEnvVariable id reverseProxyModel_guarded key).map _)

end

theorem preserves_handleRequest {Payload : Type} {schemas : Schemas Payload}
    (hschemas : schemas.Checked) (request : Request Payload) :
    Preserves Tables.Valid (handleRequest schemas request) := by
  have hservers := fun user route =>
    preserves_serverRoutes request.outside user hschemas route
  have hproxies := fun user route =>
    preserves_reverseProxyRoutes request.outside user hschemas route
  mvcgen [handleRequest, authenticatedUser, hservers, hproxies]

/-- From valid tables on, any requests of anyone leave valid tables. -/
theorem serve_valid {Payload : Type} {schemas : Schemas Payload} (hschemas : schemas.Checked)
    (requests : List (Request Payload)) {tables : Tables} (h : tables.Valid) :
    (serve schemas requests tables).2.Valid := by
  refine respondAll_preserves (fun p hp => ?_) h
  obtain ⟨request, -, rfl⟩ := List.mem_map.mp hp
  exact preserves_handleRequest hschemas request

/-! ## A failing update -/

/-- Bodies that are inputs already. -/
inductive Form where
  | createServer (input : CreateServerInput)
  | updateServer (input : UpdateServerInput)
  | createReverseProxy (input : CreateReverseProxyInput)
  | envVariable (input : EnvVariable)

def refused {α : Type} : Except Failure α := .error (.validation "Invalid input")

def formSchemas : Schemas Form where
  createServer
    | .createServer input => if input.accepted then .ok input else refused
    | _ => refused
  updateServer
    | .updateServer input => if input.accepted then .ok input else refused
    | _ => refused
  createReverseProxy
    | .createReverseProxy input => if input.accepted then .ok input else refused
    | _ => refused
  updateReverseProxy _ := refused
  envVariable
    | .envVariable input => if input.key ≠ "" then .ok input else refused
    | _ => refused

theorem checked_formSchemas : formSchemas.Checked where
  createServer body input h := by
    cases body <;> grind [formSchemas, refused]
  updateServer body input h := by
    cases body <;> grind [formSchemas, refused]
  createReverseProxy body input h := by
    cases body <;> grind [formSchemas, refused]
  updateReverseProxy _ _ h := by cases h
  envVariable body input h := by
    cases body <;> grind [formSchemas, refused]

def administrator : Session where
  user := some ⟨"a", "Ana", "admin", false, none, false⟩
  isSuspended := false

/-- The API server cannot be reached. -/
def offline (apiKey : String) : Outside where
  now := 5
  apiKey
  serviceInfo _ := .error .unexpected
  nodes := .error .unexpected
  podsByLabel _ := .error .unexpected
  restartPod _ := .error .unexpected

def asking (apiKey : String) (route : ServerRoute Form) : Request Form :=
  ⟨administrator, .servers route, offline apiKey⟩

/-- A server is created, loses its variables to an update that then fails, and is started. -/
def lobbyRequests : List (Request Form) := [
  asking "key-lobby" (.crud (.create (.createServer
    { id := "lobby", listenPort := 25565, type := .stateful,
      envVariables := some [⟨"SEED", "1"⟩] }))),
  asking "" (.crud (.update "lobby" (.updateServer
    { envVariables := some [⟨"A", "1"⟩, ⟨"A", "2"⟩] }))),
  asking "" (.start "lobby")]

theorem serve_valid_lobby : (serve formSchemas lobbyRequests ⟨[], []⟩).2.Valid ∧
    (serve formSchemas lobbyRequests ⟨[], []⟩).2.servers.map
      (fun x => (x.row.id, x.row.envVariables)) = [("lobby", [])] := by
  have hempty : Tables.Valid ⟨[], []⟩ := by
    constructor <;> exact ⟨by simp, .nil, .nil⟩
  exact ⟨serve_valid checked_formSchemas lobbyRequests hempty, by decide +kernel⟩

end Routes
end Minikura.Backend
