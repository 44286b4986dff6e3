import Mathlib.Tactic.FinCases
import Minikura.Web.Edits

/-!
# Opening a server and saving it as it is

The first state of the form leaves out what is optional, fills defaults in where the variables
have nothing, and reads flags only as true or not. Saving it writes a row without all of that.

## Main definitions

* `FormRow` — what is true of a row that the create page made.
* `Unchanged` — two rows with the same columns and the same variables.
* `Reopens` — a row with nothing that the form forgets or fills in.

## Main results

* `formRow_createServer` — rows of the create page are form rows.
* `createPage_reopens_iff` — saving changes nothing just if the row reopens.
-/

namespace Minikura.Web

open Backend (EnvVariable Server)

attribute [ext] Backend.Server

/-! ## Rows of the create page -/

structure FormRow (s : Server) : Prop where
  description : ∀ t, s.description = some t → t ≠ "" ∧ trim t = t
  listenPort : 1 ≤ s.listenPort ∧ s.listenPort ≤ 65535
  memory : 256 ≤ s.memory ∧ s.memory ≤ 2147483647
  memoryRequest : 256 ≤ s.memoryRequest ∧ s.memoryRequest ≤ 2147483647
  maxPlayers : 1 ≤ s.maxPlayers ∧ s.maxPlayers ≤ 1000
  cpuRequest : ∃ t, s.cpuRequest = some t ∧ t ≠ ""
  cpuLimit : ∃ t, s.cpuLimit = some t ∧ t ≠ ""
  minecraftVersion : s.minecraftVersion ≠ ""
  keys : (s.envVariables.map (·.key)).Nodup
  custom : ∀ v ∈ s.envVariables, isManaged v.key = false →
    v.key ≠ "" ∧ v.value ≠ "" ∧ v.key ≠ "__proto__"

section Create

variable {managed : List (String × String)}

theorem mem_environmentOf {vars : List EnvVariable} {e : String × String}
    (h : e ∈ environmentOf managed vars) :
    e ∈ managed ∨ (e.1 ≠ "" ∧ e.2 ≠ "" ∧ e.1 ≠ "__proto__") := by
  induction vars generalizing managed with
  | nil => exact .inl h
  | cons v vars ih =>
    rw [environmentOf, List.foldl_cons, ← environmentOf] at h
    rcases ih h with hmem | hcustom
    · split_ifs at hmem with hv
      · rw [setProperty] at hmem
        split_ifs at hmem with hproto
        · exact .inl hmem
        · rcases mem_setEntry hmem with rfl | hmem
          · exact .inr ⟨hv.1, hv.2, hproto⟩
          · exact .inl hmem
      · exact .inl hmem
    · exact .inr hcustom

variable {d : ServerFormData} {token : String} {s : Server}

theorem le_getD_of_all {n : Option Int} {low m : Int} (h : n.all (low ≤ ·) = true)
    (hm : low ≤ m) : low ≤ n.getD m := by
  cases n with
  | none => exact hm
  | some n => exact of_decide_eq_true h

theorem formRow_createServer (h : createServer d token = some s) : FormRow s := by
  obtain ⟨fields, hfields, h⟩ := Option.bind_eq_some_iff.mp h
  obtain ⟨⟨listenPort, options⟩, hparse, h⟩ := Option.bind_eq_some_iff.mp h
  obtain ⟨nodePort, memory, request, players, hport, hnode, hmemory, hrequest, hplayers, rfl⟩ :=
    parse_eq_some.mp hparse
  simp only at h
  split_ifs at h with haccepted
  cases h
  obtain ⟨managed, hmanaged, rfl⟩ := Option.map_eq_some_iff.mp hfields
  simp only [Backend.CreateServerInput.accepted, Backend.ServerOptions.accepted,
    CommonServerRequestFields.options, Server.storable, Server.ofInput, Backend.fitsInt4,
    Bool.and_eq_true, Option.all_some, Backend.portAccepted, decide_eq_true_eq] at haccepted
  obtain ⟨⟨⟨-, hportRange⟩, ⟨⟨-, hmemoryRange⟩, hrequestRange⟩, hplayersRange⟩,
    ⟨⟨⟨⟨-, hmemoryFits⟩, hrequestFits⟩, -⟩, -⟩, hkeys⟩ := haccepted
  refine {
    description := ?description
    listenPort := hportRange
    memory := ⟨le_getD_of_all hmemoryRange (by decide), of_decide_eq_true hmemoryFits.2⟩
    memoryRequest := ⟨le_getD_of_all hrequestRange (by decide), of_decide_eq_true hrequestFits.2⟩
    maxPlayers := ?players
    cpuRequest := ⟨_, rfl, ?request⟩
    cpuLimit := ⟨_, rfl, ?limit⟩
    minecraftVersion := ?version
    keys := of_decide_eq_true hkeys
    custom := ?custom }
  case description =>
    intro t ht
    simp only [Server.ofInput, CommonServerRequestFields.options, requestFields,
      Option.join_some] at ht
    obtain ⟨rfl, hne⟩ := nonBlank_eq_some.mp ht
    exact ⟨hne, trim_trim _⟩
  case players =>
    change 1 ≤ players.getD 20 ∧ players.getD 20 ≤ 1000
    cases players with
    | none => decide
    | some n => simpa using hplayersRange
  case request => exact getD_truthy_ne (t := some d.cpuRequest) (by decide)
  case limit => exact getD_truthy_ne (t := some d.cpuLimit) (by decide)
  case version =>
    change (if d.type = .custom then none else some ((truthy d.version).getD "LATEST")).getD
      "LATEST" ≠ ""
    split_ifs
    · decide
    · exact getD_truthy_ne (by decide)
  case custom =>
    intro v hv hnot
    obtain ⟨e, he, rfl⟩ := List.mem_map.mp hv
    rcases mem_environmentOf he with hmem | hcustom
    · rw [isManaged_of_mem hmanaged hmem] at hnot
      simp at hnot
    · exact hcustom

end Create

/-! ## What the form forgets and fills in -/

/-- The same columns, and the same variables as a map. -/
structure Unchanged (s s' : Server) : Prop where
  columns : { s' with envVariables := s.envVariables } = s
  environment : ∀ key, variableAt s'.envVariables key = variableAt s.envVariables key

namespace ManagedKey

/-- The keys of fields that the first state of the form leaves out, and of columns. -/
def forgotten : List ManagedKey := [
  .motd, .difficulty, .mode, .maxPlayers, .pvp, .onlineMode, .seed, .levelType,
  .generatorSettings, .whitelist, .whitelistFile, .ops, .opsFile, .useAikarFlags,
  .useMeowiceFlags, .jvmOpts, .jvmXxOpts, .jvmDdOpts, .resourcePack, .resourcePackSha1,
  .rconPassword, .rconCmdsStartup, .rconCmdsOnConnect, .rconCmdsFirstConnect,
  .rconCmdsOnDisconnect, .rconCmdsLastDisconnect, .plugins, .spigetResources, .paperBuild, .icon]

/-- The keys that are set only when true. -/
def flags : List ManagedKey := [
  .allowFlight, .enableCommandBlock, .hardcore, .enableWhitelist, .enableJmx,
  .resourcePackEnforce, .enableAutopause, .enableAutostop, .removeOldPlugins]

/-- The keys that are always set to true or false. -/
def switches : List ManagedKey :=
  [.eula, .spawnAnimals, .spawnMonsters, .spawnNpcs, .enableRcon, .enableQuery]

/-- The keys of texts with a default. -/
def texts : List ManagedKey := [
  .spawnProtection, .viewDistance, .simulationDistance, .level, .rconPort, .queryPort,
  .autopauseTimeoutEst, .autopauseTimeoutInit, .autopauseTimeoutKn, .autopausePeriod,
  .autopauseKnockInterface, .autostopTimeoutEst, .autostopTimeoutInit, .autostopPeriod, .tz,
  .uid, .gid, .stopDuration]

theorem cases_lists (k : ManagedKey) : k ∈ forgotten ∨ k ∈ flags ∨ k ∈ switches ∨ k ∈ texts ∨
    k = .type ∨ k = .version ∨ k = .customServer := by
  cases k <;> decide

end ManagedKey

/-- Nothing is lost or filled in when the row is opened and saved. -/
structure Reopens (s : Server) : Prop where
  nodePort : s.nodePort = none
  forgotten : ∀ k ∈ ManagedKey.forgotten, environmentValue s.envVariables k = none
  flags : ∀ k ∈ ManagedKey.flags, environmentValue s.envVariables k = none ∨
    environmentValue s.envVariables k = some "true"
  switches : ∀ k ∈ ManagedKey.switches, environmentValue s.envVariables k = some "true" ∨
    environmentValue s.envVariables k = some "false"
  texts : ∀ k ∈ ManagedKey.texts, truthy (environmentValue s.envVariables k) ≠ none
  type : ∃ t : ServerType, environmentValue s.envVariables .type = some t.name ∧
    t.jarType = s.jarType ∧
    if t = .custom then environmentValue s.envVariables .version = some "" ∧
      truthy (environmentValue s.envVariables .customServer) ≠ none
    else environmentValue s.envVariables .version = some s.minecraftVersion ∧
      environmentValue s.envVariables .customServer = none

section Forms

variable (s : Server) (environment : ManagedKey → Option String)

/-- The first state of the form for a row with the environment. -/
def opened : ServerFormData := serverForm (initialData s environment)

theorem managedValue_forgotten : ∀ k ∈ ManagedKey.forgotten,
    managedValue (opened s environment) k = none := by
  intro k hk
  fin_cases hk <;> rfl

theorem managedValue_flags : ∀ k ∈ ManagedKey.flags,
    managedValue (opened s environment) k = whenTrue (environment k == some "true") := by
  simp [ManagedKey.flags, managedValue, opened, serverForm, initialData]

theorem managedValue_switches : ∀ k ∈ ManagedKey.switches,
    managedValue (opened s environment) k = some (toString (environment k == some "true")) ∨
      managedValue (opened s environment) k = some (toString (environment k != some "false")) := by
  simp [ManagedKey.switches, managedValue, opened, serverForm, initialData]

theorem nonBlank_default (t : Option String) {u : String} (h : u ≠ "") :
    nonBlank ((nonBlank ((truthy t).getD u)).getD u) = some ((truthy t).getD u) := by
  have hne := getD_truthy_ne (t := t) h
  rw [nonBlank_of_ne hne, Option.getD_some, nonBlank_of_ne hne]

theorem managedValue_texts : ∀ k ∈ ManagedKey.texts, ∃ u ≠ "",
    managedValue (opened s environment) k = some ((truthy (environment k)).getD u) := by
  intro k hk
  fin_cases hk <;> exact ⟨_, by decide, nonBlank_default _ (by decide)⟩

theorem exists_version_opened (h : (opened s environment).type ≠ .custom) :
    ∃ v, truthy (opened s environment).version = some v := by
  have htype : (initialData s environment).type ≠ .custom := h
  refine ⟨(truthy (initialData s environment).version).getD "LATEST", ?_⟩
  change nonBlank (if (initialData s environment).type = .custom then ""
    else (truthy (initialData s environment).version).getD "LATEST") = _
  rw [if_neg htype, nonBlank_of_ne (getD_truthy_ne (by decide))]

end Forms

/-! ## The variables -/

section Variables

variable {s s' : Server} {fields : CommonServerRequestFields}

theorem lookup_filterCustom (vars : List EnvVariable) {key : String}
    (hkey : isManaged key = false) :
    ((filterCustomEnvironmentVariables vars).map pair).lookup key =
      (vars.map pair).lookup key := by
  induction vars with
  | nil => rfl
  | cons v vars ih =>
    rw [filterCustomEnvironmentVariables, List.filter_cons] at *
    rw [List.map_cons, pair, lookup_cons_ite]
    split_ifs with hmanaged hv hv
    · rw [List.map_cons, pair, lookup_cons_ite, if_pos hv]
    · rw [List.map_cons, pair, lookup_cons_ite, if_neg hv, ih]
    · rw [← hv, hkey] at hmanaged
      simp at hmanaged
    · exact ih

theorem customVariables_filterCustom (h : FormRow s) :
    CustomVariables (filterCustomEnvironmentVariables s.envVariables) := by
  have hmem : ∀ v ∈ filterCustomEnvironmentVariables s.envVariables,
      v ∈ s.envVariables ∧ isManaged v.key = false := by
    intro v hv
    obtain ⟨hv, hnot⟩ := List.mem_filter.mp hv
    exact ⟨hv, by simpa using hnot⟩
  refine ⟨h.keys.sublist (List.filter_sublist.map _), fun v hv => ?_, fun v hv => ?_,
    fun v hv => (hmem v hv).2⟩
  · exact (h.custom v (hmem v hv).1 (hmem v hv).2).1
  · exact (h.custom v (hmem v hv).1 (hmem v hv).2).2.1

theorem holdable_filterCustom (h : FormRow s) :
    holdable (filterCustomEnvironmentVariables s.envVariables) =
      filterCustomEnvironmentVariables s.envVariables := by
  refine List.filter_eq_self.mpr fun v hv => ?_
  obtain ⟨hv, hnot⟩ := List.mem_filter.mp hv
  simpa using (h.custom v hv (by simpa using hnot)).2.2

theorem key_ne_of_mem_fields {f : ServerFormData}
    (hfields : toCommonServerRequestFields f = some fields) :
    ∀ v ∈ fields.envVariables, v.key ≠ "" := by
  obtain ⟨managed, hmanaged, henv⟩ := exists_managed hfields
  intro v hv
  rw [henv] at hv
  obtain ⟨e, he, rfl⟩ := List.mem_map.mp hv
  rcases mem_environmentOf he with hmem | hcustom
  · intro hempty
    have hyes := isManaged_of_mem hmanaged hmem
    rw [show e.1 = "" from hempty] at hyes
    exact absurd hyes (by decide +kernel)
  · exact hcustom.1

/-- The variables stay just if the managed values do. -/
theorem environment_unchanged_iff (h : FormRow s) {f : ServerFormData}
    (hfields : toCommonServerRequestFields f = some fields)
    (hvars : f.envVars = filterCustomEnvironmentVariables s.envVariables) :
    (∀ key, variableAt fields.envVariables key = variableAt s.envVariables key) ↔
      ∀ k, managedValue f k = environmentValue s.envVariables k := by
  have hcustom : CustomVariables f.envVars := hvars ▸ customVariables_filterCustom h
  constructor
  · intro hsame k
    rw [← environmentValue_fields hfields hcustom k]
    exact hsame k.name
  · intro hsame key
    cases hkey : isManaged key with
    | true =>
      obtain ⟨k, rfl⟩ := isManaged_iff.mp hkey
      exact (environmentValue_fields hfields hcustom k).trans (hsame k)
    | false =>
      have hnodup : ((([] : List (String × String)) ++ s.envVariables.map pair).map
          (·.1)).Nodup := by
        rw [List.nil_append, List.map_map]
        exact h.keys
      rw [variableAt_fields_of_not hfields hcustom hkey, hvars, holdable_filterCustom h,
        lookup_filterCustom _ hkey]
      change _ = (setEntries [] (s.envVariables.map pair)).lookup key
      rw [setEntries_of_nodup hnodup, List.nil_append]

end Variables

/-! ## Saving -/

section Saving

variable {s s' : Server}

/-- The node port is never read from the row. -/
theorem nodePort_patched_opened
    (hp : Patched s (opened s (environmentValue s.envVariables)) s') : s'.nodePort = none := by
  have hread := hp.nodePort.1
  rw [show (opened s (environmentValue s.envVariables)).nodePort = none from rfl, truthy_none,
    Option.bind_none, ite_self] at hread
  cases hnode : s'.nodePort with
  | none => rfl
  | some n => simp [hnode] at hread

/-- The type, the version and the jar file of a row that is sent as it stands. -/
theorem type_of_managedValue {f : ServerFormData}
    (hf : f = opened s (environmentValue s.envVariables))
    (hfields : toCommonServerRequestFields f = some fields)
    (hvalues : ∀ k, managedValue f k = environmentValue s.envVariables k)
    (hjar : f.type.jarType = s.jarType)
    (hcolumn : (if f.type = .custom then s.minecraftVersion
      else (truthy f.version).getD "LATEST") = s.minecraftVersion) :
    ∃ t : ServerType, environmentValue s.envVariables .type = some t.name ∧
      t.jarType = s.jarType ∧
      if t = .custom then environmentValue s.envVariables .version = some "" ∧
        truthy (environmentValue s.envVariables .customServer) ≠ none
      else environmentValue s.envVariables .version = some s.minecraftVersion ∧
        environmentValue s.envVariables .customServer = none := by
  have hversion := hvalues .version
  have hserver := hvalues .customServer
  simp only [managedValue] at hversion hserver
  refine ⟨f.type, (hvalues .type).symm, hjar, ?_⟩
  split_ifs at hversion hserver hcolumn ⊢ with hcustom
  · obtain ⟨managed, hmanaged, -⟩ := exists_managed hfields
    rw [toManagedEnvironmentVariables] at hmanaged
    split_ifs at hmanaged with hthrow
    have hurl : truthy f.customJarUrl ≠ none := fun hnone => hthrow ⟨hcustom, hnone⟩
    obtain ⟨url, hsome⟩ := Option.ne_none_iff_exists'.mp hurl
    rw [← hversion, ← hserver, truthy_truthy]
    exact ⟨by rw [hsome]; rfl, hurl⟩
  · obtain ⟨v, hv⟩ := exists_version_opened s (environmentValue s.envVariables)
      (by rw [← hf]; exact hcustom)
    rw [← hf] at hv
    rw [hv] at hversion hcolumn
    rw [← hversion, ← hserver, ← hcolumn]
    exact ⟨rfl, rfl⟩

theorem reopens_of_unchanged (h : FormRow s)
    (hpatch : patchServer s (opened s (environmentValue s.envVariables)) = some s')
    (hsame : Unchanged s s') : Reopens s := by
  have hs := patched_of_patchServer hpatch
  obtain ⟨fields, hfields, henv⟩ := hs.environment
  have hvalues := (environment_unchanged_iff h hfields rfl).mp (henv ▸ hsame.environment)
  have hnode : s'.nodePort = s.nodePort := by
    simpa using congrArg Server.nodePort hsame.columns
  have hjar : s'.jarType = s.jarType := by
    simpa using congrArg Server.jarType hsame.columns
  have hminecraft : s'.minecraftVersion = s.minecraftVersion := by
    simpa using congrArg Server.minecraftVersion hsame.columns
  refine {
    nodePort := ?node
    forgotten := fun k hk => ?forgotten
    flags := fun k hk => ?flags
    switches := fun k hk => ?switches
    texts := fun k hk => ?texts
    type := ?type }
  case forgotten =>
    rw [← hvalues k, managedValue_forgotten _ _ k hk]
  case flags =>
    have hk := managedValue_flags s (environmentValue s.envVariables) k hk
    rw [hvalues k] at hk
    rw [hk]
    cases environmentValue s.envVariables k == some "true"
    · exact .inl rfl
    · exact .inr rfl
  case switches =>
    have hbool : ∀ b : Bool,
        some (toString b) = some "true" ∨ some (toString b) = some "false" := by decide
    rw [← hvalues k]
    rcases managedValue_switches s (environmentValue s.envVariables) k hk with hk | hk
    · rw [hk]
      exact hbool _
    · rw [hk]
      exact hbool _
  case texts =>
    obtain ⟨u, hu, hk⟩ := managedValue_texts s (environmentValue s.envVariables) k hk
    rw [hvalues k] at hk
    rw [hk, truthy_some, nonBlank_of_ne (getD_truthy_ne hu)]
    exact Option.some_ne_none _
  case node => rw [← hnode, nodePort_patched_opened hs]
  case type =>
    exact type_of_managedValue rfl hfields hvalues (hs.jarType.symm.trans hjar)
      (hs.minecraftVersion.symm.trans hminecraft)

theorem fitsInt4_of_range {n : Int} (h : 0 ≤ n) (h' : n ≤ 2147483647) :
    Backend.fitsInt4 n = true := by
  have hlow : -2147483648 ≤ n := by omega
  rw [Backend.fitsInt4, decide_eq_true hlow, decide_eq_true h']
  rfl

theorem exists_patchServer {f : ServerFormData} {fields : CommonServerRequestFields}
    {listenPort memory request players : Int}
    (hfields : toCommonServerRequestFields f = some fields)
    (hparse : fields.parse = some (listenPort,
      fields.options none (some memory) (some request) (some players)))
    (hport : 1 ≤ listenPort ∧ listenPort ≤ 65535) (hmemory : 256 ≤ memory ∧ memory ≤ 2147483647)
    (hrequest : 256 ≤ request ∧ request ≤ 2147483647) (hplayers : 1 ≤ players ∧ players ≤ 1000)
    (hkeys : (fields.envVariables.map (·.key)).Nodup)
    (hne : ∀ v ∈ fields.envVariables, v.key ≠ "") :
    ∃ s', patchServer s f = some s' := by
  have henv : Backend.envAccepted fields.envVariables = true :=
    List.all_eq_true.mpr fun v hv => decide_eq_true (hne v hv)
  simp only [patchServer, hfields, hparse, Option.bind_eq_bind, Option.bind_some]
  rw [if_pos]
  · exact ⟨_, rfl⟩
  · simp only [Backend.UpdateServerInput.accepted, Backend.ServerOptions.accepted,
      CommonServerRequestFields.options, Server.storable, Server.update, Backend.portAccepted,
      Backend.nodePortAccepted, henv, Option.all_some, Option.all_none, Option.getD_some,
      Bool.and_eq_true, decide_eq_true_eq]
    refine ⟨⟨hport, ⟨⟨⟨trivial, trivial⟩, hmemory.1⟩, hrequest.1⟩, hplayers⟩,
      ⟨⟨⟨⟨?_, ?_⟩, ?_⟩, ?_⟩, trivial⟩, hkeys⟩
    all_goals exact fitsInt4_of_range (by omega) (by omega)

theorem toString_ne_empty {n : Int} (h : 0 ≤ n) : toString n ≠ "" := by
  obtain ⟨k, rfl⟩ := Int.eq_ofNat_of_zero_le h
  have htext : toString (k : Int) = toString k := rfl
  rw [htext, Nat.toString_eq_repr]
  exact Nat.repr_ne_empty

theorem numberOf_toString_int {n : Int} (h : 0 ≤ n) (hn : n < 2 ^ 53) :
    numberOf (toString n) = some (n : ℚ) := by
  obtain ⟨k, rfl⟩ := Int.eq_ofNat_of_zero_le h
  have htext : toString (k : Int) = toString k := rfl
  rw [htext, numberOf_toString (by exact_mod_cast hn)]
  exact congrArg some (Int.cast_natCast k).symm

/-! ### A row that reopens -/

theorem nonBlank_getD_truthy (t : Option String) : nonBlank ((truthy t).getD "") = truthy t := by
  cases ht : truthy t with
  | none => rfl
  | some u => exact nonBlank_of_ne (truthy_eq_some.mp ht).2

theorem type_opened {t : ServerType} {environment : ManagedKey → Option String}
    (h : environment .type = some t.name) : (opened s environment).type = t := by
  change normalizeServerType ((truthy (environment .type)).getD _) = t
  rw [h, truthy_some, nonBlank_of_ne t.name_ne, Option.getD_some, normalizeServerType_name]

theorem customJarUrl_opened (environment : ManagedKey → Option String) :
    truthy (opened s environment).customJarUrl = truthy (environment .customServer) := by
  change nonBlank ((truthy (truthy (environment .customServer))).getD "") = _
  rw [truthy_truthy, nonBlank_getD_truthy]

theorem version_opened {v : String} {environment : ManagedKey → Option String}
    (hcustom : (opened s environment).type ≠ .custom) (h : environment .version = some v)
    (hv : v ≠ "") : truthy (opened s environment).version = some v := by
  have htype : (initialData s environment).type ≠ .custom := hcustom
  change nonBlank (if (initialData s environment).type = .custom then ""
    else (truthy (some ((truthy (environment .version)).getD s.minecraftVersion))).getD
      "LATEST") = _
  have hread : truthy (some v) = some v := nonBlank_of_ne hv
  rw [if_neg htype, h, hread, Option.getD_some, hread, Option.getD_some, nonBlank_of_ne hv]

/-- Every managed value is the one that stands in the row. -/
theorem managedValue_of_reopens (h : FormRow s) (hs : Reopens s) (k : ManagedKey) :
    managedValue (opened s (environmentValue s.envVariables)) k =
      environmentValue s.envVariables k := by
  obtain ⟨t, hname, -, htype⟩ := hs.type
  have hform := type_opened (s := s) hname
  rcases k.cases_lists with hk | hk | hk | hk | rfl | rfl | rfl
  · rw [managedValue_forgotten _ _ k hk, hs.forgotten k hk]
  · rw [managedValue_flags _ _ k hk]
    rcases hs.flags k hk with he | he <;> rw [he] <;> rfl
  · rcases managedValue_switches s (environmentValue s.envVariables) k hk with hv | hv <;>
      rw [hv] <;> rcases hs.switches k hk with he | he <;> rw [he] <;> decide
  · obtain ⟨u, -, hv⟩ := managedValue_texts s (environmentValue s.envVariables) k hk
    obtain ⟨v, he⟩ := Option.ne_none_iff_exists'.mp (hs.texts k hk)
    rw [hv, he, (truthy_eq_some.mp he).1, Option.getD_some]
  · rw [hname, ← hform]
    rfl
  · rw [managedValue, hform]
    split_ifs at htype ⊢ with hcustom
    · obtain ⟨u, hu⟩ := Option.ne_none_iff_exists'.mp htype.2
      rw [customJarUrl_opened, hu, htype.1]
      rfl
    · rw [version_opened (hform ▸ hcustom) htype.1 h.minecraftVersion, htype.1]
  · rw [managedValue, hform]
    split_ifs at htype ⊢ with hcustom
    · obtain ⟨u, hu⟩ := Option.ne_none_iff_exists'.mp htype.2
      rw [customJarUrl_opened, hu, (truthy_eq_some.mp hu).1]
    · rw [htype.2]

theorem exists_managed_of_reopens (hs : Reopens s) : ∃ managed,
    toManagedEnvironmentVariables (opened s (environmentValue s.envVariables)) = some managed := by
  obtain ⟨t, hname, -, htype⟩ := hs.type
  refine ⟨_, if_neg ?_⟩
  rintro ⟨hcustom, hnone⟩
  rw [type_opened hname] at hcustom
  rw [if_pos hcustom] at htype
  exact htype.2 ((customJarUrl_opened _).symm.trans hnone)

theorem texts_opened (h : FormRow s) (hs : Reopens s) {f : ServerFormData}
    (hf : f = opened s (environmentValue s.envVariables)) :
    f.listenPort = toString s.listenPort ∧ f.memoryLimit = toString s.memory ∧
      f.memoryRequest = toString s.memoryRequest ∧ f.maxPlayers = toString s.maxPlayers := by
  have hread : ∀ {n m : Int} {u : String}, 1 ≤ n →
      (nonBlank (toString (orNumber n m))).getD u = toString n := by
    intro n m u hn
    rw [orNumber_of_pos hn, getD_of_ne (toString_ne_empty (by omega))]
  have hplayers : environmentValue s.envVariables .maxPlayers = none :=
    hs.forgotten _ (by decide)
  have hmemory := h.memory.1
  have hrequest := h.memoryRequest.1
  subst hf
  refine ⟨hread h.listenPort.1, hread (by omega), ?_, ?_⟩
  · exact getD_of_ne (toString_ne_empty (by omega)) _
  · change (nonBlank ((truthy (environmentValue s.envVariables .maxPlayers)).getD _)).getD _ = _
    rw [hplayers]
    exact hread h.maxPlayers.1

theorem exists_patchServer_of_reopens (h : FormRow s) (hs : Reopens s) :
    ∃ s', patchServer s (opened s (environmentValue s.envVariables)) = some s' := by
  obtain ⟨managed, hmanaged⟩ := exists_managed_of_reopens hs
  obtain ⟨hport, hmemory, hrequest, hplayers⟩ := texts_opened h hs rfl
  have hcustom : CustomVariables (opened s (environmentValue s.envVariables)).envVars :=
    customVariables_filterCustom h
  have hfields : toCommonServerRequestFields (opened s (environmentValue s.envVariables)) =
      some (requestFields (opened s (environmentValue s.envVariables))
        (environmentOf managed (opened s (environmentValue s.envVariables)).envVars)) := by
    rw [toCommonServerRequestFields, hmanaged]
    rfl
  have hrow : 1 ≤ s.listenPort ∧ s.listenPort ≤ 65535 := h.listenPort
  have hnumber : ∀ {n : Int}, 1 ≤ n → n ≤ 2147483647 →
      numberOf (toString n) = some (n : ℚ) ∧
        (nonBlank (toString n)).map numberOf = some (some (n : ℚ)) := by
    intro n hn hle
    have hread := numberOf_toString_int (n := n) (by omega) (by omega)
    rw [nonBlank_of_ne (toString_ne_empty (by omega)), Option.map_some, hread]
    exact ⟨rfl, rfl⟩
  have hnode : (opened s (environmentValue s.envVariables)).nodePort = none := rfl
  have hmemoryRow := h.memory
  have hrequestRow := h.memoryRequest
  have hplayersRow := h.maxPlayers
  generalize opened s (environmentValue s.envVariables) = f at *
  generalize henvironment : environmentOf managed f.envVars = environment at *
  have hparse : (requestFields f environment).parse = some (s.listenPort,
      (requestFields f environment).options none (some s.memory) (some s.memoryRequest)
        (some s.maxPlayers)) := by
    refine parse_eq_some.mpr ⟨none, some _, some _, some _, ?_, ?_, ?_, ?_, ?_, rfl⟩
    · rw [requestFields, hport]
      exact (hnumber hrow.1 (by omega)).1
    · simp [requestFields, hnode]
    · rw [requestFields, hmemory]
      exact (hnumber (by omega) (by omega)).2
    · rw [requestFields, hrequest]
      exact (hnumber (by omega) (by omega)).2
    · rw [requestFields, hplayers]
      exact (hnumber (by omega) (by omega)).2
  exact exists_patchServer hfields hparse hrow hmemoryRow hrequestRow hplayersRow
    (nodup_keys_fields hfields hcustom) (key_ne_of_mem_fields hfields)

theorem description_reopened (h : FormRow s) :
    nonBlank (trim ((truthy s.description).getD "")) = s.description := by
  cases hd : s.description with
  | none => decide +kernel
  | some d =>
    obtain ⟨hne, htrim⟩ := h.description d hd
    rw [truthy_some, nonBlank_of_ne hne, Option.getD_some, htrim, nonBlank_of_ne hne]

/-- A text with a default comes back through both steps of the form. -/
theorem limit_reopened {c : Option String} {d : String} (hd : d ≠ "")
    (hc : ∃ t, c = some t ∧ t ≠ "") :
    (nonBlank ((nonBlank ((truthy c).getD d)).getD d)).or c = c := by
  obtain ⟨u, rfl, hne⟩ := hc
  rw [nonBlank_default _ hd, truthy_some, getD_of_ne hne]
  rfl

theorem columns_of_reopens (h : FormRow s) (hs : Reopens s)
    (hp : Patched s (opened s (environmentValue s.envVariables)) s') :
    { s' with envVariables := s.envVariables } = s := by
  obtain ⟨hport, hmemory, hrequest, hplayers⟩ := texts_opened h hs rfl
  obtain ⟨t, hname, hjar, htype⟩ := hs.type
  have hform := type_opened (s := s) hname
  have hnone : ∀ k ∈ ManagedKey.forgotten, environmentValue s.envVariables k = none := hs.forgotten
  have hnumber : ∀ {n m : Int}, 0 ≤ n → n ≤ 2147483647 → numberOf (toString n) = some (m : ℚ) →
      m = n := by
    intro n m hn hle hread
    rw [numberOf_toString_int hn (by omega)] at hread
    exact_mod_cast (Option.some.inj hread).symm
  have hportRow := h.listenPort
  have hmemoryRow := h.memory
  have hrequestRow := h.memoryRequest
  have hplayersRow := h.maxPlayers
  obtain ⟨hid, hkind, hkey, hrunning, hplugins⟩ := hp.others
  refine Backend.Server.ext hid hkind ?description ?port ?memory ?request ?cpuRequest ?cpuLimit
    hp.serviceType ?node rfl hplugins hkey hrunning ?jar ?version ?jvm ?aikar ?meowice ?difficulty
    ?mode ?players ?pvp ?online ?motd ?seed ?level
  case description => exact hp.description.trans (description_reopened h)
  case port => exact hnumber (by omega) (by omega) (hport ▸ hp.listenPort.1)
  case memory =>
    have hread := (hp.memory (hmemory ▸ toString_ne_empty (by omega))).1
    exact hnumber (by omega) (by omega) (hmemory ▸ hread)
  case request =>
    have hread := (hp.memoryRequest (hrequest ▸ toString_ne_empty (by omega))).1
    exact hnumber (by omega) (by omega) (hrequest ▸ hread)
  case players =>
    have hread := (hp.maxPlayers (hplayers ▸ toString_ne_empty (by omega))).1
    exact hnumber (by omega) (by omega) (hplayers ▸ hread)
  case cpuRequest => exact hp.cpuRequest.trans (limit_reopened (by decide) h.cpuRequest)
  case cpuLimit => exact hp.cpuLimit.trans (limit_reopened (by decide) h.cpuLimit)
  case node => rw [nodePort_patched_opened hp, hs.nodePort]
  case jar => rw [hp.jarType, hform, hjar]
  case version =>
    refine hp.minecraftVersion.trans ?_
    rw [hform]
    split_ifs at htype ⊢ with hcustom
    · rfl
    · rw [version_opened (hform ▸ hcustom) htype.1 h.minecraftVersion, Option.getD_some]
  case jvm => exact hp.jvmOpts
  case aikar =>
    refine hp.useAikarFlags.trans ?_
    change ((environmentValue s.envVariables .useAikarFlags == some "true" || s.useAikarFlags) ||
      s.useAikarFlags) = s.useAikarFlags
    rw [hnone .useAikarFlags (by decide)]
    cases s.useAikarFlags <;> rfl
  case meowice =>
    refine hp.useMeowiceFlags.trans ?_
    change ((environmentValue s.envVariables .useMeowiceFlags == some "true" ||
      s.useMeowiceFlags) || s.useMeowiceFlags) = s.useMeowiceFlags
    rw [hnone .useMeowiceFlags (by decide)]
    cases s.useMeowiceFlags <;> rfl
  case difficulty =>
    refine hp.difficulty.trans ?_
    change normalizeDifficulty ((truthy (environmentValue s.envVariables .difficulty)).getD _) = _
    rw [hnone .difficulty (by decide)]
    exact normalizeDifficulty_name _
  case mode =>
    refine hp.gameMode.trans ?_
    change normalizeMode ((truthy (environmentValue s.envVariables .mode)).getD _) = _
    rw [hnone .mode (by decide)]
    exact normalizeMode_name _
  case pvp =>
    refine hp.pvp.trans ?_
    change (truthy (environmentValue s.envVariables .pvp)).elim _ _ = _
    rw [hnone .pvp (by decide)]
    rfl
  case online =>
    refine hp.onlineMode.trans ?_
    change (truthy (environmentValue s.envVariables .onlineMode)).elim _ _ = _
    rw [hnone .onlineMode (by decide)]
    rfl
  case motd => exact hp.motd
  case seed => exact hp.levelSeed
  case level => exact hp.levelType

theorem unchanged_of_reopens (h : FormRow s) (hs : Reopens s) :
    ∃ s', patchServer s (opened s (environmentValue s.envVariables)) = some s' ∧
      Unchanged s s' := by
  obtain ⟨s', hpatch⟩ := exists_patchServer_of_reopens h hs
  have hp := patched_of_patchServer hpatch
  obtain ⟨fields, hfields, henv⟩ := hp.environment
  refine ⟨s', hpatch, columns_of_reopens h hs hp, ?_⟩
  rw [henv]
  exact (environment_unchanged_iff h hfields rfl).mpr (managedValue_of_reopens h hs)

/-- Saving a server of the create page as it is opened changes nothing just if it reopens. -/
theorem createPage_reopens_iff {d : ServerFormData} {token : String}
    (h : createPage d token = some s) :
    (∃ s', patchServer s (serverForm (toInitialServerFormData s)) = some s' ∧ Unchanged s s') ↔
      Reopens s := by
  rw [createPage] at h
  split_ifs at h
  have hrow := formRow_createServer h
  constructor
  · rintro ⟨s', hpatch, hsame⟩
    exact reopens_of_unchanged hrow hpatch hsame
  · exact unchanged_of_reopens hrow

end Saving

/-- A server with a whitelist. -/
def whitelistForm : ServerFormData :=
  { survivalForm with enableWhitelist := true, whitelist := some "alice,bob" }

def whitelistServer : Server := (createPage whitelistForm "key").getD survivalRow

theorem createPage_whitelistForm : createPage whitelistForm "key" = some whitelistServer := by
  decide +kernel

/-- The players on the whitelist are gone once the server is opened and saved. -/
theorem whitelist_lost : createPage whitelistForm "key" = some whitelistServer ∧
    ¬∃ s', patchServer whitelistServer (serverForm (toInitialServerFormData whitelistServer)) =
      some s' ∧ Unchanged whitelistServer s' := by
  have hcreate : createServer whitelistForm "key" = some whitelistServer := by
    rw [← createPage_whitelistForm]
    exact (if_pos (by decide +kernel)).symm
  refine ⟨createPage_whitelistForm, fun ⟨s', hpatch, hsame⟩ => ?_⟩
  have hnone := (reopens_of_unchanged (formRow_createServer hcreate) hpatch hsame).forgotten
    .whitelist (by decide)
  exact absurd hnone (by decide +kernel)

/-- A server with ports, a mode, a time zone and a variable of its own. -/
def hardcoreForm : ServerFormData := { survivalForm with
  listenPort := "25570"
  rconPort := "25580"
  hardcore := true
  timezone := "Europe/Berlin"
  envVars := [⟨"FORCE_REDSTONE", "true"⟩] }

def hardcoreServer : Server := (createPage hardcoreForm "key").getD survivalRow

theorem reopens_hardcoreServer : Reopens hardcoreServer := by
  constructor
  case type => exact ⟨.paper, by decide +kernel⟩
  all_goals decide +kernel

theorem createPage_hardcoreForm : ∃ s', createPage hardcoreForm "key" = some hardcoreServer ∧
    patchServer hardcoreServer (serverForm (toInitialServerFormData hardcoreServer)) = some s' ∧
      Unchanged hardcoreServer s' := by
  have hcreate : createPage hardcoreForm "key" = some hardcoreServer := by decide +kernel
  obtain ⟨s', hpatch, hsame⟩ := (createPage_reopens_iff hcreate).mpr reopens_hardcoreServer
  exact ⟨s', hcreate, hpatch, hsame⟩

end Minikura.Web
