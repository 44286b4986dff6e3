import Mathlib.Data.Set.Basic
import Minikura.Concurrency.Machine
import Minikura.Registry.Storage

/-!
# The plugin selection of the edit page

The form of a server asks for the plugins that are installed, and starts with none selected. A
submit takes the selection there is; when the server has been patched, the selection replaces
the plugins. Nobody else writes them meanwhile, and nobody touches the selector.

## Main definitions

* `EditPage.next` — the steps of the form, the submits and the requests.
* `EditPage.rows` — the installations of the server.

## Main results

* `reconcile_keeps`, `reconcile_nil` — a selection of what is installed keeps all rows as they
  are, and an empty one uninstalls them.
* `next_selected_iff` — only a submit before the list has arrived selects something else.
* `plugins_kept` — without one, the rows stay.
-/

namespace Minikura.Web

open Concurrency Registry

/-! ## Reconciling what is installed -/

/-- The selection has just the artifacts of the rows of a server. -/
def Selects (db : Database) (serverId : String) (artifactIds : List String) : Prop :=
  ∀ a, a ∈ artifactIds ↔ ∃ p ∈ db.plugins, p.serverId = serverId ∧ p.artifactId = a

/-- No code disables an installation. -/
def Enabled (db : Database) (serverId : String) : Prop :=
  ∀ p ∈ db.plugins, p.serverId = serverId → p.enabled = true

section Reconcile

variable {db : Database} {serverId : String} {artifactIds : List String}

theorem exec_deletePlugins_notIn (h : Selects db serverId artifactIds) :
    (Statement.deletePlugins (.notIn serverId artifactIds)).exec db = some db := by
  have hall : db.plugins.filter (!(PluginWhere.notIn serverId artifactIds).matches db ·) =
      db.plugins := by
    refine List.filter_eq_self.mpr fun p hp => ?_
    by_cases hserver : p.serverId = serverId
    · have hmem : p.artifactId ∈ artifactIds := (h _).mpr ⟨p, hp, hserver, rfl⟩
      simp [PluginWhere.matches, hmem]
    · simp [PluginWhere.matches, hserver]
  simp only [Statement.exec, hall]

theorem exec_upsertPlugin {id a : String} (henabled : Enabled db serverId)
    (h : ∃ p ∈ db.plugins, p.serverId = serverId ∧ p.artifactId = a) :
    (Statement.upsertPlugin id serverId a).exec db = some db := by
  have hany : (db.plugins.any fun p => p.serverId = serverId ∧ p.artifactId = a) = true := by
    simpa using h
  have hmap : (db.plugins.map fun p =>
      if p.serverId = serverId ∧ p.artifactId = a then { p with enabled := true } else p) =
      db.plugins := by
    refine (List.map_congr_left fun p hp => ?_).trans (List.map_id _)
    split_ifs with hplace
    · obtain ⟨i, s, b, e⟩ := p
      obtain rfl : e = true := henabled _ hp hplace.1
      rfl
    · rfl
  simp only [Statement.exec, hany, if_true, hmap]

theorem execAll_reconcile (ids : String → String) (h : Selects db serverId artifactIds)
    (henabled : Enabled db serverId) :
    execAll (.deletePlugins (.notIn serverId artifactIds) ::
      artifactIds.map fun a => .upsertPlugin (ids a) serverId a) db = some db := by
  have hupserts : ∀ rest : List String, (∀ a ∈ rest, a ∈ artifactIds) →
      execAll (rest.map fun a => .upsertPlugin (ids a) serverId a) db = some db := by
    intro rest hrest
    induction rest with
    | nil => rfl
    | cons a rest ih =>
      obtain ⟨ha, hrest⟩ := List.forall_mem_cons.mp hrest
      rw [List.map_cons, execAll, List.foldlM_cons, exec_upsertPlugin henabled ((h a).mp ha)]
      exact ih hrest
  rw [execAll, List.foldlM_cons, exec_deletePlugins_notIn h]
  exact hupserts artifactIds fun _ ha => ha

/-- A selection of what is installed keeps all rows as they are, whatever fails. -/
theorem reconcile_keeps (web : String → Option Bytes) (fates : Request → Fate)
    (ids : String → String) {s : State} (h : Selects s.db serverId artifactIds)
    (henabled : Enabled s.db serverId) :
    ((reconcile ids serverId artifactIds).eval (answer web fates) s).2 = s := by
  have hread : ∀ c, (perform web c s).2 = s → (answer web fates c s).2 = s := by
    intro c hc
    unfold answer
    cases fates c <;> simp [hc]
  have hunique : Selects s.db serverId artifactIds.eraseDups := by
    intro a
    rw [List.mem_eraseDups]
    exact h a
  have htransaction := hread (.transaction (.deletePlugins (.notIn serverId artifactIds.eraseDups)
    :: artifactIds.eraseDups.map fun a => .upsertPlugin (ids a) serverId a))
    (by simp only [perform, execAll_reconcile ids hunique henabled])
  simp only [reconcile, Async.eval_bind, eval_await]
  have hserver := hread (.findServer serverId) rfl
  rcases hx : answer web fates (.findServer serverId) s with ⟨_ | found, t⟩ <;> rw [hx] at hserver
  · exact hserver
  obtain rfl : t = s := hserver
  cases found with
  | false => rfl
  | true =>
    simp only [Bool.not_true, Bool.false_eq_true, if_false, Async.eval_bind, eval_await]
    have hartifacts := hread (.findArtifacts artifactIds.eraseDups) rfl
    rcases hx : answer web fates (.findArtifacts artifactIds.eraseDups) t with
      ⟨_ | artifacts, u⟩ <;> rw [hx] at hartifacts
    · exact hartifacts
    obtain rfl : u = t := hartifacts
    dsimp only
    split_ifs
    · rfl
    · exact htransaction

/-- An empty selection uninstalls everything, if no request fails. -/
theorem reconcile_nil (web : String → Option Bytes) (ids : String → String) {s : State}
    (hserver : serverId ∈ s.db.servers) : ∀ p ∈
      ((reconcile ids serverId []).eval (answer web fun _ => .answered) s).2.db.plugins,
      p.serverId ≠ serverId := by
  intro p hp
  simp [reconcile, answer, perform, hserver, execAll, Statement.exec,
    PluginWhere.matches] at hp
  exact hp.2

end Reconcile

/-! ## The page -/

/-- Where the request for the installed plugins has got to. -/
inductive PluginList where
  | requested
  | answered (plugins : List ServerPlugin)
  | received
  | failed

/-- A submit that is under way, with the selection it has taken. -/
structure Submit where
  artifactIds : List String
  patched : Bool := false

structure EditPage where
  serverId : String
  state : State
  pluginList : PluginList := .requested
  registryArtifactIds : List String := []
  error : Option String := none
  submits : List Submit := []

/-- `PluginRegistryService.list` -/
def listPlugins (db : Database) (serverId : String) : List ServerPlugin :=
  db.plugins.filter (·.serverId = serverId)

inductive EditLabel where
  /-- The service answers the request of the form. -/
  | list
  | receive
  | fail
  | submit
  /-- The response to the patch, with the error if there is one. -/
  | patch (i : ℕ) (error : Option String)
  | put (i : ℕ) (fates : Request → Fate)

namespace EditPage

variable (web : String → Option Bytes) (ids : String → String)

/-- The plugins are replaced, and with an error the page stays. -/
def putPlugins (x : EditPage) (i : ℕ) (fates : Request → Fate) (s : Submit) : EditPage :=
  let (result, state) := (reconcile ids x.serverId s.artifactIds).eval (answer web fates) x.state
  { x with
    state
    submits := x.submits.eraseIdx i
    error := match result with
      | .ok _ => x.error
      | .error _ => some "Server updated, but plugin deployment failed" }

def next (x : EditPage) : EditLabel → Option EditPage
  | .list =>
    match x.pluginList with
    | .requested => some { x with pluginList := .answered (listPlugins x.state.db x.serverId) }
    | _ => none
  | .receive =>
    match x.pluginList with
    | .answered plugins => some { x with
        pluginList := .received
        registryArtifactIds := plugins.map (·.artifactId) }
    | _ => none
  | .fail =>
    match x.pluginList with
    | .requested | .answered _ => some { x with
        pluginList := .failed
        error := some "Failed to load deployed registry plugins" }
    | _ => none
  | .submit => some { x with
      error := none
      submits := x.submits ++ [{ artifactIds := x.registryArtifactIds }] }
  | .patch i error =>
    match x.submits[i]?, error with
    | some ⟨artifactIds, false⟩, none => some { x with
        submits := x.submits.set i ⟨artifactIds, true⟩ }
    | some ⟨_, false⟩, some message => some { x with
        submits := x.submits.eraseIdx i
        error := some message }
    | _, _ => none
  | .put i fates =>
    match x.submits[i]? with
    | some ⟨artifactIds, true⟩ => some (x.putPlugins web ids i fates ⟨artifactIds, true⟩)
    | _ => none

/-- The installations of the server. -/
def rows (x : EditPage) : Set ServerPlugin :=
  {p | p ∈ x.state.db.plugins ∧ p.serverId = x.serverId}

end EditPage

/-- A submit waits for the list of plugins, unless there are none. -/
def Loaded (x : EditPage) : EditLabel → Prop
  | .submit => x.pluginList = .received ∨ x.rows = ∅
  | _ => True

/-! ## Invariants -/

namespace EditPage

def Selects (x : EditPage) (artifactIds : List String) : Prop :=
  Web.Selects x.state.db x.serverId artifactIds

structure Sound (x : EditPage) : Prop where
  enabled : Enabled x.state.db x.serverId
  answered : ∀ plugins, x.pluginList = .answered plugins →
    x.Selects (plugins.map (·.artifactId))
  received : x.pluginList = .received → x.Selects x.registryArtifactIds
  waiting : x.pluginList ≠ .received → x.registryArtifactIds = []

/-- What has been submitted is what is installed. -/
def Selected (x : EditPage) : Prop := ∀ s ∈ x.submits, x.Selects s.artifactIds

end EditPage

section Steps

variable {web : String → Option Bytes} {ids : String → String} {x y : EditPage} {l : EditLabel}

theorem selects_listPlugins (db : Database) (serverId : String) :
    Selects db serverId ((listPlugins db serverId).map (·.artifactId)) := by
  intro a
  simp only [listPlugins, List.mem_map, List.mem_filter, decide_eq_true_eq]
  constructor
  · rintro ⟨p, ⟨hp, hserver⟩, ha⟩
    exact ⟨p, hp, hserver, ha⟩
  · rintro ⟨p, hp, hserver, ha⟩
    exact ⟨p, ⟨hp, hserver⟩, ha⟩

theorem selects_nil_iff : x.Selects [] ↔ x.rows = ∅ := by
  rw [Set.eq_empty_iff_forall_notMem]
  constructor
  · rintro h p ⟨hp, hserver⟩
    simpa using (h p.artifactId).mpr ⟨p, hp, hserver, rfl⟩
  · intro h a
    simp only [List.not_mem_nil, false_iff, not_exists, not_and]
    exact fun p hp hserver => absurd ⟨hp, hserver⟩ (h p)

/-- The current selection is that of the rows just if the list has arrived or there are none. -/
theorem EditPage.Sound.selects_iff (hx : x.Sound) :
    x.Selects x.registryArtifactIds ↔ x.pluginList = .received ∨ x.rows = ∅ := by
  by_cases h : x.pluginList = .received
  · simp [h, hx.received h]
  · rw [hx.waiting h, selects_nil_iff]
    simp [h]

/-- While what is submitted is what is installed, no step changes the tables. -/
theorem next_state (hx : x.Sound) (hselected : x.Selected) (h : x.next web ids l = some y) :
    y.state = x.state ∧ y.serverId = x.serverId := by
  cases l <;> simp only [EditPage.next] at h
  case put i fates =>
    split at h
    · next artifactIds hi =>
      obtain rfl := Option.some.inj h
      exact ⟨reconcile_keeps web fates ids (hselected _ (List.mem_of_getElem? hi)) hx.enabled, rfl⟩
    · cases h
  all_goals
    try split at h
    all_goals cases h
    all_goals exact ⟨rfl, rfl⟩

theorem EditPage.Sound.congr (hx : x.Sound) (hstate : y.state = x.state)
    (hserver : y.serverId = x.serverId) (hlist : y.pluginList = x.pluginList)
    (hids : y.registryArtifactIds = x.registryArtifactIds) : y.Sound := by
  obtain ⟨serverId, state, pluginList, registryArtifactIds, _, _⟩ := y
  obtain ⟨henabled, hanswered, hreceived, hwaiting⟩ := hx
  cases hstate
  cases hserver
  cases hlist
  cases hids
  exact ⟨henabled, hanswered, hreceived, hwaiting⟩

theorem next_page_sound (hx : x.Sound) (hselected : x.Selected) (h : x.next web ids l = some y) :
    y.Sound := by
  obtain ⟨hstate, hserver⟩ := next_state hx hselected h
  cases l <;> simp only [EditPage.next] at h
  case list =>
    split at h
    · next hlist =>
      obtain rfl := Option.some.inj h
      refine ⟨hx.enabled, fun plugins hplugins => ?_, nofun, fun _ => hx.waiting (by simp [hlist])⟩
      obtain rfl := PluginList.answered.inj hplugins
      exact selects_listPlugins x.state.db x.serverId
    · cases h
  case receive =>
    split at h
    · next plugins hlist =>
      obtain rfl := Option.some.inj h
      exact ⟨hx.enabled, nofun, fun _ => hx.answered plugins hlist, fun hne => absurd rfl hne⟩
    · cases h
  case fail =>
    split at h
    · next hlist =>
      obtain rfl := Option.some.inj h
      exact ⟨hx.enabled, nofun, nofun, fun _ => hx.waiting (by simp [hlist])⟩
    · next hlist =>
      obtain rfl := Option.some.inj h
      exact ⟨hx.enabled, nofun, nofun, fun _ => hx.waiting (by simp [hlist])⟩
    · cases h
  all_goals
    try split at h
    all_goals cases h
    all_goals exact hx.congr hstate hserver rfl rfl

/-- A submit may be taken off the list, or its server patched. -/
theorem selected_of_eraseIdx {i : ℕ} (hselected : x.Selected) (hstate : y.state = x.state)
    (hserver : y.serverId = x.serverId) (hsubmits : y.submits = x.submits.eraseIdx i) :
    y.Selected := by
  intro s hs
  rw [hsubmits] at hs
  rw [EditPage.Selects, hstate, hserver]
  exact hselected s (List.mem_of_mem_eraseIdx hs)

/-- Only a submit before the list has arrived takes something else. -/
theorem next_selected_iff (hx : x.Sound) (hselected : x.Selected)
    (h : x.next web ids l = some y) : y.Selected ↔ Loaded x l := by
  obtain ⟨hstate, hserver⟩ := next_state hx hselected h
  cases l <;> simp only [EditPage.next] at h
  case submit =>
    obtain rfl := Option.some.inj h
    have hlast : EditPage.Selected { x with
        error := none, submits := x.submits ++ [{ artifactIds := x.registryArtifactIds }] } ↔
        x.Selects x.registryArtifactIds := by
      simp only [EditPage.Selected, List.forall_mem_append, List.forall_mem_singleton]
      exact ⟨fun h => h.2, fun h => ⟨hselected, h⟩⟩
    exact hlast.trans hx.selects_iff
  case patch i error =>
    refine ⟨fun _ => trivial, fun _ => ?_⟩
    split at h
    · next artifactIds hi _ =>
      obtain rfl := Option.some.inj h
      intro s hs
      rcases List.mem_or_eq_of_mem_set hs with hs | rfl
      · exact hselected s hs
      · exact hselected ⟨artifactIds, false⟩ (List.mem_of_getElem? hi)
    · obtain rfl := Option.some.inj h
      exact selected_of_eraseIdx hselected hstate hserver rfl
    · cases h
  case put i fates =>
    refine ⟨fun _ => trivial, fun _ => ?_⟩
    split at h
    · obtain rfl := Option.some.inj h
      exact selected_of_eraseIdx hselected hstate hserver rfl
    · cases h
  all_goals
    refine ⟨fun _ => trivial, fun _ => ?_⟩
    split at h
    all_goals cases h
    all_goals exact hselected

end Steps

/-! ## Runs -/

/-- A page that has just been opened. -/
structure EditPage.Opened (x : EditPage) : Prop where
  pluginList : x.pluginList = .requested
  registryArtifactIds : x.registryArtifactIds = []
  submits : x.submits = []
  enabled : Enabled x.state.db x.serverId

/-- If every submit waits for the list of plugins, the server keeps its installations. -/
theorem plugins_kept (web : String → Option Bytes) (ids : String → String) {x y : EditPage}
    (hx : x.Opened) (h : Runs (EditPage.next web ids) Loaded x y) : y.rows = x.rows := by
  have hinv : y.Sound ∧ y.Selected ∧ y.state = x.state ∧ y.serverId = x.serverId := h.invariant
    (I := fun y => y.Sound ∧ y.Selected ∧ y.state = x.state ∧ y.serverId = x.serverId)
    (fun _ _ _ hs hl ht => by
      obtain ⟨hsound, hselected, hstate, hserver⟩ := hs
      obtain ⟨hstate', hserver'⟩ := next_state hsound hselected ht
      exact ⟨next_page_sound hsound hselected ht, (next_selected_iff hsound hselected ht).mpr hl,
        hstate'.trans hstate, hserver'.trans hserver⟩)
    ⟨⟨hx.enabled, by simp [hx.pluginList], by simp [hx.pluginList],
      fun _ => hx.registryArtifactIds⟩, by simp [EditPage.Selected, hx.submits], rfl, rfl⟩
  obtain ⟨-, -, hstate, hserver⟩ := hinv
  rw [EditPage.rows, EditPage.rows, hstate, hserver]

def loaded (x : EditPage) : EditLabel → Bool
  | .submit =>
    match x.pluginList with
    | .received => true
    | _ => false
  | _ => true

theorem loaded_sound (x : EditPage) (l : EditLabel) (h : loaded x l) : Loaded x l := by
  cases l with
  | submit =>
    cases hlist : x.pluginList with
    | received => exact .inl hlist
    | _ => simp [loaded, hlist] at h
  | _ => trivial

def chatPlugin : PluginArtifact where
  id := "chat"
  provider := .modrinth
  providerProjectId := "project"
  providerVersionId := "version"
  name := "Chat"
  version := "1.0"
  platform := "SERVER"
  minecraftVersions := []
  filename := "chat.jar"
  size := 1
  sha256 := "hash"
  downloadToken := "token"

/-- The page of a server with one plugin. -/
def lobbyPage : EditPage where
  serverId := "lobby"
  state := { db := {
    servers := ["lobby"], artifacts := [chatPlugin], plugins := [⟨"p", "lobby", "chat", true⟩] } }

def saved : List EditLabel := [.submit, .patch 0 none, .put 0 fun _ => .answered]

theorem plugins_kept_lobbyPage : ∃ y : EditPage, y.registryArtifactIds = ["chat"] ∧
    y.submits.length = 0 ∧ y.error = none ∧ y.rows = lobbyPage.rows := by
  obtain ⟨y, hrun, hids, hsubmits, herror⟩ : ∃ y : EditPage,
      runChecked loaded (EditPage.next (fun _ => none) id) lobbyPage (.list :: .receive :: saved) =
        some y ∧
      y.registryArtifactIds = ["chat"] ∧ y.submits.length = 0 ∧ y.error = none :=
    ⟨_, rfl, rfl, rfl, rfl⟩
  exact ⟨y, hids, hsubmits, herror, plugins_kept (fun _ => none) id
    ⟨rfl, rfl, rfl, by simp [Enabled, lobbyPage]⟩ (runs_of_checked loaded_sound hrun)⟩

/-- A submit that comes before the list uninstalls the plugin. -/
theorem plugins_lost : ¬ ∀ y : EditPage,
    Runs (EditPage.next (fun _ => none) id) Anything lobbyPage y → y.rows = lobbyPage.rows := by
  intro h
  obtain ⟨y, hrun, hplugins⟩ : ∃ y : EditPage,
      runLabels (EditPage.next (fun _ => none) id) lobbyPage saved = some y ∧
      y.state.db.plugins = [] := ⟨_, rfl, rfl⟩
  have hrows := h y (runs_of_labels (fun _ _ _ => trivial) hrun)
  have hmem : ⟨"p", "lobby", "chat", true⟩ ∈ lobbyPage.rows := ⟨List.mem_singleton_self _, rfl⟩
  rw [← hrows, EditPage.rows, hplugins] at hmem
  exact List.not_mem_nil hmem.1

end Minikura.Web
