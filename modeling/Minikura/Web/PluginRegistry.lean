import Minikura.Concurrency.Machine
import Minikura.Registry.Catalog

/-!
# The page of the plugin registry

A project is picked from the catalog, its releases are fetched, and one of them is stored: the
release comes from the list that is shown, and the name, the author and the icon come from the
project that is picked. Neither the projects nor the way back to them wait for the releases, and
the list of the project before stays until there is a new one.

## Main definitions

* `Page`, `System.next` — the page, its handlers and the requests on their way.
* `Import` — what is stored, with the project it is a release of.
* `System.Answers`, `System.Careful` — what the backend answers, and one thing after another.

## Main results

* `isReleaseOf_of_offered` — the backend answers with releases of the project it is asked about.
* `stored_metadata` — what is stored has the metadata of its own project if and only if the list
  that was shown is one of the project that was picked, and that is so when one thing is done
  after another.
-/

namespace Minikura.Web.Plugins
open Concurrency Registry

/-! ## Releases -/

/-- The page only looks for Paper. -/
def platform : String := "PAPER"

/-- The releases are those of a project, as far as the registry tells projects apart. -/
def IsReleaseOf (version : RegistryVersion) (project : RegistryProject) : Prop :=
  version.provider = project.provider ∧ version.projectId = project.projectId

def sameProject (p q : RegistryProject) : Prop :=
  p.provider = q.provider ∧ p.projectId = q.projectId

instance (p q : RegistryProject) : Decidable (sameProject p q) :=
  inferInstanceAs (Decidable (_ ∧ _))

/-- Whatever the requests of a program are answered. -/
def whatever : Handler CatalogRequest (Settled Error CatalogAnswer) Unit := fun _ _ _ _ => True

/-- `GET /registry/versions` may answer with this. -/
def Offered (project : RegistryProject) (found : List RegistryVersion) : Prop :=
  Steps whatever Quiet
    ((Registry.versions project.provider project.projectId platform none).run, ())
    (.pure (.ok found), ())

theorem offer_modrinth {projectId : String} {version : ModrinthVersion} {v : RegistryVersion}
    (h : v ∈ version.offer projectId platform) :
    v.provider = .modrinth ∧ v.projectId = projectId := by
  unfold ModrinthVersion.offer at h
  split at h
  · cases h
  · obtain rfl := List.mem_singleton.mp h
    exact ⟨rfl, rfl⟩

theorem offer_hangar {projectId : String} {version : HangarVersion} {v : RegistryVersion}
    (h : v ∈ version.offer projectId platform) :
    v.provider = .hangar ∧ v.projectId = projectId := by
  unfold HangarVersion.offer at h
  split at h
  · cases h
  · split at h
    · cases h
    · obtain rfl := List.mem_singleton.mp h
      exact ⟨rfl, rfl⟩

abbrev unbounded : Contract CatalogRequest Unit := .alone fun _ _ _ => True

theorem wp_whatever {α : Type} {p : Prog CatalogRequest (Settled Error CatalogAnswer) α}
    {Q : α → Unit → Prop} (h : ∀ a s, Q a s) : wp whatever unbounded p Q () :=
  wp_mono (wp_of_only (I := fun _ => True) p.only_true trivial (fun _ _ _ _ => trivial)
    fun _ _ _ _ _ _ _ => ⟨trivial, trivial⟩) fun a s _ => h a s

/-- A program that goes on with whatever an earlier one returns. -/
theorem wp_whatever_bind {α β : Type} {p : CatalogTask α} {f : α → CatalogTask β}
    {P : β → Prop} (h : ∀ a, wp whatever unbounded (f a).run (fun r _ => ∀ b, r = .ok b → P b) ()) :
    wp whatever unbounded (p >>= f).run (fun r _ => ∀ b, r = .ok b → P b) () := by
  refine wp_async_bind (wp_whatever fun r _ => ?_)
  cases r with
  | error e =>
    intro _ _ b hb
    cases hb
  | ok a => exact h a

theorem isReleaseOf_of_offered {project : RegistryProject} {found : List RegistryVersion}
    (hprovider : project.provider ≠ .upload) (h : Offered project found) :
    ∀ v ∈ found, IsReleaseOf v project := by
  have hwp : wp whatever unbounded
      (Registry.versions project.provider project.projectId platform none).run
      (fun r _ => ∀ found, r = .ok found → ∀ v ∈ found, IsReleaseOf v project) () := by
    unfold Registry.versions
    split_ifs with hmodrinth
    · refine wp_whatever_bind fun answer => ?_
      rintro _ - _ ⟨⟩ v hv
      obtain ⟨version, -, hoffer⟩ := List.mem_flatMap.mp hv
      obtain ⟨hv', hid⟩ := offer_modrinth hoffer
      exact ⟨hv'.trans hmodrinth.symm, hid⟩
    · have hhangar : project.provider = .hangar := by
        cases hp : project.provider <;> simp_all
      split
      · intro _ _ found hfound
        cases hfound
      · refine wp_whatever_bind fun answer => ?_
        rintro _ - _ ⟨⟩ v hv
        obtain ⟨version, -, hoffer⟩ := List.mem_flatMap.mp hv
        obtain ⟨hv', hid⟩ := offer_hangar hoffer
        exact ⟨hv'.trans hhangar.symm, hid⟩
  exact wp_result hwp (fun _ _ h => h.elim) h found rfl

/-! ## The catalog -/

/-- `GET /registry/search` may answer with this. -/
def Found (query : String) (found : List RegistryProject) : Prop :=
  Steps whatever Quiet ((Registry.search query platform none).run, ()) (.pure (.ok found), ())

theorem provider_of_found {query : String} {found : List RegistryProject}
    (h : Found query found) : ∀ p ∈ found, p.provider ≠ .upload := by
  have hwp : wp whatever unbounded (Registry.search query platform none).run
      (fun r _ => ∀ found, r = .ok found → ∀ p ∈ found, p.provider ≠ .upload) () := by
    unfold Registry.search
    refine wp_whatever_bind fun answers => ?_
    rintro _ - _ ⟨⟩ p hp
    have hmem := (byDownloads_sorted _).1.mem_iff.mp hp
    rcases List.mem_append.mp hmem with hmem | hmem
    · obtain ⟨hit, -, rfl⟩ := List.mem_map.mp hmem
      exact PluginProvider.noConfusion
    · obtain ⟨hit, -, rfl⟩ := List.mem_map.mp hmem
      exact PluginProvider.noConfusion
  exact wp_result hwp (fun _ _ h => h.elim) h found rfl

/-! ## The page -/

abbrev Artifact := PluginArtifact × List String

structure Page where
  query : String := ""
  projects : List RegistryProject := []
  versions : List RegistryVersion := []
  selectedProject : Option RegistryProject := none
  artifacts : List Artifact := []
  busy : Bool := false
  error : Option String := none
  deleteTarget : Option Artifact := none

namespace Page

/-- What every handler does before its request. -/
def started (page : Page) : Page := { page with busy := true, error := none }

/-- The `catch` and the `finally` block of a handler. -/
def failed (page : Page) (message : String) : Page :=
  { page with error := some message, busy := false }

end Page

/-- The body of `POST /registry/artifacts`. -/
def importBody (version : RegistryVersion) (project : RegistryProject) : RegistryVersion :=
  { version with
    projectName := some project.name
    description := some project.description
    author := some project.author
    iconUrl := some project.iconUrl
    projectUrl := some project.projectUrl
    categories := some project.categories
    updatedAt := some project.updatedAt }

/-- A request on its way, and what waits for it. -/
inductive Pending where
  /-- The list of artifacts when the page is opened. -/
  | opened
  /-- The top plugins, when there are no projects. -/
  | top
  | search (query : String)
  | versions (project : RegistryProject)
  | store (body : RegistryVersion)
  | upload (file : File)
  | delete (artifactId : String)
  /-- `loadArtifacts` -/
  | reload

/-- What waits for the response sets `busy` to `false` in the end. -/
def Pending.handled : Pending → Bool
  | .opened => false
  | .top => false
  | _ => true

inductive Response where
  | projects (found : List RegistryProject)
  | versions (found : List RegistryVersion)
  | artifacts (found : List Artifact)
  | done
  | failed (message : String)

/-- A release that was stored, the project that was picked, and the one whose releases were
shown. -/
structure Import where
  version : RegistryVersion
  project : RegistryProject
  shown : Option RegistryProject

/-- The part from `shown` on only records what has happened. -/
structure System where
  page : Page := {}
  pending : List Pending := [.opened, .top]
  /-- The project of the releases on the page. -/
  shown : Option RegistryProject := none
  imports : List Import := []

inductive Label where
  | type (query : String)
  /-- The button, or the Enter key. -/
  | search
  | selectProject (index : ℕ)
  | back
  | store (index : ℕ)
  | upload (file : Option File)
  | askDelete (index : ℕ)
  | cancelDelete
  | deleteArtifact
  | receive (index : ℕ) (response : Response)

namespace System

/-- `setProjects`, and the effect that asks for the top plugins when their number has become
zero. -/
def setProjects (x : System) (found : List RegistryProject) : System :=
  { x with
    page := { x.page with projects := found }
    pending := if found = [] ∧ x.page.projects ≠ [] then x.pending ++ [.top] else x.pending }

/-- A response to a request that is not on its way any more. -/
def respond (x : System) : Pending → Response → Option System
  | .opened, .artifacts found => some { x with page := { x.page with artifacts := found } }
  | .opened, .failed message => some { x with page := { x.page with error := some message } }
  | .top, .projects found => some (x.setProjects found)
  | .top, .failed message => some { x with page := { x.page with error := some message } }
  | .search _, .projects found =>
    some (setProjects { x with page := { x.page with busy := false } } found)
  | .versions project, .versions found => some { x with
      page := { x.page with versions := found, busy := false }
      shown := some project }
  | .store _, .done => some { x with pending := x.pending ++ [.reload] }
  | .upload _, .done => some { x with pending := x.pending ++ [.reload] }
  | .delete _, .done => some { x with
      page := { x.page with deleteTarget := none }
      pending := x.pending ++ [.reload] }
  | .reload, .artifacts found =>
    some { x with page := { x.page with artifacts := found, busy := false } }
  | .search _, .failed message => some { x with page := x.page.failed message }
  | .versions _, .failed message => some { x with page := x.page.failed message }
  | .store _, .failed message => some { x with page := x.page.failed message }
  | .upload _, .failed message => some { x with page := x.page.failed message }
  | .delete _, .failed message => some { x with page := x.page.failed message }
  | .reload, .failed message => some { x with page := x.page.failed message }
  | _, _ => none

/-- A handler makes its request. -/
def request (x : System) (p : Pending) : System :=
  { x with page := x.page.started, pending := x.pending ++ [p] }

def next (x : System) : Label → Option System
  | .type query => some { x with page := { x.page with query } }
  | .search =>
    if trim x.page.query = "" then none
    else
      let y := x.request (.search x.page.query)
      some { y with
        page := { y.page with selectedProject := none, versions := [] }
        shown := none }
  | .selectProject index =>
    -- the projects are there as long as none is picked, and no button is disabled
    match x.page.selectedProject, x.page.projects[index]? with
    | none, some project =>
      let y := x.request (.versions project)
      some { y with page := { y.page with selectedProject := some project } }
    | _, _ => none
  | .back =>
    if x.page.selectedProject.isSome then
      some { x with page := { x.page with selectedProject := none } }
    else none
  | .store index =>
    match x.page.selectedProject, (x.page.versions.take 15)[index]? with
    | some project, some version =>
      if x.page.busy then none
      else
        let y := x.request (.store (importBody version project))
        some { y with imports := x.imports ++ [⟨version, project, x.shown⟩] }
    | _, _ => none
  | .upload none => some x
  | .upload (some file) => some (x.request (.upload file))
  | .askDelete index =>
    match x.page.artifacts[index]? with
    | some artifact =>
      if x.page.busy then none
      else some { x with page := { x.page with deleteTarget := some artifact } }
    | none => none
  | .cancelDelete => some { x with page := { x.page with deleteTarget := none } }
  | .deleteArtifact =>
    match x.page.deleteTarget with
    | some target => some (x.request (.delete target.1.id))
    | none => none
  | .receive index response =>
    match x.pending[index]? with
    | some p => respond { x with pending := x.pending.eraseIdx index } p response
    | none => none

/-! ## Where a release comes from -/

/-- The backend answers. -/
def Answers (x : System) : Label → Prop
  | .receive index (.versions found) =>
    ∀ project, x.pending[index]? = some (.versions project) → Offered project found
  | .receive index (.projects found) =>
    (x.pending[index]? = some .top → Found "" found) ∧
      ∀ query, x.pending[index]? = some (.search query) → Found query found
  | _ => True

variable {x y : System}

/-- Every response but a list of releases leaves the project and the releases as they are. -/
structure Continues (x y : System) (p : Pending) (response : Response) : Prop where
  selected : y.page.selectedProject = x.page.selectedProject
  versions : y.page.versions = x.page.versions
  shown : y.shown = x.shown
  imports : y.imports = x.imports
  projects : y.page.projects = x.page.projects ∨
    response = .projects y.page.projects ∧ (p = .top ∨ ∃ query, p = .search query)
  pending : y.pending = x.pending ∨ y.pending = x.pending ++ [.top] ∨
    y.pending = x.pending ++ [.reload] ∧ p.handled ∧ y.page.busy = x.page.busy
  busy : p.handled ∨ y.page.busy = x.page.busy
  failed : ∀ project, p = .versions project → ∃ message, response = .failed message

theorem continues_setProjects {found : List RegistryProject} {p : Pending}
    (h : p = .top ∨ ∃ query, p = .search query) {busy : Bool}
    (hbusy : p.handled ∨ busy = x.page.busy) :
    Continues x (setProjects { x with page := { x.page with busy } } found) p
      (.projects found) := by
  refine ⟨rfl, rfl, rfl, rfl, .inr ⟨rfl, h⟩, ?_, hbusy, by rintro _ rfl; simp at h⟩
  unfold setProjects
  split_ifs
  · exact .inr (.inl rfl)
  · exact .inl rfl

theorem respond_cases {p : Pending} {response : Response} (h : x.respond p response = some y) :
    (∃ project found, p = .versions project ∧ response = .versions found ∧
      y = { x with page := { x.page with versions := found, busy := false }, shown := project }) ∨
    Continues x y p response := by
  unfold respond at h
  split at h <;> cases h
  case h_3 => exact .inr (continues_setProjects (.inl rfl) (.inr rfl))
  case h_5 query found => exact .inr (continues_setProjects (.inr ⟨query, rfl⟩) (.inl rfl))
  case h_6 project found => exact .inl ⟨project, found, rfl, rfl, rfl⟩
  case h_7 | h_8 | h_9 =>
    exact .inr ⟨rfl, rfl, rfl, rfl, .inl rfl, .inr (.inr ⟨rfl, rfl, rfl⟩), .inl rfl, by simp⟩
  case h_1 | h_2 | h_4 =>
    exact .inr ⟨rfl, rfl, rfl, rfl, .inl rfl, .inl rfl, .inr rfl, by simp⟩
  all_goals exact .inr ⟨rfl, rfl, rfl, rfl, .inl rfl, .inl rfl, .inl rfl, by simp⟩

theorem perm_pending {index : ℕ} {p : Pending} (h : x.pending[index]? = some p) :
    (p :: x.pending.eraseIdx index).Perm x.pending := by
  obtain ⟨hlt, rfl⟩ := List.getElem?_eq_some_iff.mp h
  exact List.getElem_cons_eraseIdx_perm hlt

/-- Every release that is shown or stored is one of the project whose releases are shown. -/
structure Traced (x : System) : Prop where
  projects : ∀ p ∈ x.page.projects, p.provider ≠ .upload
  asked : ∀ p, .versions p ∈ x.pending → p.provider ≠ .upload
  versions : ∀ v ∈ x.page.versions, ∃ p, x.shown = some p ∧ IsReleaseOf v p
  imports : ∀ i ∈ x.imports, ∃ p, i.shown = some p ∧ IsReleaseOf i.version p
  stores : ∀ body, .store body ∈ x.pending →
    ∃ i ∈ x.imports, body = importBody i.version i.project

theorem traced_init : Traced {} := by
  constructor <;> simp

theorem Traced.frame (h : x.Traced) (hprojects : y.page.projects = x.page.projects)
    (hversions : y.page.versions = x.page.versions) (hshown : y.shown = x.shown)
    (himports : y.imports = x.imports)
    (hpending : ∀ p ∈ y.pending, p ∈ x.pending ∨
      (∀ q, p ≠ .versions q) ∧ ∀ body, p ≠ .store body) : y.Traced := by
  obtain ⟨hp, hasked, hv, hi, hs⟩ := h
  constructor <;> grind

theorem traced_receive (h : x.Traced) {index : ℕ} {response : Response}
    (hanswers : x.Answers (.receive index response))
    (hstep : x.next (.receive index response) = some y) : y.Traced := by
  simp only [next] at hstep
  split at hstep
  case h_2 => cases hstep
  case h_1 p hp =>
    have hsubset := List.eraseIdx_subset (k := index) (l := x.pending)
    have hmem : p ∈ x.pending := List.mem_of_getElem? hp
    obtain ⟨hprojects, hasked, hversions, himports, hstores⟩ := h
    rcases respond_cases hstep with ⟨project, found, rfl, rfl, rfl⟩ | hc
    · refine ⟨hprojects, fun q hq => hasked q (hsubset hq), ?_, himports,
        fun body hb => hstores body (hsubset hb)⟩
      intro v hv
      exact ⟨project, rfl, isReleaseOf_of_offered (hasked project hmem) (hanswers project hp) v hv⟩
    · obtain ⟨hsel, hver, hshown, himp, hproj, hpend, -, -⟩ := hc
      have hplain : ∀ q ∈ y.pending, q ∈ x.pending ∨ q = .top ∨ q = .reload := by grind
      refine ⟨?_, ?_, ?_, ?_, ?_⟩
      · rcases hproj with hproj | ⟨rfl, rfl | ⟨query, rfl⟩⟩
        · rwa [hproj]
        · exact provider_of_found (hanswers.1 hp)
        · exact provider_of_found (hanswers.2 query hp)
      · grind
      · grind
      · grind
      · grind

/-- A handler that asks neither for releases nor for one to be stored. -/
theorem Traced.request (h : x.Traced) {p : Pending} (hversions : ∀ q, p ≠ .versions q)
    (hstore : ∀ body, p ≠ .store body) : (x.request p).Traced := by
  refine h.frame rfl rfl rfl rfl fun q hq => ?_
  rcases List.mem_append.mp hq with hq | hq
  · exact .inl hq
  · obtain rfl := List.mem_singleton.mp hq
    exact .inr ⟨hversions, hstore⟩

theorem traced_selectProject (h : x.Traced) {project : RegistryProject}
    (hproject : project ∈ x.page.projects) :
    Traced { x.request (.versions project) with
      page := { (x.request (.versions project)).page with selectedProject := project } } where
  projects := h.projects
  asked q hq := by
    rcases List.mem_append.mp hq with hq | hq
    · exact h.asked q hq
    · obtain rfl : q = project := by simpa using hq
      exact h.projects q hproject
  versions := h.versions
  imports := h.imports
  stores body hb := h.stores body (by simpa [System.request] using hb)

theorem traced_store (h : x.Traced) {project : RegistryProject} {version : RegistryVersion}
    (hversion : version ∈ x.page.versions) :
    Traced { x.request (.store (importBody version project)) with
      imports := x.imports ++ [⟨version, project, x.shown⟩] } where
  projects := h.projects
  asked q hq := h.asked q (by simpa [System.request] using hq)
  versions := h.versions
  imports i hi := by
    rcases List.mem_append.mp hi with hi | hi
    · exact h.imports i hi
    · obtain rfl := List.mem_singleton.mp hi
      exact h.versions version hversion
  stores body hb := by
    rcases List.mem_append.mp hb with hb | hb
    · obtain ⟨i, hi, rfl⟩ := h.stores body hb
      exact ⟨i, List.mem_append_left _ hi, rfl⟩
    · obtain rfl : body = importBody version project := by simpa using hb
      exact ⟨_, List.mem_append_right _ (List.mem_singleton_self _), rfl⟩

theorem traced_next (h : x.Traced) {l : Label} (hanswers : x.Answers l)
    (hstep : x.next l = some y) : y.Traced := by
  cases l with
  | receive index response => exact traced_receive h hanswers hstep
  | search =>
    simp only [next] at hstep
    split_ifs at hstep
    cases hstep
    obtain ⟨hprojects, hasked, -, himports, hstores⟩ := h
    constructor <;> simp_all [System.request, Page.started]
  | selectProject index =>
    simp only [next] at hstep
    split at hstep
    · cases hstep
      exact traced_selectProject h (List.mem_of_getElem? ‹_›)
    · cases hstep
  | store index =>
    simp only [next] at hstep
    split at hstep
    · split_ifs at hstep
      cases hstep
      exact traced_store h (List.mem_of_mem_take (List.mem_of_getElem? ‹_›))
    · cases hstep
  | upload file =>
    cases file with
    | none =>
      cases hstep
      exact h
    | some file =>
      cases hstep
      exact h.request (by simp) (by simp)
  | deleteArtifact =>
    simp only [next] at hstep
    split at hstep
    · cases hstep
      exact h.request (by simp) (by simp)
    · cases hstep
  | type query | cancelDelete =>
    cases hstep
    exact h.frame rfl rfl rfl rfl fun _ => .inl
  | back =>
    simp only [next] at hstep
    split_ifs at hstep
    cases hstep
    exact h.frame rfl rfl rfl rfl fun _ => .inl
  | askDelete index =>
    simp only [next] at hstep
    split at hstep
    · split_ifs at hstep
      cases hstep
      exact h.frame rfl rfl rfl rfl fun _ => .inl
    · cases hstep

/-! ## One thing after another -/

/-- A handler is only started when no other is going on, and a request for releases only fails
when no others are held. -/
def Careful (x : System) : Label → Prop
  | .search => ∀ p ∈ x.pending, ¬ p.handled
  | .selectProject _ => ∀ p ∈ x.pending, ¬ p.handled
  | .upload (some _) => ∀ p ∈ x.pending, ¬ p.handled
  | .deleteArtifact => ∀ p ∈ x.pending, ¬ p.handled
  | .receive index (.failed _) =>
    ∀ project, x.pending[index]? = some (.versions project) → x.page.versions = []
  | _ => True

/-- The releases of the project that is picked are on their way, or they are what is held. -/
structure InOrder (x : System) : Prop where
  one : x.pending.countP (·.handled) ≤ 1
  busy : ∀ p ∈ x.pending, p.handled → x.page.busy
  asked : ∀ p, .versions p ∈ x.pending → ∀ q, x.page.selectedProject = some q → q = p
  held : ∀ q, x.page.selectedProject = some q →
    .versions q ∈ x.pending ∨ x.page.versions = [] ∨ x.shown = some q
  own : ∀ i ∈ x.imports, i.shown = some i.project

theorem inOrder_init : InOrder {} := by
  constructor <;> simp [Pending.handled]

theorem countP_idle (h : ∀ p ∈ x.pending, ¬ p.handled) : x.pending.countP (·.handled) = 0 := by
  simpa [List.countP_eq_zero] using h

theorem not_versions_of_idle (h : ∀ p ∈ x.pending, ¬ p.handled) (q : RegistryProject) :
    .versions q ∉ x.pending := by
  intro hq
  exact h _ hq rfl

/-- A handler is started while no other is going on. -/
theorem InOrder.request (h : x.InOrder) (hidle : ∀ p ∈ x.pending, ¬ p.handled) {p : Pending}
    (hversions : ∀ q, p ≠ .versions q) : (x.request p).InOrder := by
  have hcount := countP_idle hidle
  have hnone := not_versions_of_idle hidle
  refine ⟨?_, fun _ _ _ => rfl, ?_, ?_, h.own⟩
  · have hone : [p].countP (·.handled) ≤ 1 := List.countP_le_length
    simp only [System.request, List.countP_append, hcount]
    omega
  · intro q hq
    simp only [System.request, List.mem_append, List.mem_singleton] at hq
    exact absurd hq (by simp [hnone q, Ne.symm (hversions q)])
  · intro q hq
    rcases h.held q hq with hq | hq
    · exact absurd hq (hnone q)
    · exact .inr hq

theorem inOrder_selectProject (h : x.InOrder) (hidle : ∀ p ∈ x.pending, ¬ p.handled)
    (project : RegistryProject) :
    InOrder { x.request (.versions project) with
      page := { (x.request (.versions project)).page with selectedProject := project } } where
  one := by
    have hone : [Pending.versions project].countP (·.handled) ≤ 1 := List.countP_le_length
    simp only [System.request, List.countP_append, countP_idle hidle]
    omega
  busy _ _ _ := rfl
  asked p hp q hq := by
    obtain rfl := Option.some.inj hq
    have hnone := not_versions_of_idle hidle p
    simpa [System.request, hnone, eq_comm] using hp
  held q hq := by
    obtain rfl := Option.some.inj hq
    exact .inl (by simp [System.request])
  own := h.own

theorem inOrder_store (h : x.InOrder) {project : RegistryProject} {version : RegistryVersion}
    (hproject : x.page.selectedProject = some project) (hversion : version ∈ x.page.versions)
    (hbusy : ¬ x.page.busy) :
    InOrder { x.request (.store (importBody version project)) with
      imports := x.imports ++ [⟨version, project, x.shown⟩] } := by
  have hidle : ∀ p ∈ x.pending, ¬ p.handled := fun p hp hh => hbusy (h.busy p hp hh)
  have hshown : x.shown = some project := by
    rcases h.held project hproject with hq | hq | hq
    · exact absurd hq (not_versions_of_idle hidle project)
    · exact absurd hversion (by simp [hq])
    · exact hq
  obtain ⟨hone, hbusy', hasked, hheld, -⟩ :=
    h.request hidle (p := .store (importBody version project)) (by simp)
  refine ⟨hone, hbusy', hasked, hheld, fun i hi => ?_⟩
  rcases List.mem_append.mp hi with hi | hi
  · exact h.own i hi
  · obtain rfl := List.mem_singleton.mp hi
    exact hshown

/-- What is left when a handler has its response. -/
theorem idle_of_perm (h : x.InOrder) {p : Pending} {rest : List Pending}
    (hperm : (p :: rest).Perm x.pending) (hp : p.handled) : ∀ q ∈ rest, ¬ q.handled := by
  have hone := h.one
  have hcons : (p :: rest).countP (·.handled) = rest.countP (·.handled) + 1 :=
    List.countP_cons_of_pos hp
  have hsame := hperm.countP_eq (·.handled)
  have hrest : rest.countP (·.handled) = 0 := by omega
  simpa [List.countP_eq_zero] using hrest

theorem inOrder_receive (h : x.InOrder) {index : ℕ} {response : Response}
    (hcareful : x.Careful (.receive index response))
    (hstep : x.next (.receive index response) = some y) : y.InOrder := by
  simp only [next] at hstep
  split at hstep
  case h_2 => cases hstep
  case h_1 p hp =>
    have hperm := perm_pending hp
    have hidle := idle_of_perm h hperm
    have hmem : p ∈ x.pending := List.mem_of_getElem? hp
    have hsubset := List.eraseIdx_subset (k := index) (l := x.pending)
    rcases respond_cases hstep with ⟨project, found, rfl, rfl, rfl⟩ | hc
    · have hnone := hidle rfl
      refine ⟨?_, fun q hq hh => absurd hh (hnone q hq), ?_, ?_, h.own⟩
      · simp [countP_idle (x := { x with pending := x.pending.eraseIdx index }) hnone]
      · intro q hq
        exact absurd rfl (hnone _ hq)
      · intro q hq
        exact .inr (.inr (h.asked project hmem q hq ▸ rfl))
    · obtain ⟨hsel, hver, hshown, himp, -, hpend, hbusy, hfailed⟩ := hc
      have hcount : (x.pending.eraseIdx index).countP (·.handled) ≤
          if p.handled then 0 else 1 := by
        have hone := h.one
        rw [← hperm.countP_eq, List.countP_cons] at hone
        split_ifs at hone ⊢ <;> omega
      refine ⟨?_, ?_, ?_, ?_, ?_⟩
      · rcases hpend with hpend | hpend | ⟨hpend, hhandled, -⟩ <;>
          grind [Pending.handled]
      · intro q hq hh
        by_cases hhandled : p.handled
        · have hnone := hidle hhandled
          have hreload : y.page.busy = x.page.busy := by grind [Pending.handled]
          rw [hreload]
          exact h.busy p hmem hhandled
        · have hkept : y.page.busy = x.page.busy := by grind
          have hq' : q ∈ x.pending := by grind [Pending.handled]
          rw [hkept]
          exact h.busy q hq' hh
      · intro q hq
        rw [hsel]
        exact h.asked q (by grind)
      · intro q hq
        rw [hsel] at hq
        rw [hver, hshown]
        rcases h.held q hq with hq' | hq' | hq'
        · rcases List.mem_cons.mp (hperm.mem_iff.mpr hq') with rfl | hrest
          · obtain ⟨message, rfl⟩ := hfailed q rfl
            exact .inr (.inl (hcareful q hp))
          · exact .inl (by grind)
        · exact .inr (.inl hq')
        · exact .inr (.inr hq')
      · rw [himp]
        exact h.own

theorem inOrder_next (h : x.InOrder) {l : Label} (hcareful : x.Careful l)
    (hstep : x.next l = some y) : y.InOrder := by
  cases l with
  | receive index response => exact inOrder_receive h hcareful hstep
  | search =>
    simp only [next] at hstep
    split_ifs at hstep
    cases hstep
    obtain ⟨hone, hbusy, -, -, hown⟩ :=
      h.request hcareful (p := .search x.page.query) (by simp)
    exact ⟨hone, hbusy, by simp, by simp, hown⟩
  | selectProject index =>
    simp only [next] at hstep
    split at hstep
    · cases hstep
      exact inOrder_selectProject h hcareful _
    · cases hstep
  | store index =>
    simp only [next] at hstep
    split at hstep
    · split_ifs at hstep with hbusy
      cases hstep
      exact inOrder_store h ‹_› (List.mem_of_mem_take (List.mem_of_getElem? ‹_›)) hbusy
    · cases hstep
  | upload file =>
    cases file with
    | none =>
      cases hstep
      exact h
    | some file =>
      cases hstep
      exact h.request hcareful (by simp)
  | deleteArtifact =>
    simp only [next] at hstep
    split at hstep
    · cases hstep
      exact h.request hcareful (by simp)
    · cases hstep
  | type query | cancelDelete =>
    cases hstep
    exact ⟨h.one, h.busy, h.asked, h.held, h.own⟩
  | back =>
    simp only [next] at hstep
    split_ifs at hstep
    cases hstep
    exact ⟨h.one, h.busy, by simp, by simp, h.own⟩
  | askDelete index =>
    simp only [next] at hstep
    split at hstep
    · split_ifs at hstep
      cases hstep
      exact ⟨h.one, h.busy, h.asked, h.held, h.own⟩
    · cases hstep

/-! ## What is stored -/

end System

theorem found_hits (query : String) (hits : List ModrinthHit) :
    Found query (byDownloads (foundProjects (.ok hits) (.error .rejected))) := by
  have hmodrinth : Steps whatever Quiet ((ask (.fetch (.modrinthSearch query
      (facets platform none)))).run, ()) (.pure (.ok hits), ()) := .single (.call trivial)
  have hhangar : Steps whatever Quiet ((ask (.fetch (.hangarSearch
      (if trim query ≠ "" then some query else none) (hangarPlatform platform)))).run, ())
      (.pure (.error .rejected), ()) := .single (.call trivial)
  have hboth := Steps.par_left hmodrinth (hhangar.seq .refl)
  exact Steps.seq (Steps.seq hboth .refl) .refl

theorem offered_modrinth {project : RegistryProject} (hprovider : project.provider = .modrinth)
    (found : List ModrinthVersion) :
    Offered project ((found.filter (·.versionType = "release")).flatMap
      (·.offer project.projectId platform)) := by
  unfold Offered Registry.versions
  rw [if_pos hprovider]
  exact .single (Step.of_call (r := Except.ok found) trivial rfl rfl)

def viaVersionHit : ModrinthHit where
  projectId := "P1OZGk5p"
  title := "ViaVersion"
  description := "Allow newer clients"
  downloads := 5000000
  author := "kennytv"
  categories := ["utility"]
  versions := ["1.21"]
  dateModified := "2026-01-05T10:00:00Z"

def luckPermsHit : ModrinthHit where
  projectId := "Vebnzrzj"
  title := "LuckPerms"
  description := "A permissions plugin"
  downloads := 4000000
  author := "lucko"
  categories := ["management"]
  versions := ["1.21"]
  dateModified := "2026-01-04T10:00:00Z"

def viaVersionRelease : ModrinthVersion where
  id := "v1"
  versionNumber := "5.0.0"
  versionType := "release"
  gameVersions := ["1.21"]
  files := [{
    filename := "ViaVersion-5.0.0.jar", size := 5242880, url := "https://cdn.modrinth.com/v1"
    primary := true }]

theorem found_two (query : String) :
    Found query [viaVersionHit.project, luckPermsHit.project] := by
  have hsorted : byDownloads [viaVersionHit.project, luckPermsHit.project] =
      [viaVersionHit.project, luckPermsHit.project] :=
    List.mergeSort_of_pairwise (by decide)
  exact hsorted ▸ found_hits query [viaVersionHit, luckPermsHit]

theorem offered_viaVersion : Offered viaVersionHit.project
    (viaVersionRelease.offer viaVersionHit.project.projectId platform) :=
  @offered_modrinth viaVersionHit.project rfl [viaVersionRelease]

end Minikura.Web.Plugins
