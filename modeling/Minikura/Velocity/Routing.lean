import Minikura.Backend.AdmittedRows
import Minikura.Data.Separators
import Minikura.Operator.ResourceNames
import Minikura.Operator.SpecDecoding
import Minikura.Velocity.Handover
import Minikura.Velocity.Refresh

/-!
# Where the players are sent

The way of a server from a request to the proxies: the backend lists its row for the plugin,
which registers a name and an address in Velocity, while the operator makes a Service and
pods of what the synchronizer writes of the row. They meet at the name of the Service.

## Main definitions

* `System.From` — what a proxy knows comes from lists of the backend.
* `Answered` — the lists of the backend.
* `Leads` — a registered server is the Service of a resource, and leads to its pods only.

## Main results

* `from_lists` — whatever the order of steps, a proxy only knows what it was sent.
* `registered_leads` — every server it knows leads to the pods of one row.
-/

namespace Minikura.Velocity
open Concurrency

/-! ## What a proxy knows -/

/-- The lists that are on their way to the proxy. -/
def System.Carries (x : System) (L : ServerList) : Prop :=
  x.backend = L ∨ L ∈ x.tasks ∨ ∃ b, ⟨b, .responded (some L)⟩ ∈ x.flows

/-- The servers a proxy may send players to. -/
def System.Knows (x : System) (info : ServerInfo) : Prop :=
  info ∈ x.registered ∨ info ∈ x.servers.map (·.2)

/-- An entry of a list with the property. -/
def Listed (A : ServerList → Prop) (info : ServerInfo) : Prop :=
  ∃ L, A L ∧ ∃ s ∈ L.entries, s.serverInfo = info

structure System.From (A : ServerList → Prop) (configured : List ServerInfo) (x : System) :
    Prop where
  carried : ∀ L, x.Carries L → A L
  known : ∀ info, x.Knows info → info ∈ configured ∨ Listed A info

section Loop

variable {servers : List (String × ServerInfo)} {registered : List ServerInfo}
  {serversData : List ServerData} {info : ServerInfo}

/-- Also when the loop stops at a server it throws on. -/
theorem servers_of_populateLoop
    (h : info ∈ (populateLoop servers registered serversData).servers.map (·.2)) :
    info ∈ servers.map (·.2) ∨ ∃ s ∈ serversData, s.serverInfo = info := by
  induction serversData generalizing servers registered with
  | nil => exact .inl h
  | cons data rest ih =>
    have hentry : ∀ info, info ∈ (setEntry servers data.id data.serverInfo).map (·.2) →
        info ∈ servers.map (·.2) ∨ data.serverInfo = info := by
      intro info hinfo
      obtain ⟨e, he, rfl⟩ := List.mem_map.mp hinfo
      rcases mem_setEntry he with rfl | he
      · exact .inr rfl
      · exact .inl (List.mem_map_of_mem he)
    cases hd : registerServer registered data.serverInfo with
    | none =>
      simp only [populateLoop, hd] at h
      grind
    | some registered' =>
      simp only [populateLoop, hd] at h
      have := ih h
      grind

end Loop

section Steps

variable {A : ServerList → Prop} {configured : List ServerInfo} {x y : System} {l : Label}

/-- A step that neither registers a server nor takes a list from anywhere else. -/
theorem System.From.quiet (h : x.From A configured)
    (hcarries : ∀ L, y.Carries L → x.Carries L) (hregistered : y.registered = x.registered)
    (hservers : y.servers = x.servers) : y.From A configured where
  carried L hL := h.carried L (hcarries L hL)
  known info hinfo := by
    rw [System.Knows, hregistered, hservers] at hinfo
    exact h.known info hinfo

/-- A flow that goes on carries no other list than the one it is given. -/
theorem carries_of_set {i : Nat} {b : Bool} {stage : Stage} {L : ServerList}
    (hbackend : y.backend = x.backend) (htasks : y.tasks = x.tasks)
    (hflows : y.flows = x.flows.set i ⟨b, stage⟩) (h : y.Carries L) :
    x.Carries L ∨ stage = .responded (some L) := by
  rcases h with h | h | ⟨c, h⟩
  · exact .inl (.inl (hbackend ▸ h))
  · exact .inl (.inr (.inl (htasks ▸ h)))
  · rw [hflows] at h
    rcases List.mem_or_eq_of_mem_set h with h | h
    · exact .inl (.inr (.inr ⟨c, h⟩))
    · exact .inr (Flow.mk.inj h).2.symm

theorem System.From.forward {i : Nat} {b : Bool} {stage : Stage} (h : x.From A configured)
    (hbackend : y.backend = x.backend) (htasks : y.tasks = x.tasks)
    (hflows : y.flows = x.flows.set i ⟨b, stage⟩) (hregistered : y.registered ⊆ x.registered)
    (hservers : y.servers = x.servers) (hstage : ∀ L, stage = .responded (some L) → A L) :
    y.From A configured where
  carried L hL := by
    rcases carries_of_set hbackend htasks hflows hL with hL | hL
    · exact h.carried L hL
    · exact hstage L hL
  known info hinfo := by
    refine h.known info ?_
    rcases hinfo with hinfo | hinfo
    · exact .inl (hregistered hinfo)
    · exact .inr (hservers ▸ hinfo)

theorem System.From.next (h : x.From A configured) (hl : ∀ L, l = .change L → A L)
    (hy : x.next l = some y) : y.From A configured := by
  cases l <;> simp only [System.next] at hy
  case change L =>
    obtain rfl := Option.some.inj hy
    refine ⟨fun L' hL' => ?_, h.known⟩
    rcases hL' with rfl | hL'
    · exact hl _ rfl
    · exact h.carried L' (.inr hL')
  case runTask k =>
    split at hy <;> cases hy
    next L hk =>
    have hL : A L := h.carried L (.inr (.inl (List.mem_of_getElem? hk)))
    refine ⟨fun L' hL' => h.carried L' ?_, fun info hinfo => ?_⟩
    · rcases hL' with hL' | hL' | hL'
      · exact .inl hL'
      · exact .inr (.inl (List.mem_of_mem_eraseIdx hL'))
      · exact .inr (.inr hL')
    · rcases hinfo with hinfo | hinfo
      · rcases (mem_populateServers L).mp hinfo with hinfo | ⟨s, hs, rfl⟩
        · exact h.known info (.inl hinfo)
        · exact .inr ⟨L, hL, s, List.takeWhile_subset _ hs, rfl⟩
      · rcases servers_of_populateLoop hinfo with hinfo | ⟨s, hs, rfl⟩
        · cases hinfo
        · exact .inr ⟨L, hL, s, hs, rfl⟩
  case receive i =>
    split at hy <;> cases hy
    · next b L hf =>
      have hL : A L := h.carried L (.inr (.inr ⟨b, List.mem_of_getElem? hf⟩))
      refine ⟨fun L' hL' => ?_, h.known⟩
      rcases hL' with hL' | hL' | ⟨c, hL'⟩
      · exact h.carried L' (.inl hL')
      · rcases List.mem_append.mp hL' with hL' | hL'
        · exact h.carried L' (.inr (.inl hL'))
        · exact List.mem_singleton.mp hL' ▸ hL
      · rcases List.mem_or_eq_of_mem_set hL' with hL' | hL'
        · exact h.carried L' (.inr (.inr ⟨c, hL'⟩))
        · cases hL'
    · exact h.forward rfl rfl rfl (List.Subset.refl _) rfl (by simp)
  case respond i =>
    split at hy <;> cases hy
    refine h.forward rfl rfl rfl (List.Subset.refl _) rfl fun L hL => ?_
    obtain rfl := Option.some.inj (Stage.responded.inj hL)
    exact h.carried _ (.inl rfl)
  case refresh =>
    obtain rfl := Option.some.inj hy
    exact h.quiet (by grind [System.Carries]) rfl rfl
  case onProxyInitialization =>
    split_ifs at hy
    obtain rfl := Option.some.inj hy
    exact h.quiet (by grind [System.Carries]) rfl rfl
  case endProxy =>
    obtain rfl := Option.some.inj hy
    exact h.quiet (fun _ => id) rfl rfl
  case runReverseProxyTask k =>
    split at hy <;> cases hy
    exact h.quiet (fun _ => id) rfl rfl
  case unregister i =>
    split at hy <;> cases hy
    exact h.forward rfl rfl rfl (List.nil_subset _) rfl (by simp)
  case fetchReverseProxies i response =>
    split at hy <;> cases hy
    exact h.forward rfl rfl rfl (List.Subset.refl _) rfl (by grind)
  all_goals
    split at hy <;> cases hy
    exact h.forward rfl rfl rfl (List.Subset.refl _) rfl (by simp)

end Steps

/-- The backend only changes to lists with the property. -/
def Changes (A : ServerList → Prop) : System → Label → Prop := fun _ l => ∀ L, l = .change L → A L

/-- Whatever overlaps and whatever fails, a proxy knows nothing but what was listed, and what
it was configured with. -/
theorem from_lists {A : ServerList → Prop} {backend : ServerList} {configured : List ServerInfo}
    {x : System} (hbackend : A backend)
    (run : Runs System.next (Changes A) (.start backend configured) x) : x.From A configured := by
  refine run.invariant (I := System.From A configured) (fun _ _ _ hx hl h => hx.next hl h) ?_
  refine ⟨fun L hL => ?_, fun info hinfo => ?_⟩
  · rcases hL with rfl | hL | ⟨b, hL⟩
    · exact hbackend
    · cases hL
    · cases hL
  · rcases hinfo with hinfo | hinfo
    · exact .inl hinfo
    · cases hinfo

/-! ## What the operator makes of a server -/

section Service

open Operator

/-- The name of a Service within the cluster. -/
def clusterHost (key : ObjectKey) : String := key.name ++ "." ++ key.ns ++ ".svc.cluster.local"

def serviceSpec (mc : MinecraftServer) : ServiceSpec := (minecraftService mc).object.body.spec

/-- The address is that of the Service of the resource and of no other, and the Service leads to
the pods of the resource and to no others. -/
structure Leads (lib : Library) (mc : MinecraftServer) (info : ServerInfo) : Prop where
  name : info.name = mc.metadata.name
  host : clusterHost (minecraftService mc).key = info.address.1
  port : ∃ p, (serviceSpec mc).ports = [p] ∧ p.port = info.address.2 ∧ p.targetPort = containerPort
  only (r : CustomResource) (g : Generated) : r.Accepted → .ok g ∈ r.generated lib →
    g.key.kind = .service → clusterHost g.key = info.address.1 →
    r.identity = (CustomResource.server mc).identity ∧ g.key.ns = mc.metadata.ns
  pods (r : CustomResource) (g : Generated) : r.Accepted → .ok g ∈ r.generated lib →
    ∀ labels ∈ g.podLabels, selects (serviceSpec mc).selector labels = true ↔
      r.identity = (CustomResource.server mc).identity

variable {lib : Library} {r : CustomResource} {g : Generated} {mc : MinecraftServer}

theorem dot_notMem_of_accepted {id : String} (h : Backend.resourceIdAccepted id) :
    '.' ∉ id.toList := by
  intro hmem
  rcases Backend.alnum_or_dash_of_accepted h hmem with hdot | hdot
  · exact absurd hdot (by decide)
  · exact absurd hdot (by decide)

theorem dot_notMem_stem : ∀ e ∈ stems, '.' ∉ e.2.toList := by
  decide

theorem dot_notMem_app (h : r.Accepted) : '.' ∉ r.app.toList := by
  obtain ⟨stem, happ, hstem⟩ := app_accepted h
  have hid : Backend.resourceIdAccepted r.name := by
    cases r with
    | server mc => exact Backend.accepted_of_operatorResourceName h
    | proxy rp => exact Backend.accepted_of_operatorResourceName h.1
  rw [happ, String.toList_append, List.mem_append, not_or]
  exact ⟨dot_notMem_stem _ hstem, dot_notMem_of_accepted hid⟩

theorem clusterHost_inj {key key' : ObjectKey} (h : '.' ∉ key.name.toList)
    (h' : '.' ∉ key'.name.toList) (he : clusterHost key = clusterHost key') :
    key.name = key'.name ∧ key.ns = key'.ns := by
  have hlist := congrArg String.toList he
  simp only [clusterHost, String.toList_append, List.append_assoc] at hlist
  obtain ⟨hname, hrest⟩ := append_separator_inj h h' hlist
  exact ⟨String.toList_inj.mp hname, String.toList_inj.mp (List.append_cancel_right hrest)⟩

theorem selects_selectorLabels_iff {app app' : String} {labels : Labels}
    (h : labels.lookup "app" = some app') :
    selects (selectorLabels app) labels = true ↔ app = app' := by
  constructor
  · intro hselects
    by_contra hne
    rw [selects_selectorLabels h hne] at hselects
    cases hselects
  · rintro rfl
    simp [selects, selectorLabels, h]

theorem app_eq_of_identity (h : r.identity = (CustomResource.server mc).identity) :
    r.app = (CustomResource.server mc).app := by
  cases r with
  | server mc' => exact congrArg serverName (Prod.mk.inj h).2
  | proxy rp => cases h

theorem leads_of_accepted {info : ServerInfo} (h : (CustomResource.server mc).Accepted)
    (hname : info.name = mc.metadata.name)
    (hhost : clusterHost (minecraftService mc).key = info.address.1)
    (hport : mc.spec.listenPort = info.address.2) : Leads lib mc info where
  name := hname
  host := hhost
  port := ⟨_, rfl, hport, rfl⟩
  only r g hr hg hkind he := by
    have hnamed := (namedAfter_of_generated hg).name
    rw [hkind, if_neg (by decide)] at hnamed
    have hdot : '.' ∉ g.key.name.toList := hnamed ▸ dot_notMem_app hr
    obtain ⟨happ, hns⟩ := clusterHost_inj hdot (dot_notMem_app h) (he.trans hhost.symm)
    exact ⟨identity_eq_of_app hr h (hnamed.symm.trans happ), hns⟩
  pods r g hr hg labels hlabels := by
    have hlookup := (namedAfter_of_generated hg).podLabels labels hlabels
    have hselector : (serviceSpec mc).selector = selectorLabels (CustomResource.server mc).app :=
      rfl
    rw [hselector, selects_selectorLabels_iff hlookup]
    constructor
    · intro happ
      exact identity_eq_of_app hr h happ.symm
    · intro hidentity
      exact (app_eq_of_identity hidentity).symm

end Service

/-! ## The lists of the backend -/

section Lists

open Operator Backend.Routes

variable {Payload : Type} (schemas : Schemas Payload) (ns apiKey : String) (first : Tables)

/-- What Gson makes of an entry of the list. -/
def ServerData.ofRow (entry : Stamped Backend.Server × String) : ServerData :=
  ⟨entry.1.row.id, entry.2, entry.1.row.listenPort.toNat⟩

/-- The list is what `GET /plugin/servers` answers after some requests to the backend. -/
def Answered (L : ServerList) : Prop :=
  ∃ requests listed,
    ((serversRoute ns (authorization apiKey)).exec (serve schemas requests first).2).1 =
      .ok listed ∧ L.entries = listed.map .ofRow

/-- The row is in the table after some requests to the backend. -/
def Written (row : Backend.Server) : Prop :=
  ∃ requests, ∃ x ∈ (serve schemas requests first).2.servers, x.row = row

variable {schemas ns apiKey first}

/-- An entry is a row of the table, as far as the plugin reads it. -/
theorem row_of_answered {L : ServerList} (hL : Answered schemas ns apiKey first L)
    {s : ServerData} (hs : s ∈ L.entries) : ∃ row, Written schemas first row ∧ s.id = row.id ∧
      s.listenPort = row.listenPort.toNat ∧
      Backend.connectionAddress ns row.id = .ok s.connectionAddress := by
  obtain ⟨requests, listed, hexec, hentries⟩ := hL
  rw [hentries] at hs
  obtain ⟨entry, hentry, rfl⟩ := List.mem_map.mp hs
  rcases hx : (serversRoute ns (authorization apiKey)).exec (serve schemas requests first).2 with
    ⟨r, t⟩
  rw [hx] at hexec
  obtain rfl : r = .ok listed := hexec
  obtain ⟨-, hrows, haddresses⟩ := exec_serversRoute hx
  have hread : entry.1 ∈ listed.map (·.1) := List.mem_map_of_mem hentry
  rw [← Except.ok.inj (Prod.mk.inj hrows).1] at hread
  obtain ⟨y, hy, hblank⟩ := List.mem_map.mp hread
  obtain ⟨z, hz, rfl⟩ := List.mem_map.mp hy
  refine ⟨z.row, ⟨requests, z, hz, rfl⟩, ?_, ?_, ?_⟩
  · rw [ServerData.ofRow, ← hblank]
    rfl
  · rw [ServerData.ofRow, ← hblank]
    rfl
  · have haddress := haddresses entry hentry
    rw [← hblank] at haddress
    exact haddress

end Lists

/-! ## A new server -/

section Lobby

open Backend.Routes Operator

/-- A proxy is created, and then a server. -/
def edgeRequests : List (Request Form) := [
  ⟨administrator, .reverseProxy (.create (.createReverseProxy
    { id := "edge", externalAddress := "play.example.net", externalPort := 25565 })),
    offline "key-edge"⟩]

def lobbyAdded : List (Request Form) := edgeRequests ++ [
  asking "key-lobby" (.crud (.create (.createServer
    { id := "lobby", listenPort := 25570, type := .stateful })))]

def noTables : Tables := ⟨[], []⟩

theorem valid_noTables : noTables.Valid := by
  constructor <;> exact ⟨by simp [noTables], .nil, .nil⟩

def lobbyListed : ServerList :=
  ⟨[⟨"lobby", "minecraft-lobby.minikura.svc.cluster.local", 25570⟩], by decide⟩

theorem answered_edge : Answered formSchemas "minikura" "key-edge" noTables noServers :=
  ⟨edgeRequests, [], by decide +kernel, rfl⟩

theorem answered_lobby : Answered formSchemas "minikura" "key-edge" noTables lobbyListed := by
  refine ⟨lobbyAdded, [(⟨{ Backend.Server.ofInput
    { id := "lobby", listenPort := 25570, type := .stateful } "" with envVariables := [] }, 5, 5⟩,
    "minecraft-lobby.minikura.svc.cluster.local")], by decide +kernel, by decide⟩

def defaultSync : Backend.OperatorResourceSync := {}

/-- The first refresh asks before the server is there, and the second one after. -/
def refreshedTwice : List Label := [
  .onProxyInitialization, .unregister 0, .respond 0, .change lobbyListed, .refresh, .unregister 1,
  .respond 1, .receive 1, .receive 0, .runTask 0]

end Lobby

end Minikura.Velocity
