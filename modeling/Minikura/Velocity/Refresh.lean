import Mathlib.Data.List.TakeWhile
import Minikura.Velocity.Proxy

/-!
# Overlapping refreshes

A refresh empties Velocity's servers when it starts and fills them when its task runs.
In between the tasks of others run, with lists that may be older than the latest response
and in any order: each adds its servers to those that are there, and the last one alone
decides what the map and the store hold.

## Main definitions

* `System.Shows` — all three hold exactly the servers of a list.

## Main results

* `shows_iff` — what the tasks since the last unregistration must be for that.
* `stale_server_registered` — a deleted server stays registered.
-/

namespace Minikura.Velocity
open Concurrency

/-- Velocity, the `servers` map and the store hold exactly the servers of a list. -/
structure System.Shows (x : System) (L : ServerList) : Prop where
  registered : ∀ i, i ∈ x.registered ↔ ∃ s ∈ L.entries, s.serverInfo = i
  servers : ∀ e, e ∈ x.servers ↔ ∃ s ∈ L.entries, (s.id, s.serverInfo) = e
  dataStore : ∀ s, s ∈ x.dataStore ↔ s ∈ L.entries

/-- Every refresh has returned and every task of theirs has run. -/
structure System.Complete (x : System) : Prop where
  flows : ∀ f ∈ x.flows, f.stage = .finished
  tasks : x.tasks = []

/-- Every response is successful. -/
def Successful (_ : System) : Label → Prop
  | .fail _ => False
  | _ => True

/-! ## What the tasks leave -/

/-- The servers registered are those the tasks have registered. -/
def Accounts : List Run → List ServerInfo → Prop
  | [], registered => registered = []
  | r :: ran, registered => Accounts ran r.registered ∧
      registered = (populateServers r.registered r.servers.entries).registered

section Accounts

variable {ran : List Run} {registered : List ServerInfo} {L : ServerList}

theorem Accounts.mem_iff (h : Accounts ran registered) (i : ServerInfo) :
    i ∈ registered ↔ ∃ r ∈ ran, ∃ s ∈ r.brings, s.serverInfo = i := by
  induction ran generalizing registered with
  | nil =>
    obtain rfl := h
    simp
  | cons r ran ih =>
    obtain ⟨hran, rfl⟩ := h
    rw [mem_populateServers, ih hran, or_comm]
    simp only [List.mem_cons, exists_eq_or_imp]
    rfl

/-- Servers of a list are registered under their names only. -/
theorem registerServer_of_subset (hsub : ∀ i ∈ registered, ∃ s ∈ L.entries, s.serverInfo = i)
    {s : ServerData} (hs : s ∈ L.entries) : (registerServer registered s.serverInfo).isSome := by
  unfold registerServer
  split
  · rfl
  · rename_i other hfind
    obtain ⟨t, ht, rfl⟩ := hsub other (List.mem_of_find?_eq_some hfind)
    have hname : t.serverInfo.name = s.serverInfo.name := by simpa using List.find?_some hfind
    rw [L.eq_of_id ht hs hname, if_pos rfl]
    rfl

theorem brings_of_subset (hsub : ∀ i ∈ registered, ∃ s ∈ L.entries, s.serverInfo = i)
    {servers : List ServerData} (hservers : ∀ s ∈ servers, s ∈ L.entries) :
    brings registered servers = servers :=
  List.takeWhile_eq_self_iff.mpr fun _ hs => registerServer_of_subset hsub (hservers _ hs)

end Accounts

/-! ## The invariant -/

/-- The flow is between the unregistration and the scheduling of its task. -/
def Flow.Awaits (f : Flow) : Prop :=
  f.stage = .unregistered ∨ ∃ L, f.stage = .responded (some L)

/-- No refresh has taken a step yet. -/
structure System.Untouched (x : System) : Prop where
  flows : ∀ f ∈ x.flows, f.stage = .started
  tasks : x.tasks = []
  latest : x.latest = none

structure System.Consistent (x : System) : Prop where
  accounts : Accounts x.ran x.registered
  shown : ∀ r ∈ x.ran.head?, x.dataStore = r.servers.entries ∧
    x.servers = (populateServers r.registered r.servers.entries).servers
  pending : x.ran ≠ [] ∨ x.tasks ≠ [] ∨ ∃ f ∈ x.flows, f.Awaits

section Steps

variable {x y : System} {i : Nat} {f : Flow} {b : Bool} {stage : Stage} {l : Label}

theorem mem_setStage (hf : x.flows[i]? = some f) :
    ⟨b, stage⟩ ∈ (x.setStage i b stage).flows := by
  obtain ⟨hi, -⟩ := List.getElem?_eq_some_iff.mp hf
  exact List.mem_set hi _

theorem not_awaits (h : stage ≠ .unregistered) (h' : ∀ L, stage ≠ .responded (some L)) :
    ¬ (⟨b, stage⟩ : Flow).Awaits := by
  rintro (hs | ⟨L, hs⟩)
  · exact h hs
  · exact h' L hs

/-- A flow that goes on leaves the others awaiting what they await. -/
theorem awaits_setStage (hf : x.flows[i]? = some f) (hnot : ¬ f.Awaits)
    (h : ∃ g ∈ x.flows, g.Awaits) : ∃ g ∈ (x.setStage i b stage).flows, g.Awaits := by
  obtain ⟨g, hg, hawaits⟩ := h
  obtain ⟨j, hj⟩ := List.mem_iff_getElem?.mp hg
  have hij : i ≠ j := by
    rintro rfl
    obtain rfl := Option.some.inj (hf.symm.trans hj)
    exact hnot hawaits
  refine ⟨g, List.mem_iff_getElem?.mpr ⟨j, ?_⟩, hawaits⟩
  rw [System.setStage, List.getElem?_set_ne hij, hj]

/-- Before the first unregistration nothing else happens. -/
theorem System.Untouched.next (h : x.Untouched) (hy : x.next l = some y) :
    y.Untouched ∨ y.Consistent := by
  have noflow : ∀ {i : Nat} {b : Bool} {stage : Stage}, x.flows[i]? = some ⟨b, stage⟩ →
      stage = .started :=
    fun hf => h.flows _ (List.mem_of_getElem? hf)
  have hstarted : ∀ b, ∀ f ∈ x.flows ++ [⟨b, .started⟩], f.stage = .started := fun b =>
    List.forall_mem_append.mpr ⟨h.flows, List.forall_mem_singleton.mpr rfl⟩
  cases l <;> simp only [System.next] at hy
  case change => exact .inl (Option.some.inj hy ▸ ⟨h.flows, h.tasks, h.latest⟩)
  case endProxy => exact .inl (Option.some.inj hy ▸ ⟨h.flows, h.tasks, h.latest⟩)
  case refresh =>
    obtain rfl := Option.some.inj hy
    exact .inl ⟨hstarted _, h.tasks, h.latest⟩
  case onProxyInitialization =>
    split_ifs at hy
    obtain rfl := Option.some.inj hy
    exact .inl ⟨hstarted _, h.tasks, h.latest⟩
  case unregister i =>
    split at hy <;> cases hy
    rename_i b hf
    exact .inr ⟨rfl, nofun, .inr (.inr ⟨_, mem_setStage hf, .inl rfl⟩)⟩
  case runTask k => simp [h.tasks] at hy
  case runReverseProxyTask k =>
    split at hy <;> cases hy
    exact .inl ⟨h.flows, h.tasks, h.latest⟩
  all_goals
    split at hy <;> cases hy
    all_goals
      rename_i hf
      cases noflow hf

/-- A step that touches neither the servers nor the tasks. -/
theorem System.Consistent.quiet (h : x.Consistent) (hregistered : y.registered = x.registered)
    (hservers : y.servers = x.servers) (hdataStore : y.dataStore = x.dataStore)
    (hran : y.ran = x.ran) (htasks : x.tasks ≠ [] → y.tasks ≠ [])
    (hawaits : (∃ f ∈ x.flows, f.Awaits) → y.tasks ≠ [] ∨ ∃ f ∈ y.flows, f.Awaits) :
    y.Consistent where
  accounts := by rw [hregistered, hran]; exact h.accounts
  shown := by rw [hservers, hdataStore, hran]; exact h.shown
  pending := by
    rw [hran]
    rcases h.pending with hne | hne | hf
    · exact .inl hne
    · exact .inr (.inl (htasks hne))
    · exact .inr (hawaits hf)

theorem System.Consistent.next (h : x.Consistent) (hl : Successful x l)
    (hy : x.next l = some y) : y.Consistent := by
  cases l <;> simp only [System.next] at hy
  case change =>
    obtain rfl := Option.some.inj hy
    exact h.quiet rfl rfl rfl rfl id .inr
  case endProxy =>
    obtain rfl := Option.some.inj hy
    exact h.quiet rfl rfl rfl rfl id .inr
  case refresh =>
    obtain rfl := Option.some.inj hy
    exact h.quiet rfl rfl rfl rfl id fun ⟨f, hf, ha⟩ => .inr ⟨f, by simp [hf], ha⟩
  case onProxyInitialization =>
    split_ifs at hy
    obtain rfl := Option.some.inj hy
    exact h.quiet rfl rfl rfl rfl id fun ⟨f, hf, ha⟩ => .inr ⟨f, by simp [hf], ha⟩
  case unregister i =>
    split at hy <;> cases hy
    rename_i b hf
    exact ⟨rfl, nofun, .inr (.inr ⟨_, mem_setStage hf, .inl rfl⟩)⟩
  case respond i =>
    split at hy <;> cases hy
    rename_i b hf
    exact h.quiet rfl rfl rfl rfl id fun _ => .inr ⟨_, mem_setStage hf, .inr ⟨_, rfl⟩⟩
  case fail i => exact hl.elim
  case receive i =>
    split at hy <;> cases hy
    · exact h.quiet rfl rfl rfl rfl (fun _ => by simp) fun _ => .inl (by simp)
    · rename_i b hf
      exact h.quiet rfl rfl rfl rfl id fun ha =>
        .inr (awaits_setStage hf (not_awaits (by simp) (by simp)) ha)
  case runTask k =>
    split at hy <;> cases hy
    refine ⟨⟨h.accounts, rfl⟩, fun r hr => ?_, .inl nofun⟩
    obtain rfl := Option.some.inj hr
    exact ⟨rfl, rfl⟩
  case fetchReverseProxies i response =>
    split at hy <;> cases hy
    rename_i b hf
    exact h.quiet rfl rfl rfl rfl id fun ha =>
      .inr (awaits_setStage hf (not_awaits (by simp) (by simp)) ha)
  case runReverseProxyTask k =>
    split at hy <;> cases hy
    exact h.quiet rfl rfl rfl rfl id .inr
  case accept i =>
    split at hy <;> cases hy
    rename_i b hf
    exact h.quiet rfl rfl rfl rfl id fun ha =>
      .inr (awaits_setStage hf (not_awaits (by simp) (by simp)) ha)

end Steps

theorem untouched_or_consistent {backend : ServerList} {registered : List ServerInfo}
    {x : System} (h : Runs System.next Successful (.start backend registered) x) :
    x.Untouched ∨ x.Consistent := by
  have hstart : (System.start backend registered).Untouched :=
    ⟨fun f hf => absurd hf List.not_mem_nil, rfl, rfl⟩
  refine h.invariant (I := fun x => x.Untouched ∨ x.Consistent) (fun y l z hy hl hz => ?_)
    (.inl hstart)
  rcases hy with hy | hy
  · exact hy.next hz
  · exact .inr (hy.next hl hz)

/-! ## When the proxy shows the latest response -/

section Shows

variable {x : System} {L : ServerList}

/-- The servers of a task are there until the next unregistration. -/
theorem System.Shows.brings (hx : x.Consistent) (h : x.Shows L) {r : Run} (hr : r ∈ x.ran)
    {s : ServerData} (hs : s ∈ r.brings) : s ∈ L.entries := by
  obtain ⟨t, ht, hts⟩ :=
    (h.registered _).mp ((hx.accounts.mem_iff s.serverInfo).mpr ⟨r, hr, s, hs, rfl⟩)
  exact ServerData.serverInfo_injective hts ▸ ht

/-- A last task with the servers of the list registers all of them if the tasks before it
have registered no other. -/
theorem System.Consistent.shows (hx : x.Consistent) {r : Run} {ran : List Run}
    (hran : x.ran = r :: ran) (hlast : ∀ s, s ∈ r.servers.entries ↔ s ∈ L.entries)
    (hbrings : ∀ r ∈ ran, ∀ s ∈ r.brings, s ∈ L.entries) : x.Shows L := by
  obtain ⟨hdataStore, hservers⟩ := hx.shown r (by simp [hran])
  have haccounts := hx.accounts
  rw [hran] at haccounts
  obtain ⟨hbefore, hregistered⟩ := haccounts
  have hsub : ∀ i ∈ r.registered, ∃ s ∈ L.entries, s.serverInfo = i := by
    intro i hi
    obtain ⟨r', hr', s, hs, rfl⟩ := (hbefore.mem_iff i).mp hi
    exact ⟨s, hbrings r' hr' s hs, rfl⟩
  have hall : brings r.registered r.servers.entries = r.servers.entries :=
    brings_of_subset hsub fun s hs => (hlast s).mp hs
  constructor
  · intro i
    rw [hregistered, mem_populateServers, hall]
    constructor
    · rintro (hi | ⟨s, hs, rfl⟩)
      · exact hsub i hi
      · exact ⟨s, (hlast s).mp hs, rfl⟩
    · rintro ⟨s, hs, rfl⟩
      exact .inr ⟨s, (hlast s).mpr hs, rfl⟩
  · intro e
    rw [hservers, servers_populateServers r.servers hall, List.mem_map]
    simp only [hlast]
  · intro s
    rw [hdataStore, hlast]

end Shows

/-- After all refreshes the proxy shows the latest response if and only if the last task
had its servers, and no task since the last unregistration, up to the first server whose
name it found taken by another, had a server that is not among them. -/
theorem shows_iff {backend : ServerList} {registered : List ServerInfo} {x : System}
    {L : ServerList} (h : Runs System.next Successful (.start backend registered) x)
    (hcomplete : x.Complete) (hlatest : x.latest = some L) :
    x.Shows L ↔ (∃ r ∈ x.ran.head?, ∀ s, s ∈ r.servers.entries ↔ s ∈ L.entries) ∧
      ∀ r ∈ x.ran, ∀ s ∈ r.brings, s ∈ L.entries := by
  have hx : x.Consistent := by
    rcases untouched_or_consistent h with hx | hx
    · cases hx.latest.symm.trans hlatest
    · exact hx
  have hran : x.ran ≠ [] := by
    rcases hx.pending with hran | htasks | ⟨f, hf, hawaits⟩
    · exact hran
    · exact absurd hcomplete.tasks htasks
    · rcases hawaits with hstage | ⟨_, hstage⟩ <;> cases (hcomplete.flows f hf).symm.trans hstage
  obtain ⟨r, ran, hran⟩ := List.exists_cons_of_ne_nil hran
  constructor
  · intro hshows
    refine ⟨⟨r, by simp [hran], fun s => ?_⟩, fun r hr s hs => hshows.brings hx hr hs⟩
    rw [← (hx.shown r (by simp [hran])).1, hshows.dataStore]
  · rintro ⟨⟨r', hr', hlast⟩, hbrings⟩
    obtain rfl : r = r' := by simpa [hran] using hr'
    exact hx.shows hran hlast fun r hr => hbrings r (by simp [hran, hr])

def survival : ServerData := ⟨"survival", "minecraft-survival.minikura.svc.cluster.local", 25565⟩
def lobby : ServerData := ⟨"lobby", "minecraft-lobby.minikura.svc.cluster.local", 25565⟩

def both : ServerList := ⟨[survival, lobby], by decide⟩
def lobbyOnly : ServerList := ⟨[lobby], by decide⟩

/-- The initialization runs to its end before the refresh for a deletion starts. -/
def inTurn : List Label := [
  .onProxyInitialization, .unregister 0, .respond 0, .receive 0, .runTask 0,
  .fetchReverseProxies 0 (some []), .accept 0, .change lobbyOnly,
  .refresh, .unregister 1, .respond 1, .receive 1, .runTask 0, .fetchReverseProxies 1 (some [])]

/-- The deletion comes while the initialization waits for its response, and both refreshes
have unregistered the servers before either task runs. -/
def overlapping : List Label := [
  .onProxyInitialization, .unregister 0, .respond 0, .change lobbyOnly,
  .refresh, .unregister 1, .respond 1, .receive 0, .receive 1, .runTask 0, .runTask 0,
  .fetchReverseProxies 0 (some []), .fetchReverseProxies 1 (some []), .accept 0]

theorem shows_iff_inTurn : ∃ x : System, x.registered = [lobby.serverInfo] ∧
    (x.Shows lobbyOnly ↔
      (∃ r ∈ x.ran.head?, ∀ s, s ∈ r.servers.entries ↔ s ∈ lobbyOnly.entries) ∧
      ∀ r ∈ x.ran, ∀ s ∈ r.brings, s ∈ lobbyOnly.entries) := by
  obtain ⟨x, hrun, hflows, htasks, hlatest, hregistered⟩ : ∃ x : System,
      runLabels System.next (.start both []) inTurn = some x ∧
      x.flows = [⟨true, .finished⟩, ⟨false, .finished⟩] ∧ x.tasks = [] ∧
      x.latest = some lobbyOnly ∧ x.registered = [lobby.serverInfo] := ⟨_, rfl, rfl, rfl, rfl, rfl⟩
  exact ⟨x, hregistered, shows_iff (runs_of_labels (by simp [inTurn, Successful]) hrun)
    ⟨by simp [hflows], htasks⟩ hlatest⟩

/-- The deleted server stays registered. -/
theorem stale_server_registered : ¬ ∀ (backend : ServerList) (registered : List ServerInfo)
    (x : System) (L : ServerList),
    Runs System.next Successful (.start backend registered) x → x.Complete →
    x.latest = some L → x.Shows L := by
  intro h
  obtain ⟨x, hrun, hflows, htasks, hlatest, hregistered⟩ : ∃ x : System,
      runLabels System.next (.start both []) overlapping = some x ∧
      x.flows = [⟨true, .finished⟩, ⟨false, .finished⟩] ∧ x.tasks = [] ∧
      x.latest = some lobbyOnly ∧ x.registered = [survival.serverInfo, lobby.serverInfo] :=
    ⟨_, rfl, rfl, rfl, rfl, rfl⟩
  have hshows := h both [] x lobbyOnly
    (runs_of_labels (by simp [overlapping, Successful]) hrun) ⟨by simp [hflows], htasks⟩ hlatest
  have hsurvival : survival.serverInfo ∈ x.registered := by simp [hregistered]
  obtain ⟨s, hs, hinfo⟩ := (hshows.registered _).mp hsurvival
  rw [List.mem_singleton.mp hs] at hinfo
  exact absurd hinfo (by decide)

end Minikura.Velocity
