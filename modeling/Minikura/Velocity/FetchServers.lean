import Minikura.Velocity.Refresh

/-!
# A refresh on its own

`fetchServers` unregisters every server before it asks the backend, and only an answer it can
parse schedules the task that registers servers again. If the request fails, the map and the
store keep what they had, and Velocity is left with no server.

## Main definitions

* `fetchServers` — the method, for each outcome of its HTTP call.

## Main results

* `runLabels_fetchServers` — a failing call is what the steps of a failing flow come to.
* `fetchServers_keeps_iff` — when a failing call leaves everything as it was.
-/

namespace Minikura.Velocity
open Concurrency

/-- What becomes of the HTTP call: an exception, also while the body is read, or a response. -/
inductive HttpOutcome where
  | exception
  | response (code : Nat) (body : Option String)
deriving Repr, DecidableEq

/-- `response.isSuccessful` -/
def isSuccessful (code : Nat) : Bool := 200 ≤ code && code ≤ 299

section

variable (fromJson : String → Option ServerList)

/-- `fromJson` is that of Gson for lists of servers, if it does not throw. -/
def parseServersData (responseBody : Option String) : Option ServerList :=
  match responseBody with
  | none => some ⟨[], List.nodup_nil⟩
  | some body => if body = "" then some ⟨[], List.nodup_nil⟩ else fromJson body

def fetchServers (x : System) (outcome : HttpOutcome) : System :=
  let x := { x with registered := [], ran := [] }
  match outcome with
  | .exception => x
  | .response code body =>
    if isSuccessful code then
      match parseServersData fromJson body with
      | some fetchedServers => { x with tasks := x.tasks ++ [fetchedServers] }
      | none => x
    else x

/-- Anything but a successful response with a body that can be parsed. -/
def HttpOutcome.Fails : HttpOutcome → Prop
  | .exception => True
  | .response code body => isSuccessful code = true → parseServersData fromJson body = none

end

/-- Velocity's servers, the map and the store are as before. -/
structure System.Keeps (x y : System) : Prop where
  registered : y.registered = x.registered
  servers : y.servers = x.servers
  dataStore : y.dataStore = x.dataStore

section

variable {fromJson : String → Option ServerList} {outcome : HttpOutcome} {x : System}

theorem fetchServers_of_fails (h : outcome.Fails fromJson) :
    fetchServers fromJson x outcome = { x with registered := [], ran := [] } := by
  cases outcome with
  | exception => rfl
  | response code body =>
    rw [fetchServers]
    dsimp only
    split_ifs with hcode
    · rw [h hcode]
    · rfl

/-- The steps of a flow whose request fails. -/
def failingFlow (i : Nat) : List Label := [.refresh, .unregister i, .fail i, .receive i]

/-- A failing call is what the steps of a flow of its own come to. -/
theorem runLabels_fetchServers (h : outcome.Fails fromJson) :
    ∃ y, runLabels System.next x (failingFlow x.flows.length) = some y ∧
      y = { fetchServers fromJson x outcome with flows := x.flows ++ [⟨false, .fetched⟩] } := by
  refine ⟨_, ?_, rfl⟩
  rw [fetchServers_of_fails h]
  have hlast : ∀ stage : Stage,
      (x.flows ++ [⟨false, stage⟩])[x.flows.length]? = some ⟨false, stage⟩ := by simp
  have hset : ∀ stage stage' : Stage,
      (x.flows ++ [(⟨false, stage⟩ : Flow)]).set x.flows.length ⟨false, stage'⟩ =
        x.flows ++ [⟨false, stage'⟩] := by simp
  simp only [failingFlow, runLabels, List.foldlM_cons, List.foldlM_nil, System.next,
    System.setStage, Option.bind_eq_bind, Option.bind_some, hlast, hset]
  rfl

/-- A failing call leaves the servers as they were if and only if none was registered. -/
theorem fetchServers_keeps_iff (h : outcome.Fails fromJson) :
    x.Keeps (fetchServers fromJson x outcome) ↔ x.registered = [] := by
  rw [fetchServers_of_fails h]
  constructor
  · exact fun hkeeps => hkeeps.registered.symm
  · exact fun hnone => ⟨hnone.symm, rfl, rfl⟩

end

/-- A proxy that knows the lobby. -/
def withLobby : System where
  backend := lobbyOnly
  registered := [lobby.serverInfo]
  servers := [(lobby.id, lobby.serverInfo)]
  dataStore := [lobby]

theorem fetchServers_keeps_iff_unavailable :
    withLobby.Keeps (fetchServers (fun _ => none) withLobby (.response 503 none)) ↔
      withLobby.registered = [] :=
  fetchServers_keeps_iff (by simp [HttpOutcome.Fails, isSuccessful])

/-- While the backend restarts, a refresh leaves the proxy without its server. -/
theorem failed_refresh_unregisters : ¬ ∀ (fromJson : String → Option ServerList)
    (outcome : HttpOutcome) (x : System), outcome.Fails fromJson →
    x.Keeps (fetchServers fromJson x outcome) := by
  intro h
  cases (h (fun _ => none) .exception withLobby trivial).registered

end Minikura.Velocity
