import Minikura.Velocity.Proxy

/-!
# Admission of players

`acceptingTransfers` decides whether a player may log in. The initialization sets it when
its two requests have returned, with success or not and with their tasks still to run; `/end`
resets it, also before that.

## Main results

* `next_sound_iff` — a step makes the gate unsound only by setting the flag too early or late.
* `admission_sound` — if it is set in time, whoever is admitted finds servers.
-/

namespace Minikura.Velocity
open Concurrency

inductive PreLoginResult where
  | allowed
  | denied (message : String)
deriving Repr, DecidableEq

def onPreLogin (x : System) : PreLoginResult :=
  if !x.acceptingTransfers then
    .denied "Proxy are currently not accepting new connections."
  else .allowed

theorem onPreLogin_eq_allowed {x : System} :
    onPreLogin x = .allowed ↔ x.acceptingTransfers = true := by
  unfold onPreLogin
  cases x.acceptingTransfers <;> simp

/-- Whoever is admitted finds a populated proxy that has not been ended. -/
def System.Sound (x : System) : Prop :=
  onPreLogin x = .allowed → x.populated = true ∧ x.ended = false

/-- The initialization sets the flag after `populateServers` has completed for some list,
and not after `/end`. -/
def InTime (x : System) : Label → Prop
  | .accept _ => x.populated = true ∧ x.ended = false
  | _ => True

section Steps

variable {x y : System} {l : Label}

theorem sound_iff {x : System} :
    x.Sound ↔ (x.acceptingTransfers = true → x.populated = true ∧ x.ended = false) := by
  rw [System.Sound, onPreLogin_eq_allowed]

/-- What the steps do to the flag and to what has to hold with it. -/
theorem next_flags (h : x.next l = some y) :
    (l = .endProxy ∧ y.acceptingTransfers = false) ∨
    (∃ i, l = .accept i ∧ y.acceptingTransfers = true ∧ y.populated = x.populated ∧
      y.ended = x.ended) ∨
    ((∀ i, l ≠ .accept i) ∧ y.acceptingTransfers = x.acceptingTransfers ∧
      (x.populated = true → y.populated = true) ∧ y.ended = x.ended) := by
  cases l <;> simp only [System.next] at h
  case endProxy => exact .inl ⟨rfl, Option.some.inj h ▸ rfl⟩
  case accept i =>
    split at h <;> cases h
    exact .inr (.inl ⟨i, rfl, rfl, rfl, rfl⟩)
  case change =>
    obtain rfl := Option.some.inj h
    exact .inr (.inr ⟨nofun, rfl, id, rfl⟩)
  case refresh =>
    obtain rfl := Option.some.inj h
    exact .inr (.inr ⟨nofun, rfl, id, rfl⟩)
  case onProxyInitialization =>
    split_ifs at h
    obtain rfl := Option.some.inj h
    exact .inr (.inr ⟨nofun, rfl, id, rfl⟩)
  case runTask k =>
    split at h <;> cases h
    exact .inr (.inr ⟨nofun, rfl, fun hx => by simp [hx], rfl⟩)
  all_goals
    split at h <;> cases h
    all_goals exact .inr (.inr ⟨nofun, rfl, id, rfl⟩)

/-- A sound gate becomes unsound only by setting the flag too early or too late. -/
theorem next_sound_iff (hx : x.Sound) (h : x.next l = some y) : y.Sound ↔ InTime x l := by
  rw [sound_iff] at hx ⊢
  rcases next_flags h with ⟨rfl, hflag⟩ | ⟨i, rfl, hflag, hpopulated, hended⟩ |
    ⟨hne, hflag, hpopulated, hended⟩
  · simp [hflag, InTime]
  · simp [hflag, hpopulated, hended, InTime]
  · have htime : InTime x l := by
      cases l with
      | accept i => exact absurd rfl (hne i)
      | _ => trivial
    refine ⟨fun _ => htime, fun _ hy => ?_⟩
    obtain ⟨hpop, hend⟩ := hx (hflag ▸ hy)
    exact ⟨hpopulated hpop, hended.trans hend⟩

end Steps

theorem sound_start (backend : ServerList) (registered : List ServerInfo) :
    (System.start backend registered).Sound := nofun

/-- If the flag is set in time, a player who is admitted finds servers, and the proxy has
not been ended. -/
theorem admission_sound {backend : ServerList} {registered : List ServerInfo} {x : System}
    (h : Runs System.next InTime (.start backend registered) x)
    (hadmitted : onPreLogin x = .allowed) : x.populated = true ∧ x.ended = false :=
  h.invariant (I := System.Sound) (fun _ _ _ hx hl hy => (next_sound_iff hx hy).mpr hl)
    (sound_start backend registered) hadmitted

def inTime (x : System) : Label → Bool
  | .accept _ => x.populated && !x.ended
  | _ => true

theorem inTime_sound (x : System) (l : Label) (h : inTime x l) : InTime x l := by
  cases l with
  | accept i => simpa [inTime, InTime] using h
  | _ => trivial

def noServers : ServerList := ⟨[], List.nodup_nil⟩

def hub : ServerData := ⟨"hub", "minecraft-hub.minikura.svc.cluster.local", 25565⟩

def hubOnly : ServerList := ⟨[hub], by decide⟩

/-- The task runs while the reverse proxies are fetched. -/
def prompt : List Label := [
  .onProxyInitialization, .unregister 0, .respond 0, .receive 0, .runTask 0,
  .fetchReverseProxies 0 (some []), .accept 0]

/-- The request of the initialization fails. -/
def failing : List Label := [
  .onProxyInitialization, .unregister 0, .fail 0, .receive 0,
  .fetchReverseProxies 0 none, .accept 0]

/-- `/end` comes before the initialization is through. -/
def revived : List Label := [
  .onProxyInitialization, .unregister 0, .respond 0, .receive 0, .runTask 0, .endProxy,
  .fetchReverseProxies 0 (some []), .accept 0]

theorem admission_sound_prompt : ∃ x : System, x.registered = [hub.serverInfo] ∧
    onPreLogin x = .allowed ∧ x.populated = true ∧ x.ended = false := by
  obtain ⟨x, hrun, hregistered, hadmitted⟩ : ∃ x : System,
      runChecked inTime System.next (.start hubOnly []) prompt = some x ∧
      x.registered = [hub.serverInfo] ∧ onPreLogin x = .allowed := ⟨_, rfl, rfl, rfl⟩
  exact ⟨x, hregistered, hadmitted,
    admission_sound (runs_of_checked inTime_sound hrun) hadmitted⟩

/-- Players are admitted although no list has been fetched. -/
theorem admission_unsound : ¬ ∀ x, Runs System.next Anything (.start noServers []) x →
    onPreLogin x = .allowed → x.populated = true ∧ x.ended = false := by
  intro h
  obtain ⟨x, hrun, hadmitted, hpopulated⟩ : ∃ x : System,
      runLabels System.next (.start noServers []) failing = some x ∧
      onPreLogin x = .allowed ∧ x.populated = false := ⟨_, rfl, rfl, rfl⟩
  have := h x (runs_of_labels (fun _ _ _ => trivial) hrun) hadmitted
  simp [hpopulated] at this

theorem admitted_after_end : ∃ x, Runs System.next Anything (.start noServers []) x ∧
    onPreLogin x = .allowed ∧ x.ended = true := by
  obtain ⟨x, hrun, hadmitted, hended⟩ : ∃ x : System,
      runLabels System.next (.start noServers []) revived = some x ∧
      onPreLogin x = .allowed ∧ x.ended = true := ⟨_, rfl, rfl, rfl⟩
  exact ⟨x, runs_of_labels (fun _ _ _ => trivial) hrun, hadmitted, hended⟩

end Minikura.Velocity
