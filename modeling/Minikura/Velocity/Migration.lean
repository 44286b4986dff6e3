import Mathlib.Algebra.Order.Floor.Div
import Minikura.Velocity.EndProxy

/-!
# Migration before the shutdown

The migration task takes the next batch of the snapshot at each of its ticks and handles its
players one after another; between any two of its steps players come and go, and the
shutdown monitor ticks.

## Main definitions

* `migratePlayer` — what becomes of one player of a batch.
* `Shutdown.next` — the steps of the task, of the monitor and of the players.

## Main results

* `Shutdown.Progress.next` — how far the batches are is preserved by every step.
* `players_migrated_before_shutdown` — every player is in one batch, and handled before the end.
-/

namespace Minikura.Velocity
open Concurrency

inductive TaskStatus where
  | scheduled
  | cancelled
  | finished
deriving Repr, DecidableEq

/-- What became of a player of a batch. -/
inductive Handling where
  /-- The player is on no server, or gone. -/
  | skipped
  | transferred (cookie : ByteArray) (host : String × Nat)
  /-- Something was thrown, and the player is told why the connection ends. -/
  | failed (disconnected : Option String)

/-- The body of `batch.forEach`, for a player as it is then. -/
def migratePlayer (sign : String → DecodedJWT → String) (proxy : Proxy) (task : Migration)
    (player : Player) (mintedAt : Int) (thrown : Bool) : Handling :=
  match mintCookie sign proxy player mintedAt with
  | none => .skipped
  | some cookie =>
    if thrown then
      .failed (if task.disconnectFailed then
        some "Failed to migrate you to the target server. Please reconnect." else none)
    else .transferred cookie task.targetAddress

/-- `players.subList(fromIndex, toIndex)`, if it does not throw. -/
def subList {α : Type} (players : List α) (fromIndex toIndex : ℕ) : Option (List α) :=
  if fromIndex ≤ toIndex ∧ toIndex ≤ players.length then
    some ((players.take toIndex).drop fromIndex)
  else none

/-- The part from `batches` on only records what has happened. -/
structure Shutdown where
  task : Migration
  currentIndex : ℕ := 0
  status : TaskStatus := .scheduled
  /-- What a tick under way has left of its batch. -/
  batch : List Player := []
  allPlayers : List Player
  /-- The players the monitor has disconnected. -/
  disconnected : List Player := []
  /-- `server.shutdown()` has been called. -/
  isShutdown : Bool := false
  batches : List (List Player) := []
  handled : List (Player × Handling) := []
  ticks : ℕ := 0
  /-- `subList` has thrown. -/
  outOfRange : Bool := false

/-- `endProxy`, if it schedules the task and the monitor. -/
def Shutdown.start (redis : RedisBungee) (reverseProxyServers : List ReverseProxyServerData)
    (allPlayers : List Player) : Option Shutdown :=
  (endProxy redis reverseProxyServers allPlayers).migration.map fun task => { task, allPlayers }

inductive ShutdownLabel where
  /-- The migration task runs, up to its `forEach`. -/
  | tick
  /-- The next player of the batch, as it is now, is handled. -/
  | handle (player : Player) (mintedAt : Int) (thrown : Bool)
  | monitor
  /-- Players come and go. -/
  | players (allPlayers : List Player)

namespace Shutdown

variable (sign : String → DecodedJWT → String) (proxy : Proxy)

def next (x : Shutdown) : ShutdownLabel → Option Shutdown
  | .tick =>
    if x.status ≠ .scheduled ∨ x.batch ≠ [] then none
    else
      let players := x.task.players
      if x.currentIndex ≥ players.length then
        some { x with status := .cancelled, ticks := x.ticks + 1 }
      else
        let size := batchSize players.length
        match subList players x.currentIndex (min (x.currentIndex + size) players.length) with
        | none => some { x with outOfRange := true, ticks := x.ticks + 1 }
        | some batch => some { x with
            currentIndex := x.currentIndex + size
            batch
            batches := x.batches ++ [batch]
            ticks := x.ticks + 1 }
  | .handle player mintedAt thrown =>
    match x.batch with
    | [] => none
    | it :: rest =>
      if player.uniqueId ≠ it.uniqueId then none
      else some { x with
        batch := rest
        handled := x.handled ++ [(it, migratePlayer sign proxy x.task player mintedAt thrown)] }
  | .monitor =>
    if x.status ≠ .finished ∧ x.status ≠ .cancelled then some x
    else some { x with disconnected := x.disconnected ++ x.allPlayers, isShutdown := true }
  | .players allPlayers => some { x with allPlayers }

/-! ## The invariant -/

/-- The batches taken so far are the players before the cursor. -/
structure Progress (x : Shutdown) : Prop where
  taken : x.batches.flatten = x.task.players.take x.currentIndex
  handled : x.handled.map Prod.fst ++ x.batch = x.batches.flatten
  nth : ∀ k batch, x.batches[k]? = some batch →
    batch = (x.task.players.drop (k * batchSize x.task.players.length)).take
      (batchSize x.task.players.length)
  cursor : x.currentIndex = x.batches.length * batchSize x.task.players.length
  started : x.batches.length ≤ x.task.players.length ⌈/⌉ batchSize x.task.players.length
  ticks : x.ticks = x.batches.length + if x.status = .cancelled then 1 else 0
  inRange : x.outOfRange = false
  running : x.status ≠ .finished
  cancelled : x.status = .cancelled → x.task.players.length ≤ x.currentIndex ∧ x.batch = []
  closing : x.isShutdown = true ∨ x.disconnected ≠ [] → x.status = .cancelled

variable {sign proxy} {x y : Shutdown} {l : ShutdownLabel}

theorem subList_batch {α : Type} {players : List α} {i size : ℕ} (h : i < players.length) :
    subList players i (min (i + size) players.length) = some ((players.drop i).take size) := by
  rw [subList, if_pos ⟨by omega, by omega⟩]
  congr 1
  rw [List.drop_take]
  rcases Nat.le_total (i + size) players.length with hle | hle
  · rw [Nat.min_eq_left hle, Nat.add_sub_cancel_left]
  · rw [Nat.min_eq_right hle, List.take_of_length_le (by simp), List.take_of_length_le]
    simp only [List.length_drop]
    omega

theorem next_task (h : x.next sign proxy l = some y) : y.task = x.task := by
  cases l <;> simp only [next] at h
  case tick =>
    split_ifs at h
    · obtain rfl := Option.some.inj h
      rfl
    · split at h <;> cases h <;> rfl
  case handle player mintedAt thrown =>
    split at h
    · cases h
    · split_ifs at h
      obtain rfl := Option.some.inj h
      rfl
  case monitor =>
    split_ifs at h <;> cases h <;> rfl
  case players =>
    obtain rfl := Option.some.inj h
    rfl

/-- A tick either takes the next batch or, past the last one, cancels the task. -/
theorem next_tick (h : x.next sign proxy .tick = some y) :
    x.status = .scheduled ∧ x.batch = [] ∧
    ((x.task.players.length ≤ x.currentIndex ∧
        y = { x with status := .cancelled, ticks := x.ticks + 1 }) ∨
      ∃ batch, x.currentIndex < x.task.players.length ∧
        batch = (x.task.players.drop x.currentIndex).take (batchSize x.task.players.length) ∧
        y = { x with
          currentIndex := x.currentIndex + batchSize x.task.players.length
          batch
          batches := x.batches ++ [batch]
          ticks := x.ticks + 1 }) := by
  simp only [next] at h
  split_ifs at h with hready hend
  · push Not at hready
    exact ⟨hready.1, hready.2, .inl ⟨hend, (Option.some.inj h).symm⟩⟩
  · push Not at hready
    rw [subList_batch (by omega)] at h
    exact ⟨hready.1, hready.2, .inr ⟨_, by omega, rfl, (Option.some.inj h).symm⟩⟩

theorem Progress.tick (h : x.Progress) (hy : x.next sign proxy .tick = some y) : y.Progress := by
  obtain ⟨hstatus, hbatch, ⟨hend, rfl⟩ | ⟨batch, hlt, hbatch', rfl⟩⟩ := next_tick hy
  · refine ⟨h.taken, h.handled, h.nth, h.cursor, h.started, ?_, h.inRange, nofun,
      fun _ => ⟨hend, hbatch⟩, fun _ => rfl⟩
    simp [h.ticks, hstatus]
  · have hnext : x.batches.length + 1 ≤
        x.task.players.length ⌈/⌉ batchSize x.task.players.length := by
      by_contra hle
      have hcovered := (ceilDiv_le_iff_le_mul (batchSize_pos _)).mp (Nat.le_of_lt_succ
        (Nat.lt_of_not_le hle))
      rw [Nat.mul_comm, ← h.cursor] at hcovered
      omega
    constructor
    · dsimp only
      rw [List.flatten_concat, h.taken, hbatch', ← List.take_add]
    · dsimp only
      rw [List.flatten_concat, ← h.handled, hbatch, List.append_nil]
    · intro k batch'' hk
      rcases Nat.lt_trichotomy k x.batches.length with hlt' | rfl | hgt
      · exact h.nth k batch'' (by rwa [List.getElem?_append_left hlt'] at hk)
      · rw [List.getElem?_concat_length, Option.some.injEq] at hk
        rw [← hk, hbatch', h.cursor]
      · rw [List.getElem?_eq_none (by simp; omega)] at hk
        cases hk
    · simp [h.cursor, Nat.add_mul]
    · simpa using hnext
    · simp [h.ticks, hstatus]
    · exact h.inRange
    · exact h.running
    · intro hc
      cases hstatus.symm.trans hc
    · intro hc
      cases hstatus.symm.trans (h.closing hc)

theorem Progress.next (h : x.Progress) (hy : x.next sign proxy l = some y) : y.Progress := by
  cases l with
  | tick => exact h.tick hy
  | handle player mintedAt thrown =>
    simp only [Shutdown.next] at hy
    split at hy
    · cases hy
    · next it rest hbatch =>
      split_ifs at hy
      obtain rfl := Option.some.inj hy
      refine ⟨h.taken, ?_, h.nth, h.cursor, h.started, h.ticks, h.inRange, h.running,
        fun hc => ?_, h.closing⟩
      · rw [← h.handled, hbatch]
        simp
      · cases hbatch.symm.trans (h.cancelled hc).2
  | monitor =>
    simp only [Shutdown.next] at hy
    split_ifs at hy with hwait
    · obtain rfl := Option.some.inj hy
      exact h
    · obtain rfl := Option.some.inj hy
      have hcancelled : x.status = .cancelled := by
        by_contra hne
        exact hwait ⟨h.running, hne⟩
      exact ⟨h.taken, h.handled, h.nth, h.cursor, h.started, h.ticks, h.inRange, h.running,
        h.cancelled, fun _ => hcancelled⟩
  | players allPlayers =>
    obtain rfl := Option.some.inj hy
    exact ⟨h.taken, h.handled, h.nth, h.cursor, h.started, h.ticks, h.inRange, h.running,
      h.cancelled, h.closing⟩

theorem progress_start (task : Migration) (allPlayers : List Player) :
    ({ task, allPlayers } : Shutdown).Progress where
  taken := (List.take_zero).symm
  handled := rfl
  nth := nofun
  cursor := (Nat.zero_mul _).symm
  started := Nat.zero_le _
  ticks := rfl
  inRange := rfl
  running := nofun
  cancelled := nofun
  closing := by simp

/-- Once the task is cancelled, everyone has been handled. -/
theorem Progress.all_handled (h : x.Progress) (hc : x.status = .cancelled) :
    x.batches.flatten = x.task.players ∧ x.handled.map Prod.fst = x.task.players := by
  obtain ⟨hend, hbatch⟩ := h.cancelled hc
  have htaken : x.batches.flatten = x.task.players := by
    rw [h.taken, List.take_of_length_le hend]
  refine ⟨htaken, ?_⟩
  have hhandled := h.handled
  rwa [hbatch, List.append_nil, htaken] at hhandled

/-- The tick after the last batch cancels the task, and no other one does. -/
theorem Progress.cancels_iff (h : x.Progress) (hy : x.next sign proxy .tick = some y) :
    y.status = .cancelled ↔ x.batches.flatten = x.task.players := by
  have hlength : x.batches.flatten = x.task.players ↔
      x.task.players.length ≤ x.currentIndex := by
    rw [h.taken, List.take_eq_self_iff]
  rw [hlength]
  obtain ⟨hstatus, -, ⟨hend, rfl⟩ | ⟨batch, hlt, -, rfl⟩⟩ := next_tick hy
  · simp [hend]
  · simp [hstatus, hlt]

/-- The task is never stuck before it is cancelled. -/
theorem next_of_scheduled (h : x.status = .scheduled) :
    (∃ y, x.next sign proxy .tick = some y) ∨
      ∃ player y, x.next sign proxy (.handle player 0 false) = some y := by
  cases hbatch : x.batch with
  | nil =>
    left
    rw [← Option.isSome_iff_exists]
    simp only [next, h, hbatch]
    split_ifs
    · simp_all
    · rfl
    · split <;> rfl
  | cons it rest => exact .inr ⟨it, by simp [next, hbatch]⟩

end Shutdown

/-- However the ticks of the two tasks interleave and whatever the transfers throw: batch `k`
has the players from `k * size` on; the batches, and the players handled, are the players of
the snapshot in order; no range is wrong; the task goes on until the first tick after the
last batch cancels it, and there are no more ticks than batches and one; and whoever is
disconnected by the monitor, or finds the proxy shut down, finds every player handled. -/
theorem players_migrated_before_shutdown {sign : String → DecodedJWT → String} {proxy : Proxy}
    {redis : RedisBungee} {reverseProxyServers : List ReverseProxyServerData}
    {allPlayers : List Player} {s x : Shutdown}
    (hs : Shutdown.start redis reverseProxyServers allPlayers = some s)
    (run : Runs (Shutdown.next sign proxy) Anything s x) :
    let players := s.task.players
    let size := max 1 (players.length / 20)
    (∀ k batch, x.batches[k]? = some batch → batch = (players.drop (k * size)).take size) ∧
    x.batches.flatten <+: players ∧ x.handled.map Prod.fst <+: x.batches.flatten ∧
    x.outOfRange = false ∧
    (∀ y, x.next sign proxy .tick = some y →
      (y.status = .cancelled ↔ x.batches.flatten = players)) ∧
    (x.status = .scheduled → (∃ y, x.next sign proxy .tick = some y) ∨
      ∃ player y, x.next sign proxy (.handle player 0 false) = some y) ∧
    x.ticks ≤ players.length ⌈/⌉ size + 1 ∧
    (x.status = .cancelled ∨ x.isShutdown = true ∨ x.disconnected ≠ [] →
      x.batches.flatten = players ∧ x.handled.map Prod.fst = players) := by
  have hstart : s.Progress := by
    rw [Shutdown.start, Option.map_eq_some_iff] at hs
    obtain ⟨task, -, rfl⟩ := hs
    exact Shutdown.progress_start task allPlayers
  obtain ⟨hx, htask⟩ : x.Progress ∧ x.task = s.task :=
    run.invariant (I := fun x => x.Progress ∧ x.task = s.task)
      (fun _ _ _ h _ hy => ⟨h.1.next hy, (Shutdown.next_task hy).trans h.2⟩) ⟨hstart, rfl⟩
  rw [← htask]
  refine ⟨hx.nth, ?_, ?_, hx.inRange, fun y hy => hx.cancels_iff hy,
    Shutdown.next_of_scheduled, ?_, fun hend => ?_⟩
  · rw [hx.taken]
    exact List.take_prefix _ _
  · rw [← hx.handled]
    exact List.prefix_append _ _
  · have hticks := hx.ticks
    have hstarted := hx.started
    rw [batchSize] at hstarted
    split_ifs at hticks <;> omega
  · refine hx.all_handled ?_
    rcases hend with hc | hend
    · exact hc
    · exact hx.closing hend

def alex : Player := ⟨"ec561538-f3fd-461d-aff5-086b22154bce", none, true⟩

def edgeB : ReverseProxyServerData := ⟨"proxy-b", "b.example.net", 25565⟩

/-- RedisBungee on `proxy-a`, with two players there. -/
def redisA : RedisBungee where
  proxyId := "proxy-a"
  allProxies := ["proxy-a", "proxy-b"]
  playersOnProxy _ := [steve.uniqueId, alex.uniqueId]

/-- One transfer throws; the monitor ticks before the last batch, and after the end. -/
def twoBatches : List ShutdownLabel := [
  .tick, .handle steve 0 true, .monitor, .tick, .monitor, .handle alex 0 false, .tick, .monitor]

theorem players_migrated_before_shutdown_two : ∃ x : Shutdown, x.isShutdown = true ∧
    x.handled.map Prod.fst = [steve, alex] := by
  obtain ⟨x, hrun, hshutdown⟩ : ∃ x : Shutdown,
      runLabels (Shutdown.next signSteve proxyA)
        { task := ⟨[steve, alex], ("b.example.net", 25565), true⟩, allPlayers := [steve, alex] }
        twoBatches = some x ∧ x.isShutdown = true := ⟨_, rfl, rfl⟩
  obtain ⟨-, -, -, -, -, -, -, hend⟩ := @players_migrated_before_shutdown signSteve proxyA
    redisA [edgeB] [steve, alex] _ _ rfl (runs_of_labels (fun _ _ _ => trivial) hrun)
  exact ⟨x, hshutdown, (hend (.inr (.inl hshutdown))).2⟩

end Minikura.Velocity
