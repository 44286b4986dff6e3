import Minikura.Data.NumberText
import Minikura.Velocity.Proxy
import Minikura.Velocity.Transfer

/-!
# The end of a proxy

`/end` closes the proxy to new players and looks for another proxy to take those it has. If
there is one and the plugin knows its address, a task that moves them batch by batch is
scheduled, and a monitor that shuts the proxy down when the task is over.

## Main definitions

* `migratePlayersToServer` — the players and the address the scheduled task works with.
* `endProxy` — what is done when the command returns.

## Main results

* `batchSize_eq_floor` — a batch is a twentieth of the players, rounded down.
-/

namespace Minikura.Velocity

/-! ## Batches -/

/-- `(players.size * 0.05).coerceAtLeast(1.0).toInt()` -/
def batchSize (size : ℕ) : ℕ := max 1 (size / 20)

theorem batchSize_pos (size : ℕ) : 0 < batchSize size := by
  rw [batchSize]
  omega

theorem log_twentieth : Int.log 2 |(1 / 20 : ℚ)| = -5 := by
  have hceil : ⌈((1 / 20 : ℚ))⁻¹⌉₊ = 20 := by norm_num
  rw [abs_of_nonneg (by norm_num), Int.log_of_right_le_one _ (by norm_num), hceil]
  decide

/-- The double `0.05` is a little more than a twentieth. -/
theorem toDouble_twentieth : toDouble (1 / 20) = some (3602879701896397 / 2 ^ 56) := by
  have hround : roundHalfEven (1 / 20 / spacing (1 / 20)) = 7205759403792794 := by
    rw [spacing, log_twentieth]
    norm_num [roundHalfEven]
  have hsmall : |((7205759403792794 : ℤ) : ℚ) * spacing (1 / 20)| < 1 := by
    rw [spacing, log_twentieth]
    norm_num
  have hfinite : (1 : ℚ) < 2 ^ 1024 := one_lt_pow₀ (by norm_num) (by omega)
  rw [toDouble, hround, if_pos (hsmall.trans hfinite), spacing, log_twentieth]
  norm_num

/-- For every size of a list, the product of doubles is rounded down to the batch size. -/
theorem batchSize_eq_floor {size : ℕ} (h : size < 2 ^ 31) :
    ∃ factor product, toDouble (1 / 20) = some factor ∧ toDouble (size * factor) = some product ∧
      ⌊max product 1⌋ = batchSize size := by
  have hsize : (size : ℚ) < 2 ^ 31 := by exact_mod_cast h
  have hlarge : (size : ℚ) * (3602879701896397 / 2 ^ 56) < 2 ^ (26 + 1) := by linarith
  obtain ⟨product, hproduct, habove, hbelow⟩ :=
    exists_toDouble (by positivity) hlarge (by omega)
  refine ⟨_, product, toDouble_twentieth, hproduct, ?_⟩
  have hdivision : (size : ℚ) = 20 * (size / 20 : ℕ) + (size % 20 : ℕ) := by
    exact_mod_cast (Nat.div_add_mod size 20).symm
  have hrest : ((size % 20 : ℕ) : ℚ) ≤ 19 := by
    exact_mod_cast Nat.le_of_lt_succ (Nat.mod_lt size (by omega))
  have hnonneg : (0 : ℚ) ≤ (size % 20 : ℕ) := Nat.cast_nonneg _
  have herror : (2 : ℚ) ^ ((26 : ℕ) - 52 : ℤ) = 1 / 67108864 := by norm_num
  have hfloor : ⌊product⌋ = (size / 20 : ℕ) := by
    rw [Int.floor_eq_iff, Int.cast_natCast]
    constructor
    · exact habove _ (by linarith)
    · linarith
  have hmax : ⌊max product 1⌋ = max ⌊product⌋ 1 := by
    rw [Int.floor_mono.map_max, Int.floor_one]
  rw [hmax, hfloor, batchSize]
  omega

/-! ## The command -/

structure RedisBungee where
  proxyId : String
  allProxies : List String
  playersOnProxy : String → List String

/-- What the task scheduled by `migratePlayersToServer` works with. -/
structure Migration where
  players : List Player
  targetAddress : String × Nat
  disconnectFailed : Bool

def migratePlayersToServer (redis : RedisBungee) (allPlayers : List Player)
    (targetServer : ReverseProxyServerData) (disconnectFailed : Bool) : Migration where
  players :=
    let playerOnThisProxy := redis.playersOnProxy redis.proxyId
    allPlayers.filter fun it => playerOnThisProxy.contains it.uniqueId
  targetAddress := (targetServer.externalAddress, targetServer.externalPort)
  disconnectFailed

/-- `ServerDataStore.getReverseProxyServer` -/
def getReverseProxyServer (reverseProxyServers : List ReverseProxyServerData) (name : String) :
    Option ReverseProxyServerData :=
  reverseProxyServers.find? (·.id = name)

/-- What is done when `endProxy` returns. -/
structure Ended where
  acceptingTransfers : Bool := false
  /-- The players disconnected, with what they are told. -/
  disconnected : List (Player × String) := []
  /-- The migration task, if it is scheduled. -/
  migration : Option Migration := none
  /-- The shutdown monitor is scheduled. -/
  monitor : Bool := false

def endProxy (redis : RedisBungee) (reverseProxyServers : List ReverseProxyServerData)
    (allPlayers : List Player) : Ended :=
  match redis.allProxies.filter (· ≠ redis.proxyId) with
  | [] => {
      disconnected := allPlayers.map
        (·, "The proxy is being shut down. No other proxies are available.") }
  | nextProxy :: _ =>
    match getReverseProxyServer reverseProxyServers nextProxy with
    | none => {}
    | some targetServer => {
        migration := some (migratePlayersToServer redis allPlayers targetServer true)
        monitor := true }

section EndProxy

variable {redis : RedisBungee} {reverseProxyServers : List ReverseProxyServerData}
  {allPlayers : List Player} {nextProxy : String} {others : List String}

/-- With other proxies alive, everything depends on what is known of the first of them. -/
theorem endProxy_of_others (h : redis.allProxies.filter (· ≠ redis.proxyId) = nextProxy :: others) :
    endProxy redis reverseProxyServers allPlayers =
      { migration := (getReverseProxyServer reverseProxyServers nextProxy).map
          (migratePlayersToServer redis allPlayers · true)
        monitor := (getReverseProxyServer reverseProxyServers nextProxy).isSome } := by
  rw [endProxy, h]
  dsimp only
  cases getReverseProxyServer reverseProxyServers nextProxy <;> rfl

/-- The migration of a proxy that ends. -/
theorem endProxy_migration {migration : Migration}
    (h : (endProxy redis reverseProxyServers allPlayers).migration = some migration) :
    ∃ nextProxy ∈ redis.allProxies, nextProxy ≠ redis.proxyId ∧
      ∃ targetServer, getReverseProxyServer reverseProxyServers nextProxy = some targetServer ∧
        migration = migratePlayersToServer redis allPlayers targetServer true := by
  cases hothers : redis.allProxies.filter (· ≠ redis.proxyId) with
  | nil =>
    rw [endProxy, hothers] at h
    cases h
  | cons nextProxy others =>
    have hmem : nextProxy ∈ redis.allProxies.filter (· ≠ redis.proxyId) := by
      rw [hothers]
      exact List.mem_cons_self
    rw [endProxy_of_others hothers, Option.map_eq_some_iff] at h
    obtain ⟨targetServer, htarget, rfl⟩ := h
    exact ⟨nextProxy, List.mem_of_mem_filter hmem, by simpa using List.of_mem_filter hmem,
      targetServer, htarget, rfl⟩

end EndProxy

end Minikura.Velocity
