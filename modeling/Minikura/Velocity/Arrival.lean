import Minikura.Velocity.Refresh
import Minikura.Velocity.Transfer

/-!
# The arrival of a player

`onPlayerChooseInitialServer` asks the player for the cookie, then puts a future into
`cookieFutures` and waits for it. The response is handled on another thread, which looks the
future up first and completes it last, while other players come and go. A lookup before the
future is there finds none, and the player waits for nothing.

## Main definitions

* `chooseInitialServer` — the server chosen for what the future gives.
* `Arrival.next` — the steps of both threads, and those of other players.

## Main results

* `Arrival.Timed.next` — what every step preserves.
* `transferred_iff` — when the player gets to the server of the cookie.
-/

namespace Minikura.Velocity
open Concurrency

/-- What the two handlers read, for a player with a cookie. -/
structure Login where
  proxy : Proxy
  player : Player
  /-- `event.originalData` -/
  data : ByteArray
  /-- The `servers` map. -/
  servers : List (String × ServerInfo)
  dataStore : List ServerData
  /-- `event.initialServer` -/
  currentServer : Option ServerInfo
  /-- `server != currentServer` -/
  differs : ServerInfo → Bool

namespace Login

variable (login : Login)

def id : String := login.player.uniqueId

def cookieReceiveEvent : CookieReceiveEvent :=
  ⟨login.player, some "minikura:transfer_packet", some login.data⟩

/-- The initial server if there is no transfer. -/
def fallback : Option ServerInfo :=
  let sortedServers := login.dataStore.filterMap fun it => login.servers.lookup it.id
  (sortedServers.find? login.differs).or login.currentServer

/-- The initial server for what the future was completed with. -/
def chooseInitialServer (serverName : Option String) : Option ServerInfo :=
  match serverName.bind (List.lookup · login.servers) with
  | some targetServer => some targetServer
  | none => login.fallback

end Login

inductive ArrivalStage where
  | started
  /-- `player.requestCookie` has been called. -/
  | requested
  /-- The future is in `cookieFutures`. -/
  | registered
  | returned
deriving Repr, DecidableEq

inductive CookieResponse where
  | absent
  /-- The future has been looked up. -/
  | lookedUp (found : Bool)
  | handled
deriving Repr, DecidableEq

structure Arrival where
  cookieFutures : List (String × Future)
  stage : ArrivalStage := .started
  response : CookieResponse := .absent
  initialServer : Option ServerInfo
  /-- Only records that the lookup came before the registration. -/
  early : Bool := false

inductive ArrivalLabel where
  | request
  | register
  /-- `cookieFutures[event.player.uniqueId.toString()]` in `onCookieReceiveEvent`. -/
  | lookUp
  /-- The rest of `onCookieReceiveEvent`. -/
  | complete (verifiedAt checkedAt : Int)
  /-- `future.get` returns. -/
  | get
  | timeout
  /-- The future of another player is put, completed or removed. -/
  | other (id : String) (future : Option Future)

/-- Overwrite the future of a player, or remove it. -/
def putFuture (cookieFutures : List (String × Future)) (id : String) :
    Option Future → List (String × Future)
  | some future => setEntry cookieFutures id future
  | none => cookieFutures.filter (·.1 ≠ id)

theorem lookup_putFuture_ne {cookieFutures : List (String × Future)} {id id' : String}
    {future : Option Future} (h : id ≠ id') :
    (putFuture cookieFutures id' future).lookup id = cookieFutures.lookup id := by
  cases future with
  | some future => rw [putFuture, lookup_setEntry, if_neg h]
  | none => rw [putFuture, lookup_filter_ne, if_neg h]

/-- Before the first step there are only futures of other players. -/
def Login.start (login : Login) (cookieFutures : List (String × Future)) : Arrival where
  cookieFutures := cookieFutures.filter (·.1 ≠ login.id)
  initialServer := login.currentServer

namespace Arrival

variable (unsign : String → String → Option DecodedJWT) (login : Login)

def finish (x : Arrival) (initialServer : Option ServerInfo) : Arrival :=
  { x with
    stage := .returned
    cookieFutures := x.cookieFutures.filter (·.1 ≠ login.id)
    initialServer }

def next (x : Arrival) : ArrivalLabel → Option Arrival
  | .request =>
    match x.stage with
    | .started => some { x with stage := .requested }
    | _ => none
  | .register =>
    match x.stage with
    | .requested => some { x with
        stage := .registered
        cookieFutures := setEntry x.cookieFutures login.id .pending }
    | _ => none
  | .lookUp =>
    match x.stage, x.response with
    | .started, _ => none
    | stage, .absent => some { x with
        response := .lookedUp (x.cookieFutures.lookup login.id).isSome
        early := stage = .requested }
    | _, _ => none
  | .complete verifiedAt checkedAt =>
    match x.response with
    | .lookedUp true => some { x with
        response := .handled
        cookieFutures := (onCookieReceiveEvent unsign login.proxy verifiedAt checkedAt
          x.cookieFutures login.cookieReceiveEvent).1 }
    | .lookedUp false => some { x with response := .handled }
    | _ => none
  | .get =>
    match x.stage, x.cookieFutures.lookup login.id with
    | .registered, some (.completed serverName) =>
      some (x.finish login (login.chooseInitialServer serverName))
    | _, _ => none
  | .timeout =>
    match x.stage, x.cookieFutures.lookup login.id with
    | .registered, some .pending => some (x.finish login login.fallback)
    | _, _ => none
  | .other id future =>
    if id = login.id then none
    else some { x with cookieFutures := putFuture x.cookieFutures id future }

/-- The cookie grants the server when it is checked, and its response is handled before the
wait is over. -/
def InTime (server : String) (x : Arrival) : ArrivalLabel → Prop
  | .complete verifiedAt checkedAt =>
    ∃ jwt, Grants unsign login.proxy verifiedAt checkedAt login.player login.data server jwt
  | .timeout => x.response = .handled
  | _ => True

/-! ## The invariant -/

/-- What the future is at each point of the method. -/
structure Timed (server : String) (x : Arrival) : Prop where
  before : x.stage = .started ∨ x.stage = .requested → x.cookieFutures.lookup login.id = none
  found : ∀ found, x.response = .lookedUp found → found = !x.early
  unanswered : x.stage = .started → x.response = .absent
  late : x.stage = .requested → x.response ≠ .absent → x.early = true
  waiting : x.stage = .registered → x.cookieFutures.lookup login.id =
    if x.response = .handled ∧ x.early = false then some (.completed (some server))
    else some .pending
  returned : x.stage = .returned → x.response = .handled ∧
    x.initialServer = if x.early then login.fallback else login.chooseInitialServer (some server)

variable {unsign login} {server : String} {x y : Arrival} {l : ArrivalLabel}

theorem lookup_complete {verifiedAt checkedAt : Int} {jwt : DecodedJWT}
    (hgrants : Grants unsign login.proxy verifiedAt checkedAt login.player login.data server jwt)
    (h : x.cookieFutures.lookup login.id = some .pending) :
    (onCookieReceiveEvent unsign login.proxy verifiedAt checkedAt x.cookieFutures
      login.cookieReceiveEvent).1.lookup login.id = some (.completed (some server)) := by
  obtain ⟨value, hvalue, hiff⟩ := @lookup_onCookieReceiveEvent unsign login.proxy verifiedAt
    checkedAt login.player login.data _ h
  rw [Login.cookieReceiveEvent, Login.id, hvalue, (hiff server).mpr ⟨jwt, hgrants⟩]

theorem timed_start (cookieFutures : List (String × Future)) :
    (login.start cookieFutures).Timed login server where
  before _ := by rw [Login.start, lookup_filter_ne, if_pos rfl]
  found := nofun
  unanswered _ := rfl
  late := nofun
  waiting := nofun
  returned := nofun

/-- The response is handled when the method returns, and what it returns is as it should be. -/
theorem timed_finish {initialServer : Option ServerInfo} (hresponse : x.response = .handled)
    (hinitial : initialServer =
      if x.early then login.fallback else login.chooseInitialServer (some server)) :
    (x.finish login initialServer).Timed login server where
  before := by simp [finish]
  found found hfound := by cases hresponse.symm.trans hfound
  unanswered := nofun
  late := nofun
  waiting := nofun
  returned _ := ⟨hresponse, hinitial⟩

theorem Timed.complete (h : x.Timed login server) {verifiedAt checkedAt : Int}
    (hl : InTime unsign login server x (.complete verifiedAt checkedAt))
    (hy : x.next unsign login (.complete verifiedAt checkedAt) = some y) :
    y.Timed login server := by
  obtain ⟨jwt, hgrants⟩ := hl
  simp only [Arrival.next] at hy
  split at hy
  · next hlooked =>
    obtain rfl := Option.some.inj hy
    have hearly : x.early = false := by simpa using h.found true hlooked
    have hregistered : x.stage = .registered := by
      cases hstage : x.stage with
      | started => cases hlooked.symm.trans (h.unanswered hstage)
      | requested => simpa [hearly] using h.late hstage (by simp [hlooked])
      | registered => rfl
      | returned => cases hlooked.symm.trans (h.returned hstage).1
    have hpending : x.cookieFutures.lookup login.id = some .pending := by
      rw [h.waiting hregistered, hlooked]
      simp
    refine ⟨?_, nofun, ?_, fun _ _ => ?_, fun _ => ?_, ?_⟩
    · simp [hregistered]
    · simp [hregistered]
    · exact absurd hregistered (by simp_all)
    · simp [hearly, lookup_complete hgrants hpending]
    · simp [hregistered]
  · next hlooked =>
    obtain rfl := Option.some.inj hy
    have hearly : x.early = true := by simpa using h.found false hlooked
    refine ⟨h.before, nofun, fun hstage => ?_, fun _ _ => hearly, fun hstage => ?_,
      fun hstage => ?_⟩
    · cases hlooked.symm.trans (h.unanswered hstage)
    · simpa [hearly] using h.waiting hstage
    · cases hlooked.symm.trans (h.returned hstage).1
  · cases hy

theorem Timed.request (h : x.Timed login server) (hy : x.next unsign login .request = some y) :
    y.Timed login server := by
  simp only [Arrival.next] at hy
  split at hy
  · next hstage =>
    obtain rfl := Option.some.inj hy
    exact ⟨fun _ => h.before (.inl hstage), h.found, nofun,
      fun _ hne => absurd (h.unanswered hstage) hne, nofun, nofun⟩
  · cases hy

theorem Timed.register (h : x.Timed login server) (hy : x.next unsign login .register = some y) :
    y.Timed login server := by
  simp only [Arrival.next] at hy
  split at hy
  · next hstage =>
    obtain rfl := Option.some.inj hy
    refine ⟨by simp, h.found, nofun, nofun, fun _ => ?_, nofun⟩
    have hlate := h.late hstage
    -- whatever has been looked up by now was looked up early
    have hnot : ¬(x.response = .handled ∧ x.early = false) := by
      rintro ⟨hhandled, hearly⟩
      simpa [hearly] using hlate (by simp [hhandled])
    simp [hnot]
  · cases hy

theorem Timed.lookUp (h : x.Timed login server) (hy : x.next unsign login .lookUp = some y) :
    y.Timed login server := by
  simp only [Arrival.next] at hy
  split at hy
  · cases hy
  · next habsent hstarted =>
    obtain rfl := Option.some.inj hy
    refine ⟨h.before, fun found hfound => ?_, fun hstage => absurd hstage hstarted,
      fun hstage _ => by simpa using hstage, fun hstage => ?_, fun hstage => ?_⟩
    · obtain rfl := CookieResponse.lookedUp.inj hfound
      cases hstage : x.stage with
      | started => exact absurd hstage hstarted
      | requested => simp [h.before (.inr hstage)]
      | registered => simp [h.waiting hstage, habsent]
      | returned => cases habsent.symm.trans (h.returned hstage).1
    · have hwaiting := h.waiting hstage
      rw [habsent] at hwaiting
      simpa using hwaiting
    · cases habsent.symm.trans (h.returned hstage).1
  · cases hy

/-- A future that has its value was completed by the response, which came in time. -/
theorem Timed.get (h : x.Timed login server) (hy : x.next unsign login .get = some y) :
    y.Timed login server := by
  simp only [Arrival.next] at hy
  split at hy
  · next serverName hstage hcompleted =>
    obtain rfl := Option.some.inj hy
    have hwaiting := h.waiting hstage
    rw [hcompleted] at hwaiting
    split_ifs at hwaiting with hhandled
    · obtain ⟨hresponse, hearly⟩ := hhandled
      obtain rfl := Future.completed.inj (Option.some.inj hwaiting)
      exact timed_finish hresponse (by simp [hearly])
    · cases hwaiting
  · cases hy

/-- A future that has no value although the response was handled was registered too late. -/
theorem Timed.timeout (h : x.Timed login server) (hl : InTime unsign login server x .timeout)
    (hy : x.next unsign login .timeout = some y) : y.Timed login server := by
  simp only [Arrival.next] at hy
  split at hy
  · next hstage hpending =>
    obtain rfl := Option.some.inj hy
    have hwaiting := h.waiting hstage
    rw [hpending] at hwaiting
    have hearly : x.early = true := by
      by_contra hne
      rw [if_pos ⟨hl, by simpa using hne⟩] at hwaiting
      cases hwaiting
    exact timed_finish hl (by simp [hearly])
  · cases hy

/-- The futures of other players do not matter. -/
theorem Timed.other {id : String} {future : Option Future} (h : x.Timed login server)
    (hy : x.next unsign login (.other id future) = some y) : y.Timed login server := by
  simp only [Arrival.next] at hy
  split_ifs at hy with hid
  obtain rfl := Option.some.inj hy
  have hlookup : (putFuture x.cookieFutures id future).lookup login.id =
      x.cookieFutures.lookup login.id := lookup_putFuture_ne (Ne.symm hid)
  exact ⟨fun hstage => hlookup.trans (h.before hstage), h.found, h.unanswered, h.late,
    fun hstage => hlookup.trans (h.waiting hstage), h.returned⟩

theorem Timed.next (h : x.Timed login server) (hl : InTime unsign login server x l)
    (hy : x.next unsign login l = some y) : y.Timed login server := by
  cases l with
  | complete verifiedAt checkedAt => exact h.complete hl hy
  | request => exact h.request hy
  | register => exact h.register hy
  | lookUp => exact h.lookUp hy
  | get => exact h.get hy
  | timeout => exact h.timeout hl hy
  | other id future => exact h.other hy

end Arrival

/-- A player whose cookie grants a server of the map gets there if and only if the response
is not handled before the future is registered, or the player is sent there anyway. -/
theorem transferred_iff {unsign : String → String → Option DecodedJWT} {login : Login}
    {server : String} {targetServer : ServerInfo} {cookieFutures : List (String × Future)}
    {x : Arrival} (htarget : login.servers.lookup server = some targetServer)
    (run : Runs (Arrival.next unsign login) (Arrival.InTime unsign login server)
      (login.start cookieFutures) x)
    (hreturned : x.stage = .returned) :
    x.initialServer = some targetServer ↔
      x.early = false ∨ login.fallback = some targetServer := by
  have hx : x.Timed login server :=
    run.invariant (fun _ _ _ h hl hy => h.next hl hy) (Arrival.timed_start cookieFutures)
  rw [(hx.returned hreturned).2]
  cases x.early <;> simp [Login.chooseInitialServer, htarget]

/-- A player from the lobby of `proxy-a` arrives on `proxy-b`. -/
def steveLogin : Login where
  proxy := proxyB
  player := steve
  data := steveToken.toUTF8
  servers := [(survival.id, survival.serverInfo), (lobby.id, lobby.serverInfo)]
  dataStore := [survival, lobby]
  currentServer := none
  differs _ := true

theorem grants_steveLogin : Grants unsignSteve steveLogin.proxy 1700000001000 1700000001001
    steveLogin.player steveLogin.data "lobby" steveClaims where
  signed := by
    rw [steveLogin, stringOf_toUTF8]
    exact if_pos ⟨rfl, rfl⟩
  issuer := rfl
  unexpired := ⟨_, rfl, by decide, by decide⟩
  uuid := rfl
  server := rfl
  origin origin horigin := by
    obtain rfl : "proxy-a" = origin := by
      simpa [steveClaims, transferClaims, proxyA, List.lookup_cons] using horigin
    exact ⟨_, rfl, by decide⟩

/-- The response is looked up while the player waits. -/
def answered : List ArrivalLabel := [.request, .register, .lookUp]

/-- The response is handled before the future is registered. -/
def hasty : List ArrivalLabel :=
  [.request, .lookUp, .complete 1700000001000 1700000001001, .register]

theorem transferred_iff_answered : ∃ x : Arrival, x.early = false ∧
    (x.initialServer = some lobby.serverInfo ↔
      x.early = false ∨ steveLogin.fallback = some lobby.serverInfo) := by
  have hanswered : runLabels (Arrival.next unsignSteve steveLogin) (steveLogin.start []) answered =
      some ⟨[(steveLogin.id, .pending)], .registered, .lookedUp true, none, false⟩ := rfl
  have hwaiting : Runs _ (Arrival.InTime unsignSteve steveLogin "lobby") _ _ :=
    runs_of_labels (by simp [answered, Arrival.InTime]) hanswered
  have hgrants : ∃ jwt, Grants unsignSteve steveLogin.proxy 1700000001000 1700000001001
      steveLogin.player steveLogin.data "lobby" jwt := ⟨_, grants_steveLogin⟩
  have hcompleted :=
    hwaiting.tail (l := ArrivalLabel.complete 1700000001000 1700000001001) hgrants rfl
  have hlookup := @Arrival.lookup_complete _ _ _
    ⟨[(steveLogin.id, .pending)], .registered, .lookedUp true, none, false⟩ _ _ _
    grants_steveLogin rfl
  have hreturned := hcompleted.tail (l := ArrivalLabel.get) trivial (by
    simp only [Arrival.next, hlookup]
    rfl)
  exact ⟨_, rfl, transferred_iff rfl hreturned rfl⟩

/-- The player waits in vain and is sent to another server. -/
theorem transfer_lost : ¬ ∀ (unsign : String → String → Option DecodedJWT) (login : Login)
    (server : String) (targetServer : ServerInfo) (cookieFutures : List (String × Future))
    (x : Arrival), login.servers.lookup server = some targetServer →
    Runs (Arrival.next unsign login) (Arrival.InTime unsign login server)
      (login.start cookieFutures) x →
    x.stage = .returned → x.initialServer = some targetServer := by
  intro h
  have hgrants : ∃ jwt, Grants unsignSteve steveLogin.proxy 1700000001000 1700000001001
      steveLogin.player steveLogin.data "lobby" jwt := ⟨_, grants_steveLogin⟩
  have hhasty : runLabels (Arrival.next unsignSteve steveLogin) (steveLogin.start []) hasty =
      some ⟨[(steveLogin.id, .pending)], .registered, .handled, none, true⟩ := rfl
  have hrun : Runs _ (Arrival.InTime unsignSteve steveLogin "lobby") _ _ :=
    runs_of_labels (by simp [hasty, Arrival.InTime, hgrants]) hhasty
  have hlost := h _ _ _ _ _ _ rfl (hrun.tail (l := ArrivalLabel.timeout) rfl rfl) rfl
  exact absurd hlost (by decide)

end Minikura.Velocity
